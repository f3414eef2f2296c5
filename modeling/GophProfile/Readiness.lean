import GophProfile.Closing

/-! Readiness of the broker. The check looks at the connection only, and so does the goroutine
that restores it; a service channel that the broker closes alone is seen by neither. -/
namespace GophProfile.RabbitMQ.Connection

open Transition

variable {t : Topology} {trace : List (State × Act × State)} {s s' : State}

/-- The channel that `publish` would use is open. -/
def State.ServiceOpen (s : State) : Prop :=
  ∃ link ch, s.channel = some link ∧ (s.links link).channel = some ch ∧ ch.opened = true

/-- Of a connection that nobody has closed, the service channel is open as long as the
connection is. -/
def State.InStep (s : State) : Prop :=
  s.closed = false → ∀ link, s.conn = some link → (s.links link).opened = true →
    ∃ ch, (s.links link).channel = some ch ∧ ch.opened = true

/-- The step closes no service channel under a live connection, and installs none that is
closed on a live connection. -/
def Spared (s : State) : Act → Prop
  | .broker (.exception link) => s.closed = false → s.conn ≠ some link
  | .keeper _ => ∀ a link, s.keeper = .opened a link → s.closed = false →
    (s.links link).opened = true → ∃ ch, (s.links link).channel = some ch ∧ ch.opened = true
  | _ => True

theorem check_ok : s.check = .ok () ↔
    s.closed = false ∧ ∃ link, s.conn = some link ∧ (s.links link).opened = true := by
  unfold State.check State.isClosed
  cases closed : s.closed <;> cases conn : s.conn <;> simp

theorem Sound.service_open (sound : Sound s) (inStep : s.InStep) (ready : s.check = .ok ()) :
    s.ServiceOpen := by
  obtain ⟨closed,link,conn,opened⟩ := check_ok.mp ready
  obtain ⟨ch,there,usable⟩ := inStep closed link conn opened
  exact ⟨link,ch,sound.pair.trans conn,there,usable⟩

/-! ### A step that spares the service channel -/

/-- A request on another connection, or one that leaves the channel open. -/
theorem State.InStep.relink (inStep : s.InStep) {link : Nat} {l : Link}
    (fine : s.closed = false → s.conn = some link → l.opened = true →
      ∃ ch, l.channel = some ch ∧ ch.opened = true) : (s.setLink link l).InStep := by
  intro closed other conn opened
  by_cases same : other = link
  · subst same
    rw [setLink_same] at opened ⊢
    exact fine closed conn opened
  · rw [s.setLink_other l same] at opened ⊢
    exact inStep closed other conn opened

theorem KeeperMove.inStep (sound : Sound s) (inStep : s.InStep) {choice : Choice}
    (spared : Spared s (.keeper choice)) (move : KeeperMove s s') : s'.InStep := by
  -- what the keeper holds is not installed
  have elsewhere : ∀ {link l}, s.keeper.link = some link → (s.setLink link l).InStep := fun mine =>
    inStep.relink fun _ conn => absurd conn (sound.apart _ mine)
  cases move with
  | turn => exact inStep
  | dialed a here =>
    refine inStep.relink fun _ conn => ?_
    exact absurd (sound.known s.dialed (.inl conn)) (Nat.lt_irrefl _)
  | channel a link here => exact elsewhere (by rw [here]; rfl)
  | confirmed a link ch here => exact elsewhere (by rw [here]; rfl)
  | shut link k here => exact elsewhere here
  | installed a link here =>
    intro closed other conn opened
    cases conn
    exact spared a link here closed opened
  | left => exact inStep

theorem CallMove.inStep {slot : Nat} {r : Routine} (move : CallMove t s slot r s')
    (running : s.calls slot = some r) (shutting : Shutting s) (inStep : s.InStep) : s'.InStep := by
  cases move with
  | confirmed link ch current usable =>
    exact inStep.relink fun _ _ _ => ⟨ch.confirm,rfl,(Link.usable_some usable).2.2⟩
  | sent job link ch usable =>
    exact inStep.relink fun _ _ _ => ⟨ch.publish _,rfl,(Link.usable_some usable).2.2⟩
  | closing => exact fun closed => by contradiction
  | shutChannel conn channel =>
    intro closed
    have unclosed : s.closed = false := closed
    rw [(shutting.calls slot _ running).1] at unclosed
    contradiction
  | shutConn conn => exact inStep.relink fun _ _ opened => by contradiction
  | _ => exact inStep

theorem broker_inStep (inStep : s.InStep) {event : Event} (spared : Spared s (.broker event))
    (taken : brokerStep s event = some s') : s'.InStep := by
  cases event with
  | broken link =>
    simp only [brokerStep] at taken
    split at taken
    · cases taken
      exact inStep.relink fun _ _ opened => by contradiction
    · contradiction
  | exception link =>
    obtain ⟨ch,usable,rfl⟩ := Option.map_eq_some_iff.mp taken
    exact inStep.relink fun closed conn => absurd conn (spared closed)
  | settle link tag acked =>
    obtain ⟨ch,usable,rest⟩ := Option.bind_eq_some_iff.mp taken
    split at rest
    · cases rest
      exact inStep.relink fun _ _ _ => ⟨ch.settle tag acked,rfl,(Link.usable_some usable).2.2⟩
    · contradiction

theorem Run.inStep (run : Run t trace s) (spared : ∀ entry ∈ trace, Spared entry.1 entry.2.1) :
    s.InStep := by
  induction run with
  | nil => simp [State.InStep,State.initial]
  | @snoc trace s s' a before taken ih =>
    have inStep := ih fun entry member => spared entry (List.mem_append_left _ member)
    have here : Spared s a := spared _ (List.mem_append_right _ List.mem_cons_self)
    cases a with
    | keeper choice => exact (keeper_move taken).inStep (Run.sound before) inStep here
    | start slot command =>
      obtain ⟨-,-,rfl⟩ := step_start taken
      exact inStep
    | advance slot choice =>
      obtain ⟨r,running,move⟩ := step_advance taken
      exact move.inStep running (Run.shutting before) inStep
    | broker event => exact broker_inStep inStep here taken

/-! ### A step that does not -/

/-- A keeper with an open connection in its hands installs it unless `Close` was first. -/
theorem step_opened {choice : Choice} {a : Attempt} {link : Nat} (here : s.keeper = .opened a link)
    (unclosed : s.closed = false) (taken : keeperStep s choice = some s') :
    s' = { s with conn := some link, channel := some link, keeper := .watch } := by
  cases choice <;> simp only [keeperStep,here,reduceCtorEq] at taken
  rw [if_neg (by simp [unclosed] : ¬ s.closed = true)] at taken
  split at taken
  · split at taken
    · contradiction
    · exact (Option.some.inj taken).symm
  · exact (Option.some.inj taken).symm

theorem spared_of_open {a : Act} (sound : Sound s) (taken : step t s a = some s')
    (after : s'.check = .ok () → s'.ServiceOpen) : Spared s a := by
  cases a with
  | broker event =>
    cases event with
    | exception link =>
      intro closed conn
      obtain ⟨ch,usable,rfl⟩ := Option.map_eq_some_iff.mp taken
      have opened := (Link.usable_some usable).1
      obtain ⟨other,ch',current,there,alive⟩ := after (check_ok.mpr
        ⟨closed,link,conn,by rw [State.setLink_same]; exact opened⟩)
      cases current.symm.trans (sound.pair.trans conn)
      rw [State.setLink_same] at there
      cases there
      contradiction
    | _ => trivial
  | keeper choice =>
    intro a link here closed opened
    obtain rfl := step_opened here closed taken
    obtain ⟨other,ch,current,there,alive⟩ := after (check_ok.mpr ⟨closed,link,rfl,opened⟩)
    cases current
    exact ⟨ch,there,alive⟩
  | _ => trivial

/-- In a run the check passes only while the service channel is open, if and only if no step
of it closes the channel of a live connection or installs a live connection without it. -/
theorem readiness_iff (run : Run t trace s) :
    (∀ before u, before <+: trace → Run t before u → u.check = .ok () → u.ServiceOpen) ↔
      ∀ entry ∈ trace, Spared entry.1 entry.2.1 := by
  constructor
  · rintro open_ ⟨s₁,a,s₂⟩ member
    obtain ⟨before,after,rfl⟩ := List.append_of_mem member
    obtain ⟨earlier,taken⟩ := Path.before run
    exact spared_of_open (Run.sound earlier) taken
      (open_ (before ++ [(s₁,a,s₂)]) s₂ ⟨after,by simp⟩ (.snoc earlier taken))
  · rintro spared before u ⟨rest,rfl⟩ earlier ready
    have inStep := Run.inStep earlier fun entry member => spared entry (List.mem_append_left _ member)
    exact (Run.sound earlier).service_open inStep ready

/-! ### Concrete runs -/

namespace Schedule

def isReady (s : State) : Bool :=
  match s.check with
  | .ok () => true
  | .error _ => false

theorem isReady_iff : isReady s = true ↔ s.check = .ok () := by
  unfold isReady
  split
  · next ok => simp [ok]
  · next err failed => simp [failed]

def hasService (s : State) : Bool :=
  match s.channel with
  | some link => ((s.links link).channel.filter Channel.opened).isSome
  | none => false

theorem hasService_of_open (open_ : s.ServiceOpen) : hasService s = true := by
  obtain ⟨link,ch,current,there,opened⟩ := open_
  simp [hasService,current,there,opened]

def isDead (s : State) : Bool := isReady s && !hasService s

/-- `Spared` as a test. -/
def spares (s : State) : Act → Bool
  | .broker (.exception link) => s.closed || s.conn != some link
  | .keeper _ =>
    match s.keeper with
    | .opened _ link =>
      s.closed || !(s.links link).opened || (s.links link).channel.any Channel.opened
    | _ => true
  | _ => true

theorem spared_of_spares {a : Act} (spares : spares s a = true) : Spared s a := by
  cases a with
  | broker event =>
    cases event with
    | exception link =>
      intro closed conn
      simp [Schedule.spares,closed,conn] at spares
    | _ => trivial
  | keeper choice =>
    intro a link here closed opened
    simpa [Schedule.spares,here,closed,opened,Option.any_eq_true] using spares
  | _ => trivial

end Schedule

/-- The connection breaks and is restored. -/
theorem readiness_restored : ∃ trace s, Run (newTopology .standard) trace s ∧ 1 < s.dialed ∧
    s.check = .ok () ∧ s.ServiceOpen := by
  obtain ⟨trace,s,run,spares,met,-⟩ := exists_path (step (newTopology .standard))
    (fun s a => Schedule.spares s a = true) .initial
    (Schedule.connect ++ Schedule.makePublisher 0 ++ Schedule.restore 0)
    (fun s => Schedule.isReady s && decide (1 < s.dialed)) (by decide +kernel)
  rw [Bool.and_eq_true,decide_eq_true_eq,Schedule.isReady_iff] at met
  have open_ := (readiness_iff run).mpr
    fun entry member => Schedule.spared_of_spares (spares entry member)
  exact ⟨trace,s,run,met.2,met.1,open_ trace s List.prefix_rfl run met.1⟩

/-- A publication to a deleted exchange closes the channel, and the pod stays ready. -/
theorem ready_without_channel : ¬ ∀ t trace s, Run t trace s → s.check = .ok () → s.ServiceOpen := by
  intro claimed
  obtain ⟨trace,s,run,met⟩ := Schedule.run (Schedule.connect ++ [.broker (.exception 0)])
    Schedule.isDead (by decide +kernel)
  rw [Schedule.isDead,Bool.and_eq_true,Schedule.isReady_iff,Bool.not_eq_true'] at met
  have usable := Schedule.hasService_of_open (claimed _ trace s run met.1)
  rw [met.2] at usable
  contradiction

end GophProfile.RabbitMQ.Connection
