import GophProfile.Confirms

/-! `Close`: at most one connection of the library is ever alive, none is installed after the
closing, and when the call that closes returns, the goroutine has ended and nothing is left
open. A call that waits for the goroutine can always be brought to its end. -/
namespace GophProfile.RabbitMQ.Connection

open Transition

variable {t : Topology} {trace : List (State × Act × State)} {s s' : State}

/-! ### One live connection -/

theorem Keeper.at_work {k : Keeper} {link : Nat} (mine : k.link = some link) :
    k.connecting = true ∨ k.recovering = true := by
  cases k <;> simp only [Keeper.link,reduceCtorEq] at mine
  case discard => exact .inr rfl
  all_goals
    simp only [Keeper.connecting,Keeper.recovering]
    exact (Bool.eq_false_or_eq_true _).symm.imp_left fun off => by simp [off]

theorem Sound.not_both (sound : Sound s) {link other : Nat} (conn : s.conn = some link)
    (opened : (s.links link).opened = true) (mine : s.keeper.link = some other) : False := by
  rcases Keeper.at_work mine with connecting | recovering
  · rw [sound.connecting,conn] at connecting
    contradiction
  · rw [sound.recovering recovering link conn] at opened
    contradiction

theorem Sound.one_live (sound : Sound s) {i j : Nat} (one : (s.links i).opened = true)
    (two : (s.links j).opened = true) : i = j := by
  rcases sound.live i one with conn | mine <;> rcases sound.live j two with conn' | mine'
  · exact Option.some.inj (conn.symm.trans conn')
  · exact (sound.not_both conn one mine').elim
  · exact (sound.not_both conn' two mine).elim
  · exact Option.some.inj (mine.symm.trans mine')

/-! ### What a call that closes knows -/

def Routine.Closing (s : State) : Routine → Prop
  | .closeWait conn channel => s.closed = true ∧ s.conn = some conn ∧ s.channel = some channel
  | .closeChannel conn _ => s.closed = true ∧ s.done = true ∧ s.conn = some conn
  | .closeConn conn => s.closed = true ∧ s.done = true ∧ s.conn = some conn
  | .done (.closed _) => s.closed = true ∧ s.done = true ∧ ∀ link, (s.links link).opened = false
  | _ => True

theorem Routine.closing_of_not {r : Routine} (other : r.closing = false) : r.Closing s := by
  unfold Routine.Closing
  split <;> first | contradiction | trivial

/-- What no step takes back. -/
structure Lasting (s s' : State) : Prop where
  closed : s.closed = true → s'.closed = true
  done : s.done = true → s'.done = true
  conn : s.closed = true → s'.conn = s.conn ∧ s'.channel = s.channel
  dead : s.done = true → ∀ link, (s'.links link).opened = true → (s.links link).opened = true

theorem Routine.Closing.later {r : Routine} (closing : r.Closing s) (lasting : Lasting s s') :
    r.Closing s' := by
  cases r with
  | closeWait conn channel =>
    obtain ⟨closed,installed,current⟩ := closing
    obtain ⟨same,same'⟩ := lasting.conn closed
    exact ⟨lasting.closed closed,same.trans installed,same'.trans current⟩
  | closeChannel conn channel =>
    obtain ⟨closed,done,installed⟩ := closing
    exact ⟨lasting.closed closed,lasting.done done,(lasting.conn closed).1.trans installed⟩
  | closeConn conn =>
    obtain ⟨closed,done,installed⟩ := closing
    exact ⟨lasting.closed closed,lasting.done done,(lasting.conn closed).1.trans installed⟩
  | done reply =>
    cases reply with
    | closed result =>
      obtain ⟨closed,done,dead⟩ := closing
      refine ⟨lasting.closed closed,lasting.done done,fun link => ?_⟩
      by_contra opened
      have before := lasting.dead done link (by simpa using opened)
      rw [dead link] at before
      contradiction
    | _ => trivial
  | _ => trivial

theorem Aside.lasting (aside : Aside s s') : Lasting s s' where
  closed := aside.closed
  done := fun done => aside.done.trans done
  conn := fun _ => ⟨aside.conn,aside.channel⟩
  dead := fun _ link => (aside.links link).opened

theorem KeeperMove.lasting (sound : Sound s) (connected : s.closed = true → s.conn ≠ none)
    (move : KeeperMove s s') : Lasting s s' := by
  have busy : s.keeper ≠ .ended := by
    cases move with
    | turn k turn => exact turn.running.1
    | shut link k here =>
      intro ended
      rw [ended] at here
      contradiction
    | dialed a here => simp [here]
    | channel a link here => simp [here]
    | confirmed a link ch here => simp [here]
    | installed a link here => simp [here]
    | left here => simp [here]
  have dead : s.done = true → ∀ link, (s'.links link).opened = true → (s.links link).opened = true :=
    fun done => absurd (sound.done.mp done) busy
  cases move with
  | installed a link here unclosed =>
    refine ⟨fun h => h,fun h => h,fun closed => ?_,dead⟩
    exfalso
    cases recovering : a.recovering with
    | true =>
      rw [(unclosed recovering).1] at closed
      contradiction
    | false =>
      have first := sound.connecting
      rw [here] at first
      simp only [Keeper.connecting,recovering,Bool.not_false] at first
      exact connected closed (by simpa using first.symm)
  | left here => exact ⟨fun h => h,fun _ => rfl,fun _ => ⟨rfl,rfl⟩,dead⟩
  | _ => exact ⟨fun h => h,fun h => h,fun _ => ⟨rfl,rfl⟩,dead⟩

/-- The calls that close know where they are, and the lock has a holder. -/
structure Shutting (s : State) : Prop where
  calls : ∀ slot r, s.calls slot = some r → r.Closing s
  connected : s.closed = true → s.conn ≠ none
  stop : s.stop = s.closed
  held : s.locked = true → ∃ slot r, s.calls slot = some r ∧ r.holdsLock = true

theorem KeeperMove.shutting (sound : Sound s) (shutting : Shutting s) (move : KeeperMove s s') :
    Shutting s' := by
  have lasting := move.lasting sound shutting.connected
  have same : s'.calls = s.calls ∧ s'.closed = s.closed ∧ s'.stop = s.stop ∧ s'.locked = s.locked := by
    cases move <;> exact ⟨rfl,rfl,rfl,rfl⟩
  obtain ⟨calls,closed,stop,locked⟩ := same
  refine ⟨?_,?_,?_,?_⟩
  · intro slot r here
    exact (shutting.calls slot r (calls ▸ here)).later lasting
  · intro now
    rw [(lasting.conn (closed ▸ now)).1]
    exact shutting.connected (closed ▸ now)
  · rw [stop,closed,shutting.stop]
  · rw [locked,calls]
    exact shutting.held

theorem CallMove.closing_next {slot : Nat} {r r' : Routine} (move : CallMove t s slot r s')
    (sound : Sound s) (closing : r.Closing s) (next : s'.calls slot = some r') : r'.Closing s' := by
  cases move with
  | pass _ pass =>
    cases (State.setCall_same _ _ _).symm.trans next
    cases special : r'.closing with
    | false => exact Routine.closing_of_not special
    | true =>
      obtain ⟨conn,channel,rfl,done,rfl⟩ := pass.closing special
      exact ⟨closing.1,done,closing.2.1⟩
  | closing conn channel unclosed installed current =>
    cases (State.setCall_same _ _ _).symm.trans next
    exact ⟨rfl,installed,current⟩
  | shutChannel conn channel =>
    cases (State.setCall_same _ _ _).symm.trans next
    exact closing
  | shutConn conn result =>
    cases (State.setCall_same _ _ _).symm.trans next
    obtain ⟨closed,done,installed⟩ := closing
    refine ⟨closed,done,fun link => ?_⟩
    by_contra left
    have opened : (((s.setLink conn (s.links conn).shut)).links link).opened = true :=
      (Bool.not_eq_false _).mp left
    by_cases same : link = conn
    · subst same
      rw [State.setLink_same] at opened
      contradiction
    · rw [s.setLink_other _ same] at opened
      rcases sound.live link opened with other | mine
      · exact same (Option.some.inj (other.symm.trans installed))
      · rw [sound.done.mp done] at mine
        contradiction
  | _ =>
    cases (State.setCall_same _ _ _).symm.trans next
    trivial

theorem CallMove.shutting {slot : Nat} {r : Routine} (move : CallMove t s slot r s')
    (running : s.calls slot = some r) (sound : Sound s) (shutting : Shutting s) : Shutting s' := by
  have lasting := move.aside.lasting
  obtain ⟨r',calls⟩ := move.next
  have mine : s'.calls slot = some r' := by rw [calls]; simp
  refine ⟨?_,?_,?_,?_⟩
  · intro i u here
    by_cases same : i = slot
    · subst same
      exact move.closing_next sound (shutting.calls i r running) here
    · exact (shutting.calls i u ((move.others same).symm.trans here)).later lasting
  · intro closed
    rw [move.aside.conn]
    cases move with
    | closing conn channel unclosed installed => simp [installed]
    | _ => exact shutting.connected closed
  · cases move with
    | closing => rfl
    | _ => exact shutting.stop
  · intro locked
    by_cases fresh : r'.holdsLock = true
    · exact ⟨slot,r',mine,fresh⟩
    -- the holder is somebody else, and still holds the lock
    obtain ⟨before,unheld⟩ : s.locked = true ∧ r.holdsLock = false := by
      cases move with
      | pass _ pass =>
        cases (State.setCall_same _ _ _).symm.trans mine
        exact ⟨locked,by rw [← pass.holdsLock]; simpa using fresh⟩
      | locked => exact absurd (by cases (State.setCall_same _ _ _).symm.trans mine; rfl) fresh
      | confirmed => exact absurd (by cases (State.setCall_same _ _ _).symm.trans mine; rfl) fresh
      | unlocked => contradiction
      | _ => exact ⟨locked,rfl⟩
    obtain ⟨i,u,here,holds⟩ := shutting.held before
    have other : i ≠ slot := by
      rintro rfl
      cases running.symm.trans here
      rw [unheld] at holds
      contradiction
    exact ⟨i,u,(move.others other).trans here,holds⟩

theorem Run.shutting (run : Run t trace s) : Shutting s := by
  induction run with
  | nil => exact ⟨by simp [State.initial],by simp [State.initial],rfl,by simp [State.initial]⟩
  | @snoc trace s s' a before taken ih =>
    have sound := Run.sound before
    cases a with
    | keeper choice => exact (keeper_move taken).shutting sound ih
    | start slot command =>
      obtain ⟨-,free,rfl⟩ := step_start taken
      have lasting := (Aside.begun s slot (begin command)).lasting
      refine ⟨?_,ih.connected,ih.stop,?_⟩
      · intro i r here
        rcases State.calls_setCall here with ⟨rfl,rfl⟩ | ⟨-,here⟩
        · exact Routine.closing_of_not (begun_plain command).2.2.2.1
        · exact (ih.calls i r here).later lasting
      · intro locked
        obtain ⟨i,r,here,holds⟩ := ih.held locked
        have other : i ≠ slot := by
          rintro rfl
          rw [free] at here
          contradiction
        exact ⟨i,r,by simpa [State.setCall,other] using here,holds⟩
    | advance slot choice =>
      obtain ⟨r,running,move⟩ := step_advance taken
      exact move.shutting running sound ih
    | broker event =>
      obtain ⟨aside,same⟩ := broker_aside taken
      have lasting := aside.lasting
      rw [same] at lasting ⊢
      exact ⟨fun i r here => (ih.calls i r here).later lasting,ih.connected,ih.stop,ih.held⟩

/-! ### The way to the end -/

/-- The keeper can get to its end without anybody's help. -/
def Leads (t : Topology) (s : State) : Prop :=
  ∃ (choices : List Choice) (u : State), execute (step t) s (choices.map .keeper) = some u ∧
    u.done = true ∧ u.calls = s.calls

theorem Leads.to (s' : State) (choice : Choice) (taken : keeperStep s choice = some s')
    (calls : s'.calls = s.calls) (leads : Leads t s') : Leads t s := by
  obtain ⟨choices,u,run,done,same⟩ := leads
  refine ⟨choice :: choices,u,?_,done,same.trans calls⟩
  rw [List.map_cons,execute,show step t s (.keeper choice) = some s' from taken]
  exact run

theorem leads_leaving (here : s.keeper = .leaving) : Leads t s :=
  ⟨[.ok],{ s with done := true, keeper := .ended },by simp [execute,step,keeperStep,here],rfl,rfl⟩

theorem leads_discard {link : Nat} (here : s.keeper = .discard link) : Leads t s := by
  refine Leads.to { s.setLink link (s.links link).shut with keeper := .leaving } .ok ?_ rfl
    (leads_leaving rfl)
  simp [keeperStep,here]

theorem leads_pause {a : Attempt} (here : s.keeper = .pause a) (recovering : a.recovering = true)
    (stop : s.stop = true) : Leads t s := by
  refine Leads.to { s with keeper := .leaving } .stop ?_ rfl (leads_leaving rfl)
  simp [keeperStep,here,recovering,stop]

theorem leads_abandon {a : Attempt} {link : Nat} {err : Err} (here : s.keeper = .abandon a link err)
    (recovering : a.recovering = true) (stop : s.stop = true) : Leads t s := by
  obtain ⟨a',paused,same⟩ := openFailed_attempt a err
  refine Leads.to { s.setLink link (s.links link).shut with keeper := .pause a' } .ok ?_ rfl
    (leads_pause rfl (same.trans recovering) stop)
  simp [keeperStep,here,paused]

theorem leads_opened {a : Attempt} {link : Nat} (here : s.keeper = .opened a link)
    (recovering : a.recovering = true) (unlocked : s.locked = false) (closed : s.closed = true) :
    Leads t s := by
  refine Leads.to { s with keeper := .discard link } .ok ?_ rfl (leads_discard rfl)
  simp [keeperStep,here,recovering,unlocked,closed]

/-- Where an attempt fails, its connection is abandoned. -/
theorem leads_failing {a : Attempt} {link : Nat} (err : Err) {err' : Err}
    (fails : keeperStep s (.fail err) = some { s with keeper := .abandon a link err' })
    (recovering : a.recovering = true) (stop : s.stop = true) : Leads t s :=
  Leads.to _ (.fail err) fails rfl (leads_abandon rfl recovering stop)

/-- From wherever the closing meets the keeper. -/
theorem Shutting.leads (shutting : Shutting s) (sound : Sound s) (closed : s.closed = true)
    (unlocked : s.locked = false) : Leads t s := by
  have stop : s.stop = true := shutting.stop.trans closed
  obtain ⟨conn,installed⟩ := Option.ne_none_iff_exists'.mp (shutting.connected closed)
  have returned : s.keeper.connecting = false := by rw [sound.connecting,installed]; rfl
  have again : ∀ {a : Attempt}, s.keeper.connecting = !a.recovering → a.recovering = true := by
    intro a same
    rw [returned] at same
    simpa using same.symm
  cases here : s.keeper with
  | dial a =>
    obtain ⟨a',paused,same⟩ := openFailed_attempt a (.errorf "dial: %w" [] errClosed)
    refine Leads.to { s with keeper := .pause a' } (.fail errClosed) ?_ rfl
      (leads_pause rfl (same.trans (again (by rw [here]; rfl))) stop)
    simp [keeperStep,here,paused]
  | openChannel a link =>
    exact leads_failing errClosed (by simp only [keeperStep,here]; rfl)
      (again (by rw [here]; rfl)) stop
  | declare a link =>
    exact leads_failing errClosed (by simp only [keeperStep,here]; rfl)
      (again (by rw [here]; rfl)) stop
  | readConfirms a link =>
    have recovering := again (a := a) (by rw [here]; rfl)
    cases confirms : s.confirms with
    | true =>
      refine Leads.to { s with keeper := .confirm a link } .ok ?_ rfl
        (leads_failing errClosed rfl recovering stop)
      simp [keeperStep,here,unlocked,confirms]
    | false =>
      refine Leads.to { s with keeper := .opened a link } .ok ?_ rfl
        (leads_opened rfl recovering unlocked closed)
      simp [keeperStep,here,unlocked,confirms]
  | confirm a link =>
    exact leads_failing errClosed (by simp only [keeperStep,here]; rfl)
      (again (by rw [here]; rfl)) stop
  | abandon a link err => exact leads_abandon here (again (by rw [here]; rfl)) stop
  | opened a link => exact leads_opened here (again (by rw [here]; rfl)) unlocked closed
  | pause a => exact leads_pause here (again (by rw [here]; rfl)) stop
  | failed err =>
    rw [here] at returned
    contradiction
  | watch =>
    refine Leads.to { s with keeper := .watching conn } .ok (by simp [keeperStep,here,unlocked,installed])
      rfl (Leads.to { s with keeper := .leaving } .stop (by simp [keeperStep,stop]) rfl (leads_leaving rfl))
  | watching link =>
    exact Leads.to { s with keeper := .leaving } .stop (by simp [keeperStep,here,stop]) rfl
      (leads_leaving rfl)
  | noticed =>
    exact Leads.to { s with keeper := .leaving } .ok (by simp [keeperStep,here,stop]) rfl
      (leads_leaving rfl)
  | discard link => exact leads_discard here
  | leaving => exact leads_leaving here
  | ended => exact ⟨[],s,rfl,sound.done.mpr here,rfl⟩

/-! ### Close -/

/-- The step is the keeper's, the call's own, or one of the call that holds the lock. -/
def Concerned (s : State) (slot : Nat) (a : Act) : Prop :=
  (∃ choice, a = .keeper choice) ∨ ∃ i r choice, a = .advance i choice ∧ s.calls i = some r ∧
    (i = slot ∨ r.holdsLock = true)

/-- Whoever holds the lock can give it back, and changes nothing else for the others. -/
theorem Shutting.unlock (shutting : Shutting s) (slot : Nat) {r : Routine} (here : s.calls slot = some r)
    (waits : r.holdsLock = false) :
    ∃ acts u, execute (step t) s acts = some u ∧ (∀ a ∈ acts, Concerned s slot a) ∧
      u.locked = false ∧ u.closed = s.closed ∧ u.calls slot = some r := by
  cases locked : s.locked with
  | false => exact ⟨[],s,rfl,by simp,locked,rfl,here⟩
  | true =>
    obtain ⟨i,r',holder,holds⟩ := shutting.held locked
    have other : slot ≠ i := by
      rintro rfl
      cases here.symm.trans holder
      rw [waits] at holds
      contradiction
    have concerned : ∀ choice, Concerned s slot (.advance i choice) := fun choice =>
      .inr ⟨i,r',choice,rfl,holder,.inr holds⟩
    cases r' with
    | confirm =>
      refine ⟨[.advance i (.fail errClosed),.advance i .ok],
        { s.setCall i (.unlockConfirms (.error (confirmsFailed errClosed))) with locked := false }.setCall i
          (.done (.publisher (.error (confirmsFailed errClosed)))),?_,?_,?_⟩
      · simp only [execute,step,holder,Option.bind_some,callStep,State.setCall_same]
      · rintro a member
        rcases List.mem_pair.mp member with rfl | rfl
        · exact concerned _
        · exact concerned _
      · exact ⟨rfl,rfl,by simpa [State.setCall,other] using here⟩
    | unlockConfirms result =>
      refine ⟨[.advance i .ok],{ s with locked := false }.setCall i (.done (.publisher result)),?_,?_,?_⟩
      · simp only [execute,step,holder,Option.bind_some,callStep]
      · rintro a member
        obtain rfl := List.mem_singleton.mp member
        exact concerned _
      · exact ⟨rfl,rfl,by simpa [State.setCall,other] using here⟩
    | _ => contradiction

/-- A call that waits for the goroutine can be brought to its end by the goroutine, the
holder of the lock and itself. -/
theorem Run.closes (run : Run t trace s) {slot conn channel : Nat}
    (here : s.calls slot = some (.closeWait conn channel)) :
    ∃ acts u result, execute (step t) s acts = some u ∧ (∀ a ∈ acts, Concerned s slot a) ∧
      u.calls slot = some (.done (.closed result)) := by
  have closed := (run.shutting.calls slot _ here).1
  obtain ⟨acts,v,unlocking,concerned,unlocked,same,still⟩ := run.shutting.unlock (t := t) slot here rfl
  obtain ⟨rest,path,-⟩ := Path.execute run unlocking
  obtain ⟨choices,w,leaving,done,calls⟩ :=
    (Run.shutting path).leads (t := t) (Run.sound path) (same.trans closed) unlocked
  have waiting : w.calls slot = some (.closeWait conn channel) := by rw [calls]; exact still
  have finishing : ∃ u result,
      execute (step t) w [.advance slot .ok,.advance slot .ok,.advance slot .ok] = some u ∧
        u.calls slot = some (.done (.closed result)) := by
    simp only [execute,step,waiting,Option.bind_some,callStep,done,↓reduceIte,State.setCall_same]
    exact ⟨_,_,rfl,State.setCall_same _ _ _⟩
  obtain ⟨u,result,finished,returned⟩ := finishing
  refine ⟨acts ++ (choices.map .keeper ++ [.advance slot .ok,.advance slot .ok,.advance slot .ok]),u,
    result,execute_append unlocking (execute_append leaving finished),?_,returned⟩
  have own : Concerned s slot (.advance slot .ok) := .inr ⟨slot,_,.ok,rfl,here,.inl rfl⟩
  intro a member
  rcases List.mem_append.mp member with first | rest
  · exact concerned a first
  · rcases List.mem_append.mp rest with keeper | last
    · obtain ⟨choice,-,rfl⟩ := List.mem_map.mp keeper
      exact .inl ⟨choice,rfl⟩
    · simp only [List.mem_cons,List.not_mem_nil,or_false,or_self] at last
      exact last ▸ own

theorem step_lasting {a : Act} (sound : Sound s) (shutting : Shutting s) (taken : step t s a = some s') :
    Lasting s s' := by
  cases a with
  | keeper choice => exact (keeper_move taken).lasting sound shutting.connected
  | start slot command =>
    obtain ⟨-,-,rfl⟩ := step_start taken
    exact (Aside.begun s slot _).lasting
  | advance slot choice =>
    obtain ⟨r,-,move⟩ := step_advance taken
    exact move.aside.lasting
  | broker event => exact (broker_aside taken).1.lasting

/-- A goroutine that has ended takes no step. -/
theorem step_ended {a : Act} (ended : s.keeper = .ended) (taken : step t s a = some s') : Aside s s' := by
  cases a with
  | keeper choice =>
    simp only [step] at taken
    cases choice <;> simp [keeperStep,ended] at taken
  | start slot command =>
    obtain ⟨-,-,rfl⟩ := step_start taken
    exact Aside.begun s slot _
  | advance slot choice =>
    obtain ⟨r,-,move⟩ := step_advance taken
    exact move.aside
  | broker event => exact (broker_aside taken).1

/-- Once the goroutine has ended and all connections are dead, it stays so. -/
theorem ended_forever (ended : s.keeper = .ended) (dead : ∀ link, (s.links link).opened = false)
    {rest : List (State × Act × State)} {u : State} (later : Path (step t) s rest u) :
    u.keeper = .ended ∧ (∀ link, (u.links link).opened = false) ∧ u.dialed = s.dialed := by
  induction later with
  | nil => exact ⟨ended,dead,rfl⟩
  | snoc _ taken ih =>
    obtain ⟨ended,dead,dialed⟩ := ih
    have aside := step_ended ended taken
    refine ⟨aside.keeper.trans ended,fun link => ?_,aside.dialed.trans dialed⟩
    by_contra opened
    have before := (aside.links link).opened ((Bool.not_eq_false _).mp opened)
    rw [dead link] at before
    contradiction

/-- At most one connection of the library is alive; after the closing none is installed; when
the call that closes has returned, the goroutine has ended, every connection is closed or
broken and stays so, and none is opened any more; and until then it can be brought to its end. -/
theorem close_ends_recovery (run : Run t trace s) :
    (∀ i j, (s.links i).opened = true → (s.links j).opened = true → i = j) ∧
    (s.closed = true → ∀ a s', step t s a = some s' → s'.conn = s.conn ∧ s'.channel = s.channel) ∧
    (∀ slot result, s.calls slot = some (.done (.closed result)) →
      ∀ rest u, Path (step t) s rest u →
        u.keeper = .ended ∧ (∀ link, (u.links link).opened = false) ∧ u.dialed = s.dialed) ∧
    ∀ slot conn channel, s.calls slot = some (.closeWait conn channel) →
      ∃ acts u result, execute (step t) s acts = some u ∧ (∀ a ∈ acts, Concerned s slot a) ∧
        u.calls slot = some (.done (.closed result)) := by
  have sound := run.sound
  have shutting := run.shutting
  refine ⟨fun i j => sound.one_live,?_,?_,fun slot conn channel => run.closes⟩
  · exact fun closed a s' taken => (step_lasting sound shutting taken).conn closed
  · intro slot result returned rest u later
    obtain ⟨-,done,dead⟩ := shutting.calls slot _ returned
    exact ended_forever (sound.done.mp done) dead later

namespace Schedule

def hasClosed (slot : Nat) (s : State) : Bool :=
  match s.calls slot with
  | some (.done (.closed _)) => true
  | _ => false

end Schedule

/-- `Close` comes while the goroutine dials; the new connection is discarded. -/
theorem close_ends_recovery_dialing : ∃ trace s,
    Run (newTopology .standard) trace s ∧ 1 < s.dialed ∧ s.keeper = .ended ∧
      ∀ link, (s.links link).opened = false := by
  obtain ⟨trace,s,run,met⟩ := Schedule.run
    (Schedule.connect ++ [.broker (.broken 0),.keeper .notify,.keeper .ok,.keeper .timer,
      .start 0 .close,.advance 0 .ok] ++ List.replicate 7 (.keeper .ok) ++ Schedule.oks 0 3)
    (fun s => Schedule.hasClosed 0 s && decide (1 < s.dialed)) (by decide +kernel)
  rw [Bool.and_eq_true,decide_eq_true_eq] at met
  obtain ⟨closed,dialed⟩ := met
  unfold Schedule.hasClosed at closed
  split at closed
  · next result returned =>
    obtain ⟨ended,dead,-⟩ := (close_ends_recovery run).2.2.1 0 result returned [] s .nil
    exact ⟨trace,s,run,dialed,ended,dead⟩
  · contradiction

end GophProfile.RabbitMQ.Connection
