import GophProfile.Upkeep

/-! Confirmed publishing across reconnects. Once a publisher exists, every channel that becomes
the service channel is in confirm mode, and a publication succeeds only by an acknowledgement
of its own. -/
namespace GophProfile.RabbitMQ.Connection

open Transition

variable {t : Topology} {trace : List (State × Act × State)} {s s' : State}

/-! ### The confirm mode -/

/-- The channel of the connection is in confirm mode, or the connection is broken. -/
def State.Confirms (s : State) (link : Nat) : Prop :=
  (s.links link).opened = true → ∃ ch, (s.links link).channel = some ch ∧ ch.confirming = true

/-- A publisher has been made, or is about to be returned. -/
def State.HasPublisher (s : State) : Prop := ∃ slot r, s.calls slot = some r ∧ r.enabled = true

/-- What the keeper and the fields guarantee from then on. -/
structure Guaranteed (s : State) : Prop where
  confirms : s.confirms = true
  installed : ∃ link, s.conn = some link
  current : ∀ link, s.conn = some link → s.Confirms link
  opened : ∀ a link, s.keeper = .opened a link → s.Confirms link

/-- Whoever is past the lock of `enableConfirms` has set the flag. -/
def State.Remembered (s : State) : Prop :=
  ∀ slot r, s.calls slot = some r → r.holdsLock = true → s.confirms = true

theorem State.Confirms.later {link : Nat} (confirms : s.Confirms link)
    (later : (s.links link).Later (s'.links link)) : s'.Confirms link := by
  intro opened
  obtain ⟨ch,there,confirming⟩ := confirms (later.opened opened)
  obtain ⟨ch',there',grown⟩ := later.channel ch there
  exact ⟨ch',there',grown.confirming confirming⟩

theorem State.Confirms.unchanged {link : Nat} (confirms : s.Confirms link)
    (same : s'.links link = s.links link) : s'.Confirms link := by
  unfold State.Confirms
  rw [same]
  exact confirms

theorem Guaranteed.aside (guaranteed : Guaranteed s) (aside : Aside s s') : Guaranteed s' where
  confirms := aside.confirms guaranteed.confirms
  installed := by rw [aside.conn]; exact guaranteed.installed
  current := by
    rw [aside.conn]
    exact fun link conn => (guaranteed.current link conn).later (aside.links link)
  opened := by
    rw [aside.keeper]
    exact fun a link here => (guaranteed.opened a link here).later (aside.links link)

theorem Guaranteed.keeper (sound : Sound s) (guaranteed : Guaranteed s) (move : KeeperMove s s') :
    Guaranteed s' := by
  -- the installed connection is not the one in the keeper's hands
  have kept : ∀ {link l}, s.keeper.link = some link → ∀ other, s.conn = some other →
      ((s.setLink link l).links other) = s.links other := fun mine other conn =>
    s.setLink_other _ fun same => sound.apart _ mine (same ▸ conn)
  cases move with
  | turn k turn =>
    refine ⟨guaranteed.confirms,guaranteed.installed,guaranteed.current,?_⟩
    intro a link equal
    have off := (turn.opened a link equal).2
    rw [guaranteed.confirms] at off
    contradiction
  | dialed a here =>
    refine ⟨guaranteed.confirms,guaranteed.installed,?_,by simp⟩
    intro link conn
    have known := sound.known link (.inl conn)
    exact (guaranteed.current link conn).unchanged (s.setLink_other _ (by omega))
  | channel a link here =>
    refine ⟨guaranteed.confirms,guaranteed.installed,?_,by simp⟩
    intro other conn
    exact (guaranteed.current other conn).unchanged (kept (by rw [here]; rfl) other conn)
  | confirmed a link ch here usable =>
    refine ⟨guaranteed.confirms,guaranteed.installed,?_,?_⟩
    · intro other conn
      exact (guaranteed.current other conn).unchanged (kept (by rw [here]; rfl) other conn)
    · rintro a' link' equal -
      cases equal
      exact ⟨ch.confirm,by rw [show State.links _ link = _ from s.setLink_same _ _]; rfl,rfl⟩
  | shut link k here next connecting =>
    refine ⟨guaranteed.confirms,guaranteed.installed,?_,?_⟩
    · intro other conn
      exact (guaranteed.current other conn).unchanged (kept here other conn)
    · rintro a link' rfl
      rcases next with ⟨_,equal,-⟩ | equal <;> contradiction
  | installed a link here unclosed =>
    refine ⟨guaranteed.confirms,⟨link,rfl⟩,?_,by simp⟩
    rintro other conn
    cases conn
    exact guaranteed.opened a link here
  | left here => exact ⟨guaranteed.confirms,guaranteed.installed,guaranteed.current,by simp⟩

theorem CallMove.remembered {slot : Nat} {r : Routine} (move : CallMove t s slot r s')
    (running : s.calls slot = some r) (remembered : s.Remembered) : s'.Remembered := by
  have confirms := move.aside.confirms
  -- only what the step makes of its own call is new
  suffices mine : ∀ r', s'.calls slot = some r' → r'.holdsLock = true → s'.confirms = true by
    intro i u here holds
    by_cases same : i = slot
    · exact mine u (same ▸ here) holds
    · exact confirms (remembered i u ((move.others same).symm.trans here) holds)
  intro r' here holds
  have before := fun held : r.holdsLock = true => confirms (remembered slot r running held)
  cases move with
  | pass _ pass =>
    cases (State.setCall_same _ _ _).symm.trans here
    exact before (pass.holdsLock ▸ holds)
  | locked => rfl
  | confirmed => exact before rfl
  | _ =>
    cases (State.setCall_same _ _ _).symm.trans here
    contradiction

theorem CallMove.guaranteed {slot : Nat} {r : Routine} (move : CallMove t s slot r s')
    (running : s.calls slot = some r) (sound : Sound s) (remembered : s.Remembered)
    (before : s.HasPublisher → Guaranteed s) (publisher : s'.HasPublisher) : Guaranteed s' := by
  by_cases already : s.HasPublisher
  · exact (before already).aside move.aside
  obtain ⟨i,u,here,enabled⟩ := publisher
  have own : i = slot := by
    by_contra other
    apply already
    exact ⟨i,u,(move.others other).symm.trans here,enabled⟩
  subst own
  cases move with
  | confirmed link ch current usable =>
    have conn : s.conn = some link := sound.pair ▸ current
    have opened := (Link.usable_some usable).1
    refine ⟨remembered i _ running rfl,⟨link,conn⟩,?_,?_⟩
    · intro other same
      cases conn.symm.trans same
      exact fun _ => ⟨ch.confirm,by simp [State.setCall,State.setLink,Link.withChannel],rfl⟩
    · intro a other keeper
      have keeper : s.keeper = .opened a other := keeper
      rw [sound.opened_alone keeper conn] at opened
      contradiction
  | pass _ pass =>
    cases (State.setCall_same _ _ _).symm.trans here
    rw [pass.enabled] at enabled
    contradiction
  | unlocked result =>
    cases (State.setCall_same _ _ _).symm.trans here
    rcases result with err | _
    · contradiction
    · exact absurd ⟨i,_,running,rfl⟩ already
  | _ =>
    cases (State.setCall_same _ _ _).symm.trans here
    contradiction

theorem Run.guaranteed (run : Run t trace s) :
    s.Remembered ∧ (s.HasPublisher → Guaranteed s) := by
  induction run with
  | nil =>
    refine ⟨?_,?_⟩
    · intro slot r here
      contradiction
    · rintro ⟨slot,r,here,-⟩
      contradiction
  | @snoc trace s s' a before taken ih =>
    have sound := Run.sound before
    obtain ⟨remembered,guaranteed⟩ := ih
    cases a with
    | keeper choice =>
      have move := keeper_move taken
      have same : s'.calls = s.calls := by cases move <;> rfl
      have confirms : s'.confirms = s.confirms := by cases move <;> rfl
      refine ⟨?_,?_⟩
      · intro slot r here holds
        rw [confirms]
        exact remembered slot r (same ▸ here) holds
      · rintro ⟨slot,r,here,enabled⟩
        exact (guaranteed ⟨slot,r,same ▸ here,enabled⟩).keeper sound move
    | start slot command =>
      obtain ⟨-,-,rfl⟩ := step_start taken
      obtain ⟨unlocked,unmade,-⟩ := begun_plain command
      refine ⟨?_,?_⟩
      · intro i r here holds
        rcases State.calls_setCall here with ⟨rfl,rfl⟩ | ⟨-,here⟩
        · rw [unlocked] at holds
          contradiction
        · exact remembered i r here holds
      · rintro ⟨i,r,here,enabled⟩
        rcases State.calls_setCall here with ⟨rfl,rfl⟩ | ⟨-,here⟩
        · rw [unmade] at enabled
          contradiction
        · exact (guaranteed ⟨i,r,here,enabled⟩).aside (Aside.begun s slot _)
    | advance slot choice =>
      obtain ⟨r,running,move⟩ := step_advance taken
      exact ⟨move.remembered running remembered,move.guaranteed running sound remembered guaranteed⟩
    | broker event =>
      obtain ⟨aside,same⟩ := broker_aside taken
      replace same : s'.calls = s.calls := by rw [same]
      refine ⟨?_,?_⟩
      · intro slot r here holds
        exact aside.confirms (remembered slot r (same ▸ here) holds)
      · rintro ⟨slot,r,here,enabled⟩
        exact (guaranteed ⟨slot,r,same ▸ here,enabled⟩).aside aside

/-! ### Acknowledgements -/

/-- The broker has acknowledged what this call of `publish` has sent. -/
def Acknowledged (trace : List (State × Act × State)) (slot : Nat) : Prop :=
  ∃ entry ∈ trace, ∃ link tag ch p, entry.2.1 = .broker (.settle link tag true) ∧
    (entry.1.links link).channel = some ch ∧ ch.published[tag]? = some p ∧ p.call = slot

/-- A positive verdict was given by the broker, to what still stands under its tag. -/
def Told (trace : List (State × Act × State)) (s : State) : Prop :=
  ∀ link ch tag, (s.links link).channel = some ch → (tag,true) ∈ ch.settled →
    ∃ entry ∈ trace, ∃ ch' p, entry.2.1 = .broker (.settle link tag true) ∧
      (entry.1.links link).channel = some ch' ∧ ch'.published[tag]? = some p ∧
      ch.published[tag]? = some p

/-- What a call of `publish` waits for is its own publication, and an acknowledged call has
been acknowledged. -/
def Followed (trace : List (State × Act × State)) (s : State) : Prop :=
  ∀ slot r, s.calls slot = some r →
    (∀ job link tag, r = .publishWait job link tag → ∃ ch p, (s.links link).channel = some ch ∧
      ch.published[tag]? = some p ∧ p.call = slot) ∧
    (r.acked = true → Acknowledged trace slot)

theorem Acknowledged.later {slot : Nat} (acknowledged : Acknowledged trace slot)
    (entry : State × Act × State) : Acknowledged (trace ++ [entry]) slot := by
  obtain ⟨e,member,rest⟩ := acknowledged
  exact ⟨e,List.mem_append_left _ member,rest⟩

theorem published_later {ps ps' : List Publication} (grows : ps <+: ps') {tag : Nat} {p : Publication}
    (there : ps[tag]? = some p) : ps'[tag]? = some p := by
  obtain ⟨rest,rfl⟩ := grows
  rw [List.getElem?_append_left (List.getElem?_eq_some_iff.mp there).1]
  exact there

/-- Only the broker's own verdict is a positive one. -/
theorem Channel.settled_of_verdict {ch : Channel} {tag : Nat} (verdict : ch.verdict tag = some true) :
    (tag,true) ∈ ch.settled := by
  unfold Channel.verdict at verdict
  split at verdict
  · next found =>
    obtain ⟨first,rest,whole,-⟩ := List.lookup_eq_some_iff.mp found
    rw [whole,← Option.some.inj verdict]
    exact List.mem_append_right _ List.mem_cons_self
  · split at verdict <;> contradiction

/-- What a step makes of a channel: its verdicts are the old ones, and the one just given. -/
def Resolves (a : Act) (link : Nat) (l l' : Link) : Prop :=
  ∀ ch' tag, l'.channel = some ch' → (tag,true) ∈ ch'.settled →
    ∃ ch, l.channel = some ch ∧ ch.published <+: ch'.published ∧
      ((tag,true) ∈ ch.settled ∨
        a = .broker (.settle link tag true) ∧ tag < ch.published.length)

theorem Resolves.same (a : Act) (link : Nat) (l : Link) : Resolves a link l l :=
  fun ch _ there settled => ⟨ch,there,List.prefix_refl _,.inl settled⟩

theorem Resolves.shut (a : Act) (link : Nat) (l : Link) (opened : Bool) :
    Resolves a link l ⟨opened,l.channel.map Channel.shut⟩ := by
  intro ch' tag there settled
  obtain ⟨ch,before,rfl⟩ := Option.map_eq_some_iff.mp there
  exact ⟨ch,before,List.prefix_refl _,.inl settled⟩

theorem Resolves.channel (a : Act) (link : Nat) {l : Link} {ch ch' : Channel} (there : l.channel = some ch)
    (grows : ch.published <+: ch'.published)
    (new : ∀ tag, (tag,true) ∈ ch'.settled → (tag,true) ∈ ch.settled ∨
      a = .broker (.settle link tag true) ∧ tag < ch.published.length) :
    Resolves a link l (l.withChannel ch') := by
  intro other tag same settled
  cases same
  exact ⟨ch,there,grows,new tag settled⟩

theorem State.resolves_setLink {a : Act} (s : State) {link : Nat} {l : Link}
    (resolves : Resolves a link (s.links link) l) (other : Nat) :
    Resolves a other (s.links other) ((s.setLink link l).links other) := by
  by_cases same : other = link
  · subst same
    rw [setLink_same]
    exact resolves
  · rw [setLink_other s l same]
    exact .same a other _

theorem step_resolves {a : Act} (taken : step t s a = some s') (link : Nat) :
    Resolves a link (s.links link) (s'.links link) := by
  cases a with
  | keeper choice =>
    cases keeper_move taken with
    | turn => exact .same _ _ _
    | dialed a here =>
      refine s.resolves_setLink ?_ link
      intro ch tag there
      contradiction
    | channel a other here =>
      refine s.resolves_setLink ?_ link
      intro ch tag there settled
      cases there
      contradiction
    | confirmed a other ch here usable =>
      refine s.resolves_setLink ?_ link
      exact .channel _ _ (Link.usable_some usable).2.1 (List.prefix_refl _) fun _ h => .inl h
    | shut other => exact s.resolves_setLink (.shut _ _ _ _) link
    | installed => exact .same _ _ _
    | left => exact .same _ _ _
  | start slot command =>
    obtain ⟨-,-,rfl⟩ := step_start taken
    exact .same _ _ _
  | advance slot choice =>
    obtain ⟨r,-,move⟩ := step_advance taken
    cases move with
    | confirmed other ch current usable =>
      refine s.resolves_setLink ?_ link
      exact .channel _ _ (Link.usable_some usable).2.1 (List.prefix_refl _) fun _ h => .inl h
    | sent job other ch usable =>
      refine s.resolves_setLink ?_ link
      exact .channel _ _ (Link.usable_some usable).2.1 (List.prefix_append _ _) fun _ h => .inl h
    | shutChannel conn channel => exact s.resolves_setLink (.shut _ _ _ _) link
    | shutConn conn => exact s.resolves_setLink (.shut _ _ _ _) link
    | _ => exact .same _ _ _
  | broker event =>
    cases event with
    | broken other =>
      simp only [step,brokerStep] at taken
      split at taken
      · cases taken
        exact s.resolves_setLink (.shut _ _ _ _) link
      · contradiction
    | exception other =>
      obtain ⟨ch,usable,rfl⟩ := Option.map_eq_some_iff.mp taken
      refine s.resolves_setLink ?_ link
      exact .channel _ _ (Link.usable_some usable).2.1 (List.prefix_refl _) fun _ h => .inl h
    | settle other tag acked =>
      obtain ⟨ch,usable,rest⟩ := Option.bind_eq_some_iff.mp taken
      split at rest
      · next open_ =>
        cases rest
        by_cases same : link = other
        · subst same
          rw [State.setLink_same]
          refine .channel _ _ (Link.usable_some usable).2.1 (List.prefix_refl _) ?_
          intro tag' settled
          rcases List.mem_cons.mp settled with new | old
          · cases new
            exact .inr ⟨rfl,open_.1⟩
          · exact .inl old
        · rw [s.setLink_other _ same]
          exact .same _ _ _
      · contradiction

theorem Told.step {a : Act} (told : Told trace s) (taken : step t s a = some s') :
    Told (trace ++ [(s,a,s')]) s' := by
  intro link ch' tag there settled
  obtain ⟨ch,before,grows,old | ⟨rfl,bound⟩⟩ := step_resolves taken link ch' tag there settled
  · obtain ⟨entry,member,ch₀,p,acts,stood,first,now⟩ := told link ch tag before old
    exact ⟨entry,List.mem_append_left _ member,ch₀,p,acts,stood,first,
      published_later grows now⟩
  · have now : ch.published[tag]? = some ch.published[tag] := List.getElem?_eq_getElem bound
    exact ⟨_,List.mem_append_right _ List.mem_cons_self,ch,ch.published[tag],rfl,before,now,
      published_later grows now⟩

/-- A channel that exists stays, with all it has published. -/
theorem step_keeps {a : Act} (sound : Sound s) (taken : step t s a = some s') {link : Nat} {ch : Channel}
    (there : (s.links link).channel = some ch) :
    ∃ ch', (s'.links link).channel = some ch' ∧ ch.published <+: ch'.published := by
  suffices later : ∀ ch, (s.links link).channel = some ch → ∃ ch', (s'.links link).channel = some ch' ∧
      ch.Later ch' by
    obtain ⟨ch',there',grown⟩ := later ch there
    exact ⟨ch',there',grown.published⟩
  cases a with
  | keeper choice =>
    cases keeper_move taken with
    | turn => exact fun ch there => ⟨ch,there,.refl ch⟩
    | dialed a here =>
      intro ch there
      have known : link ≠ s.dialed := fun same => by
        rw [same,sound.fresh _ (Nat.le_refl _)] at there
        contradiction
      exact ⟨ch,by rw [show State.links _ link = s.links link from s.setLink_other _ known]; exact there,.refl ch⟩
    | channel a other here =>
      intro ch there
      have known : link ≠ other := fun same => by
        rw [same,sound.bare a other here] at there
        contradiction
      exact ⟨ch,by rw [show State.links _ link = s.links link from s.setLink_other _ known]; exact there,.refl ch⟩
    | confirmed a other ch here usable =>
      exact (s.later_setLink (Link.later_channel (Link.usable_some usable).2.1 ch.later_confirm) link).channel
    | shut other => exact (s.later_setLink (Link.later_shut _) link).channel
    | installed => exact fun ch there => ⟨ch,there,.refl ch⟩
    | left => exact fun ch there => ⟨ch,there,.refl ch⟩
  | start slot command =>
    obtain ⟨-,-,rfl⟩ := step_start taken
    exact fun ch there => ⟨ch,there,.refl ch⟩
  | advance slot choice =>
    obtain ⟨r,-,move⟩ := step_advance taken
    exact (move.aside.links link).channel
  | broker event => exact ((broker_aside taken).1.links link).channel

theorem Followed.step {a : Act} (followed : Followed trace s) (told : Told trace s) (sound : Sound s)
    (taken : step t s a = some s') : Followed (trace ++ [(s,a,s')]) s' := by
  -- what the step does not touch stays followed
  have old : ∀ i u, s.calls i = some u →
      (∀ job link tag, u = .publishWait job link tag → ∃ ch p, (s'.links link).channel = some ch ∧
        ch.published[tag]? = some p ∧ p.call = i) ∧
      (u.acked = true → Acknowledged (trace ++ [(s,a,s')]) i) := by
    intro i u here
    obtain ⟨waits,acked⟩ := followed i u here
    refine ⟨?_,fun done => (acked done).later _⟩
    intro job link tag waiting
    obtain ⟨ch,p,there,stands,own⟩ := waits job link tag waiting
    obtain ⟨ch',there',grows⟩ := step_keeps sound taken there
    exact ⟨ch',p,there',published_later grows stands,own⟩
  cases a with
  | keeper choice =>
    have same : s'.calls = s.calls := by cases keeper_move taken <;> rfl
    exact fun i u here => old i u (same ▸ here)
  | broker event =>
    have same : s'.calls = s.calls := by rw [(broker_aside taken).2]
    exact fun i u here => old i u (same ▸ here)
  | start slot command =>
    obtain ⟨-,-,rfl⟩ := step_start taken
    intro i u here
    rcases State.calls_setCall here with ⟨rfl,rfl⟩ | ⟨-,here⟩
    · obtain ⟨-,-,unacked,-,waits⟩ := begun_plain command
      exact ⟨fun job link tag equal => absurd equal (waits job link tag),fun acked => by
        rw [unacked] at acked
        contradiction⟩
    · exact old i u here
  | advance slot choice =>
    obtain ⟨r,running,move⟩ := step_advance taken
    intro i u here
    by_cases other : i ≠ slot
    · exact old i u ((move.others other).symm.trans here)
    obtain rfl : i = slot := not_not.mp other
    cases move with
    | pass _ pass =>
      cases (State.setCall_same _ _ _).symm.trans here
      refine ⟨fun job link tag equal => absurd equal (pass.waits job link tag),fun acked => ?_⟩
      obtain ⟨job,link,tag,ch,rfl,there,verdict⟩ := pass.acked acked
      obtain ⟨ch',p,there',stands,own⟩ := (followed i _ running).1 job link tag rfl
      cases there.symm.trans there'
      obtain ⟨entry,member,ch₀,p',acts,stood,first,now⟩ :=
        told link ch tag there (Channel.settled_of_verdict verdict)
      cases stands.symm.trans now
      exact ⟨entry,List.mem_append_left _ member,link,tag,ch₀,p,acts,stood,first,own⟩
    | sent job link ch usable =>
      cases (State.setCall_same _ _ _).symm.trans here
      refine ⟨?_,fun acked => by contradiction⟩
      rintro job' link' tag equal
      cases equal
      refine ⟨ch.publish ⟨i,t.exchange,job.routingKey,job.message⟩,_,?_,List.getElem?_concat_length,rfl⟩
      simp [State.setCall,State.setLink,Link.withChannel]
    | returned job result =>
      cases (State.setCall_same _ _ _).symm.trans here
      refine ⟨by simp,fun acked => (old i _ running).2 ?_⟩
      rcases result with err | _
      · contradiction
      · rfl
    | _ =>
      cases (State.setCall_same _ _ _).symm.trans here
      exact ⟨by simp,fun acked => by contradiction⟩

theorem Run.followed (run : Run t trace s) : Told trace s ∧ Followed trace s := by
  induction run with
  | nil =>
    refine ⟨?_,?_⟩
    · intro link ch tag there
      contradiction
    · intro slot r here
      contradiction
  | snoc before taken ih => exact ⟨ih.1.step taken,ih.2.step ih.1 (Run.sound before) taken⟩

/-- In every state after `NewPublisher` has returned a publisher, the service channel is in
confirm mode or its connection is broken; and `publish` returns without an error only when
the broker has acknowledged what it sent. -/
theorem publishing_confirmed (run : Run t trace s) :
    ((∃ slot, s.calls slot = some (.done (.publisher (.ok ())))) →
      ∃ link, s.channel = some link ∧ ((s.links link).opened = false ∨
        ∃ ch, (s.links link).channel = some ch ∧ ch.confirming = true)) ∧
    ∀ slot, s.calls slot = some (.done (.published (.ok ()))) → Acknowledged trace slot := by
  constructor
  · rintro ⟨slot,here⟩
    have guaranteed := run.guaranteed.2 ⟨slot,_,here,rfl⟩
    obtain ⟨link,conn⟩ := guaranteed.installed
    refine ⟨link,run.sound.pair.trans conn,?_⟩
    cases opened : (s.links link).opened with
    | false => exact .inl rfl
    | true => exact .inr (guaranteed.current link conn opened)
  · exact fun slot here => (run.followed.2 slot _ here).2 rfl

/-! ### A run with a reconnect -/

namespace Schedule

def oks (slot n : Nat) : List Act := List.replicate n (.advance slot .ok)

/-- `open` without confirmations to restore, up to the point where the keeper watches. -/
def connect : List Act := List.replicate 6 (.keeper .ok)

def makePublisher (slot : Nat) : List Act := .start slot .newPublisher :: oks slot 3

/-- The installed connection breaks; the second attempt to connect succeeds. -/
def restore (link : Nat) : List Act :=
  [.broker (.broken link),.keeper .notify,.keeper .ok,.keeper .timer,.keeper (.fail errClosed),
    .keeper .timer] ++ List.replicate 7 (.keeper .ok)

def publish (slot publisher link tag : Nat) : List Act :=
  .start slot (.publish publisher ⟨none,none,none⟩ routingUploaded UUID.nil.string (lit "{}")) ::
    oks slot 3 ++ .broker (.settle link tag true) :: oks slot 2

def hasPublisher (slot : Nat) (s : State) : Bool :=
  match s.calls slot with
  | some (.done (.publisher (.ok ()))) => true
  | _ => false

def hasPublished (slot : Nat) (s : State) : Bool :=
  match s.calls slot with
  | some (.done (.published (.ok ()))) => true
  | _ => false

theorem hasPublisher_iff {slot : Nat} : hasPublisher slot s = true ↔
    s.calls slot = some (.done (.publisher (.ok ()))) := by
  unfold hasPublisher
  split
  · next here => simp [here]
  · next other => exact ⟨fun absurd => by contradiction,fun here => absurd here other⟩

theorem hasPublished_iff {slot : Nat} : hasPublished slot s = true ↔
    s.calls slot = some (.done (.published (.ok ()))) := by
  unfold hasPublished
  split
  · next here => simp [here]
  · next other => exact ⟨fun absurd => by contradiction,fun here => absurd here other⟩

/-- A list of actions that goes through and ends where a test is met. -/
theorem run (actions : List Act) (test : State → Bool)
    (met : (execute (guarded (fun _ _ => True) (step (newTopology .standard))) .initial actions).any test =
      true) :
    ∃ trace s, Run (newTopology .standard) trace s ∧ test s = true := by
  obtain ⟨trace,s,path,-,met,-⟩ := exists_path _ (fun _ _ => True) _ actions test met
  exact ⟨trace,s,path,met⟩

end Schedule

/-- A publication on the second connection. -/
theorem publishing_confirmed_again : ∃ trace s link,
    Run (newTopology .standard) trace s ∧ s.channel = some link ∧
      ((s.links link).opened = false ∨
        ∃ ch, (s.links link).channel = some ch ∧ ch.confirming = true) ∧
      Acknowledged trace 1 := by
  obtain ⟨trace,s,run,met⟩ := Schedule.run
    (Schedule.connect ++ Schedule.makePublisher 0 ++ Schedule.restore 0 ++ Schedule.publish 1 0 1 0)
    (fun s => Schedule.hasPublisher 0 s && Schedule.hasPublished 1 s) (by decide +kernel)
  rw [Bool.and_eq_true] at met
  obtain ⟨current,acknowledged⟩ := publishing_confirmed run
  obtain ⟨link,channel,confirms⟩ := current ⟨0,Schedule.hasPublisher_iff.mp met.1⟩
  exact ⟨trace,s,link,run,channel,confirms,acknowledged 1 (Schedule.hasPublished_iff.mp met.2)⟩

end GophProfile.RabbitMQ.Connection
