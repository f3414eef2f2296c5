import GophProfile.Connection

/-! What the keeper, the callers and the broker each do to a connection, and what holds of it
in every state: at most one connection of the library is alive, the installed one or the one
in the keeper's hands. -/
namespace GophProfile.RabbitMQ.Connection

open Transition

/-! ### How links change -/

/-- A channel only gains: publications, verdicts, the confirm mode. -/
structure Channel.Later (ch ch' : Channel) : Prop where
  confirming : ch.confirming = true → ch'.confirming = true
  published : ch.published <+: ch'.published
  settled : ∀ entry ∈ ch.settled, entry ∈ ch'.settled

theorem Channel.Later.refl (ch : Channel) : ch.Later ch :=
  ⟨fun h => h,List.prefix_refl _,fun _ h => h⟩

structure Link.Later (l l' : Link) : Prop where
  opened : l'.opened = true → l.opened = true
  bare : l.channel = none → l'.channel = none
  channel : ∀ ch, l.channel = some ch → ∃ ch', l'.channel = some ch' ∧ ch.Later ch'

namespace Link

theorem Later.refl (l : Link) : l.Later l := ⟨fun h => h,fun h => h,fun ch h => ⟨ch,h,.refl ch⟩⟩

theorem usable_some {l : Link} {ch : Channel} (usable : l.usable = some ch) :
    l.opened = true ∧ l.channel = some ch ∧ ch.opened = true := by
  unfold Link.usable at usable
  split at usable
  · next opened => exact ⟨opened,Option.filter_eq_some_iff.mp usable⟩
  · contradiction

theorem later_channel {l : Link} {ch ch' : Channel} (there : l.channel = some ch) (later : ch.Later ch') :
    l.Later (l.withChannel ch') := by
  refine ⟨fun h => h,fun bare => by rw [there] at bare; contradiction,?_⟩
  intro other same
  cases there.symm.trans same
  exact ⟨ch',rfl,later⟩

theorem later_shut (l : Link) : l.Later l.shut := by
  refine ⟨fun opened => by contradiction,fun bare => by simp [shut,bare],?_⟩
  intro ch there
  exact ⟨ch.shut,by simp [shut,there],fun h => h,List.prefix_refl _,fun _ h => h⟩

theorem later_shutChannel (l : Link) : l.Later { l with channel := l.channel.map Channel.shut } := by
  refine ⟨fun opened => opened,fun bare => by simp [bare],?_⟩
  intro ch there
  exact ⟨ch.shut,by simp [there],fun h => h,List.prefix_refl _,fun _ h => h⟩

end Link

theorem Channel.later_confirm (ch : Channel) : ch.Later ch.confirm :=
  ⟨fun _ => rfl,List.prefix_refl _,fun _ h => h⟩

theorem Channel.later_publish (ch : Channel) (p : Publication) : ch.Later (ch.publish p) :=
  ⟨fun h => h,List.prefix_append _ _,fun _ h => h⟩

theorem Channel.later_settle (ch : Channel) (tag : Nat) (acked : Bool) : ch.Later (ch.settle tag acked) :=
  ⟨fun h => h,List.prefix_refl _,fun _ h => List.mem_cons_of_mem _ h⟩

theorem Channel.later_shut (ch : Channel) : ch.Later ch.shut :=
  ⟨fun h => h,List.prefix_refl _,fun _ h => h⟩

namespace State

@[simp] theorem setLink_same (s : State) (link : Nat) (l : Link) : (s.setLink link l).links link = l := by
  simp [setLink]

theorem setLink_other (s : State) {link other : Nat} (l : Link) (different : other ≠ link) :
    (s.setLink link l).links other = s.links other := by simp [setLink,different]

theorem later_setLink (s : State) {link : Nat} {l : Link} (later : (s.links link).Later l) (other : Nat) :
    (s.links other).Later ((s.setLink link l).links other) := by
  by_cases same : other = link
  · subst same
    rw [setLink_same]
    exact later
  · rw [setLink_other s l same]
    exact .refl _

@[simp] theorem setCall_same (s : State) (slot : Nat) (r : Routine) :
    (s.setCall slot r).calls slot = some r := by simp [setCall]

theorem calls_setCall {s : State} {slot i : Nat} {r u : Routine}
    (running : (s.setCall slot r).calls i = some u) : (i = slot ∧ u = r) ∨ (i ≠ slot ∧ s.calls i = some u) := by
  by_cases same : i = slot
  · subst same
    rw [setCall_same] at running
    exact .inl ⟨rfl,(Option.some.inj running).symm⟩
  · exact .inr ⟨same,by simpa [setCall,same] using running⟩

end State

/-! ### The keeper -/

namespace Keeper

/-- The connection in the keeper's hands. -/
def link : Keeper → Option Nat
  | .openChannel _ link | .declare _ link | .readConfirms _ link | .confirm _ link
  | .abandon _ link _ | .opened _ link | .discard link => some link
  | _ => none

/-- `Connect` has not returned. -/
def connecting : Keeper → Bool
  | .dial a | .openChannel a _ | .declare a _ | .readConfirms a _ | .confirm a _ | .abandon a _ _
  | .opened a _ | .pause a => !a.recovering
  | .failed _ => true
  | _ => false

/-- The installed connection has been found broken. -/
def recovering : Keeper → Bool
  | .dial a | .openChannel a _ | .declare a _ | .readConfirms a _ | .confirm a _ | .abandon a _ _
  | .opened a _ | .pause a => a.recovering
  | .noticed | .discard _ => true
  | _ => false

end Keeper

/-- What the keeper finds when it goes on to a point without touching anything. -/
structure Turn (s : State) (k : Keeper) : Prop where
  link : k.link = s.keeper.link
  connecting : k.connecting = s.keeper.connecting
  recovering : k.recovering = true → s.keeper.recovering = true ∨
    ∃ link, s.keeper = .watching link ∧ (s.links link).opened = false
  watching : ∀ link, k = .watching link → s.conn = some link
  running : s.keeper ≠ .ended ∧ k ≠ .ended
  bare : ∀ a link, k ≠ .openChannel a link
  opened : ∀ a link, k = .opened a link → s.keeper = .readConfirms a link ∧ s.confirms = false

inductive KeeperMove (s : State) : State → Prop where
  | turn (k : Keeper) (turn : Turn s k) : KeeperMove s { s with keeper := k }
  | dialed (a : Attempt) (here : s.keeper = .dial a) :
      KeeperMove s { s.setLink s.dialed .dialed with
        dialed := s.dialed + 1, keeper := .openChannel a s.dialed }
  | channel (a : Attempt) (link : Nat) (here : s.keeper = .openChannel a link) :
      KeeperMove s { s.setLink link ((s.links link).withChannel .fresh) with keeper := .declare a link }
  | confirmed (a : Attempt) (link : Nat) (ch : Channel) (here : s.keeper = .confirm a link)
      (usable : (s.links link).usable = some ch) :
      KeeperMove s { s.setLink link ((s.links link).withChannel ch.confirm) with
        keeper := .opened a link }
  | shut (link : Nat) (k : Keeper) (here : s.keeper.link = some link)
      (next : (∃ a, k = .pause a ∧ a.recovering = s.keeper.recovering) ∨ k = .leaving)
      (connecting : k.connecting = s.keeper.connecting) :
      KeeperMove s { s.setLink link (s.links link).shut with keeper := k }
  | installed (a : Attempt) (link : Nat) (here : s.keeper = .opened a link)
      (unclosed : a.recovering = true → s.closed = false ∧ s.locked = false) :
      KeeperMove s { s with conn := some link, channel := some link, keeper := .watch }
  | left (here : s.keeper = .leaving) : KeeperMove s { s with done := true, keeper := .ended }

theorem openFailed_attempt (a : Attempt) (err : Err) :
    ∃ a', openFailed a err = .pause a' ∧ a'.recovering = a.recovering := by
  cases recovering : a.recovering with
  | true => exact ⟨a.next,by simp [openFailed,recovering],recovering⟩
  | false => exact ⟨{ a with err := some err },by simp [openFailed,recovering],recovering⟩

/-- A turn within one loop, to a point that is neither watching nor at an open connection. -/
theorem Turn.within {s : State} {k : Keeper} (link : k.link = s.keeper.link)
    (connecting : k.connecting = s.keeper.connecting)
    (recovering : k.recovering = true → s.keeper.recovering = true) (running : s.keeper ≠ .ended)
    (other : (∀ link, k ≠ .watching link) ∧ (∀ a link, k ≠ .openChannel a link) ∧
      (∀ a link, k ≠ .opened a link) ∧ k ≠ .ended) : Turn s k where
  link := link
  connecting := connecting
  recovering := fun again => .inl (recovering again)
  watching := fun link equal => absurd equal (other.1 link)
  running := ⟨running,other.2.2.2⟩
  bare := other.2.1
  opened := fun a link equal => absurd equal (other.2.2.1 a link)

theorem keeper_move {s s' : State} {choice : Choice} (taken : keeperStep s choice = some s') :
    KeeperMove s s' := by
  cases here : s.keeper with
  | dial a =>
    cases choice <;> simp only [keeperStep,here,reduceCtorEq,Option.some.injEq] at taken
    case ok => exact taken ▸ .dialed a here
    case fail err =>
      obtain ⟨a',paused,same⟩ := openFailed_attempt a (.errorf "dial: %w" [] err)
      refine taken ▸ .turn _ (.within ?_ ?_ ?_ ?_ ?_) <;>
        simp [paused,here,Keeper.link,Keeper.connecting,Keeper.recovering,same]
  | openChannel a link =>
    cases choice <;> simp only [keeperStep,here,reduceCtorEq,Option.some.injEq] at taken
    case ok =>
      split at taken
      · exact Option.some.inj taken ▸ .channel a link here
      · contradiction
    case fail err =>
      refine taken ▸ .turn _ (.within ?_ ?_ ?_ ?_ ?_) <;>
        simp [here,Keeper.link,Keeper.connecting,Keeper.recovering]
  | declare a link =>
    cases choice <;> simp only [keeperStep,here,reduceCtorEq,Option.some.injEq] at taken
    case ok =>
      split at taken
      · refine Option.some.inj taken ▸ .turn _ (.within ?_ ?_ ?_ ?_ ?_) <;>
          simp [here,Keeper.link,Keeper.connecting,Keeper.recovering]
      · contradiction
    case fail err =>
      refine taken ▸ .turn _ (.within ?_ ?_ ?_ ?_ ?_) <;>
        simp [here,Keeper.link,Keeper.connecting,Keeper.recovering]
  | readConfirms a link =>
    cases choice <;> simp only [keeperStep,here,reduceCtorEq] at taken
    split at taken
    · contradiction
    · cases taken
      apply KeeperMove.turn
      split
      · refine .within ?_ ?_ ?_ ?_ ?_ <;>
          simp [here,Keeper.link,Keeper.connecting,Keeper.recovering]
      · next off =>
        refine ⟨?_,?_,?_,?_,?_,?_,?_⟩ <;>
          simp [here,Keeper.link,Keeper.connecting,Keeper.recovering,off]
  | confirm a link =>
    cases choice <;> simp only [keeperStep,here,reduceCtorEq,Option.some.injEq] at taken
    case ok =>
      split at taken
      · next ch usable => exact Option.some.inj taken ▸ .confirmed a link ch here usable
      · contradiction
    case fail err =>
      refine taken ▸ .turn _ (.within ?_ ?_ ?_ ?_ ?_) <;>
        simp [here,Keeper.link,Keeper.connecting,Keeper.recovering]
  | abandon a link err =>
    cases choice <;> simp only [keeperStep,here,reduceCtorEq,Option.some.injEq] at taken
    obtain ⟨a',paused,same⟩ := openFailed_attempt a err
    rw [paused] at taken
    refine taken ▸ .shut link _ (by rw [here]; rfl) (.inl ⟨a',rfl,?_⟩) ?_ <;>
      simp [here,Keeper.connecting,Keeper.recovering,same]
  | opened a link =>
    cases choice <;> simp only [keeperStep,here,reduceCtorEq] at taken
    split at taken
    · next recovering =>
      split at taken
      · contradiction
      · next free =>
        split at taken
        · cases taken
          refine .turn _ (.within ?_ ?_ ?_ ?_ ?_) <;>
            simp [here,Keeper.link,Keeper.connecting,Keeper.recovering,recovering]
        · next unclosed =>
          cases taken
          exact .installed a link here fun _ => ⟨by simpa using unclosed,by simpa using free⟩
    · next first =>
      cases taken
      exact .installed a link here fun recovering => absurd recovering first
  | pause a =>
    cases choice <;> simp only [keeperStep,here,reduceCtorEq,Option.some.injEq] at taken
    case timer =>
      cases recovering : a.recovering with
      | true =>
        simp only [recovering,↓reduceIte] at taken
        refine taken ▸ .turn _ (.within ?_ ?_ ?_ ?_ ?_) <;>
          simp [here,Keeper.link,Keeper.connecting,Keeper.recovering,recovering]
      | false =>
        simp only [recovering,Bool.false_eq_true,↓reduceIte] at taken
        split at taken
        · refine taken ▸ .turn _ (.within ?_ ?_ ?_ ?_ ?_) <;>
            simp [here,Keeper.link,Keeper.connecting,Keeper.recovering,Attempt.next,recovering]
        · refine taken ▸ .turn _ (.within ?_ ?_ ?_ ?_ ?_) <;>
            simp [here,Keeper.link,Keeper.connecting,Keeper.recovering,recovering]
    case fail err =>
      split at taken
      · contradiction
      · next first =>
        refine Option.some.inj taken ▸ .turn _ (.within ?_ ?_ ?_ ?_ ?_) <;>
          simp [here,Keeper.link,Keeper.connecting,Keeper.recovering,first]
    case stop =>
      split at taken
      · next both =>
        refine Option.some.inj taken ▸ .turn _ (.within ?_ ?_ ?_ ?_ ?_) <;>
          simp [here,Keeper.link,Keeper.connecting,Keeper.recovering,both.1]
      · contradiction
  | failed err => cases choice <;> simp [keeperStep,here] at taken
  | watch =>
    cases choice <;> simp only [keeperStep,here,reduceCtorEq] at taken
    split at taken
    · contradiction
    · obtain ⟨link,conn,rfl⟩ := Option.map_eq_some_iff.mp taken
      refine .turn _ ⟨?_,?_,?_,?_,?_,?_,?_⟩ <;>
        simp [here,Keeper.link,Keeper.connecting,Keeper.recovering,conn]
  | watching link =>
    cases choice <;> simp only [keeperStep,here,reduceCtorEq] at taken
    case stop =>
      split at taken
      · refine Option.some.inj taken ▸ .turn _ (.within ?_ ?_ ?_ ?_ ?_) <;>
          simp [here,Keeper.link,Keeper.connecting,Keeper.recovering]
      · contradiction
    case notify =>
      split at taken
      · contradiction
      · next broken =>
        refine Option.some.inj taken ▸ .turn _ ⟨?_,?_,?_,?_,?_,?_,?_⟩ <;>
          simp [here,Keeper.link,Keeper.connecting,Keeper.recovering,broken]
  | noticed =>
    cases choice <;> simp only [keeperStep,here,reduceCtorEq,Option.some.injEq] at taken
    split at taken
    · refine taken ▸ .turn _ (.within ?_ ?_ ?_ ?_ ?_) <;>
        simp [here,Keeper.link,Keeper.connecting,Keeper.recovering]
    · refine taken ▸ .turn _ (.within ?_ ?_ ?_ ?_ ?_) <;>
        simp [here,Keeper.link,Keeper.connecting,Keeper.recovering]
  | discard link =>
    cases choice <;> simp only [keeperStep,here,reduceCtorEq,Option.some.injEq] at taken
    refine taken ▸ .shut link _ (by rw [here]; rfl) (.inr rfl) ?_
    simp [here,Keeper.connecting]
  | leaving =>
    cases choice <;> simp only [keeperStep,here,reduceCtorEq,Option.some.injEq] at taken
    exact taken ▸ .left here
  | ended => cases choice <;> simp [keeperStep,here] at taken

/-! ### The callers -/

namespace Routine

/-- `enableConfirms` is past its lock. -/
def holdsLock : Routine → Bool
  | .confirm | .unlockConfirms _ => true
  | _ => false

/-- The channel has been put into confirm mode. -/
def enabled : Routine → Bool
  | .unlockConfirms (.ok ()) | .done (.publisher (.ok ())) => true
  | _ => false

/-- The publication has been acknowledged. -/
def acked : Routine → Bool
  | .unlockPublisher _ (.ok ()) | .done (.published (.ok ())) => true
  | _ => false

/-- The call has closed the connection and waits for the keeper, or is past that. -/
def closing : Routine → Bool
  | .closeWait _ _ | .closeChannel _ _ | .closeConn _ | .done (.closed _) => true
  | _ => false

end Routine

/-- What a call finds when it goes on without touching anything. -/
structure Pass (s : State) (r r' : Routine) : Prop where
  holdsLock : r'.holdsLock = r.holdsLock
  enabled : r'.enabled = false
  acked : r'.acked = true → ∃ job link tag ch, r = .publishWait job link tag ∧
    (s.links link).channel = some ch ∧ ch.verdict tag = some true
  waits : ∀ job link tag, r' ≠ .publishWait job link tag
  closing : r'.closing = true → ∃ conn channel, r = .closeWait conn channel ∧ s.done = true ∧
    r' = .closeChannel conn channel

/-- A pass to a point that is none of the special ones. -/
theorem Pass.plain {s : State} {r r' : Routine} (holdsLock : r'.holdsLock = r.holdsLock)
    (other : r'.enabled = false ∧ r'.acked = false ∧ r'.closing = false)
    (waits : ∀ job link tag, r' ≠ .publishWait job link tag) : Pass s r r' where
  holdsLock := holdsLock
  enabled := other.1
  acked := fun acked => by rw [other.2.1] at acked; contradiction
  waits := waits
  closing := fun closing => by rw [other.2.2] at closing; contradiction

inductive CallMove (t : Topology) (s : State) (slot : Nat) : Routine → State → Prop where
  | pass {r : Routine} (r' : Routine) (pass : Pass s r r') : CallMove t s slot r (s.setCall slot r')
  | locked (free : s.locked = false) :
      CallMove t s slot .newPublisher ({ s with locked := true, confirms := true }.setCall slot .confirm)
  | confirmed (link : Nat) (ch : Channel) (current : s.channel = some link)
      (usable : (s.links link).usable = some ch) :
      CallMove t s slot .confirm ((s.setLink link ((s.links link).withChannel ch.confirm)).setCall slot
        (.unlockConfirms (.ok ())))
  | unlocked (result : Except Err Unit) :
      CallMove t s slot (.unlockConfirms result)
        ({ s with locked := false }.setCall slot (.done (.publisher result)))
  | borrowed (job : Job) (busy : Nat → Bool) :
      CallMove t s slot (.publish job) ({ s with busy := busy }.setCall slot (.publishChannel job))
  | returned (job : Job) (result : Except Err Unit) (busy : Nat → Bool) :
      CallMove t s slot (.unlockPublisher job result)
        ({ s with busy := busy }.setCall slot (.done (.published result)))
  | sent (job : Job) (link : Nat) (ch : Channel) (usable : (s.links link).usable = some ch)
      (confirming : ch.confirming = true) :
      CallMove t s slot (.publishSend job link)
        ((s.setLink link ((s.links link).withChannel
          (ch.publish ⟨slot,t.exchange,job.routingKey,job.message⟩))).setCall slot
            (.publishWait job link ch.published.length))
  | closing (conn channel : Nat) (unclosed : s.closed = false) (installed : s.conn = some conn)
      (current : s.channel = some channel) :
      CallMove t s slot .close
        ({ s with closed := true, stop := true }.setCall slot (.closeWait conn channel))
  | shutChannel (conn channel : Nat) :
      CallMove t s slot (.closeChannel conn channel)
        ((s.setLink channel { s.links channel with
          channel := (s.links channel).channel.map Channel.shut }).setCall slot (.closeConn conn))
  | shutConn (conn : Nat) (result : Except Err Unit) :
      CallMove t s slot (.closeConn conn)
        ((s.setLink conn (s.links conn).shut).setCall slot (.done (.closed result)))

theorem call_move {t : Topology} {s s' : State} {slot : Nat} {r : Routine} {choice : Choice}
    (taken : callStep t s slot r choice = some s') : CallMove t s slot r s' := by
  cases r with
  | newPublisher =>
    cases choice <;> simp only [callStep,reduceCtorEq] at taken
    split at taken
    · contradiction
    · next free => exact Option.some.inj taken ▸ .locked (by simpa using free)
  | confirm =>
    cases choice <;> simp only [callStep,reduceCtorEq,Option.some.injEq] at taken
    case ok =>
      obtain ⟨link,current,answered⟩ := Option.bind_eq_some_iff.mp taken
      obtain ⟨ch,usable,rfl⟩ := Option.map_eq_some_iff.mp answered
      exact .confirmed link ch current usable
    case fail err => exact taken ▸ .pass _ (.plain rfl ⟨rfl,rfl,rfl⟩ (by simp))
  | unlockConfirms result =>
    cases choice <;> simp only [callStep,reduceCtorEq,Option.some.injEq] at taken
    exact taken ▸ .unlocked result
  | publish job =>
    cases choice <;> simp only [callStep,reduceCtorEq] at taken
    split at taken
    · contradiction
    · exact Option.some.inj taken ▸ .borrowed job _
  | publishChannel job =>
    cases choice <;> simp only [callStep,reduceCtorEq] at taken
    split at taken
    · contradiction
    · obtain ⟨link,-,rfl⟩ := Option.map_eq_some_iff.mp taken
      exact .pass _ (.plain rfl ⟨rfl,rfl,rfl⟩ (by simp))
  | publishSend job link =>
    cases choice <;> simp only [callStep,reduceCtorEq,Option.some.injEq] at taken
    case ok =>
      obtain ⟨ch,usable,equal⟩ := Option.map_eq_some_iff.mp taken
      cases confirming : ch.confirming with
      | true =>
        rw [if_pos confirming] at equal
        exact equal ▸ .sent job link ch usable confirming
      | false =>
        rw [if_neg (by simp [confirming])] at equal
        exact equal ▸ .pass _ (.plain rfl ⟨rfl,rfl,rfl⟩ (by simp))
    case fail err => exact taken ▸ .pass _ (.plain rfl ⟨rfl,rfl,rfl⟩ (by simp))
  | publishWait job link tag =>
    cases choice <;> simp only [callStep,reduceCtorEq,Option.some.injEq] at taken
    case ok =>
      obtain ⟨acked,resolved,rfl⟩ := Option.map_eq_some_iff.mp taken
      obtain ⟨ch,there,verdict⟩ := Option.bind_eq_some_iff.mp resolved
      cases acked with
      | true =>
        exact .pass _ ⟨rfl,rfl,fun _ => ⟨job,link,tag,ch,rfl,there,verdict⟩,by simp,
          fun closing => by contradiction⟩
      | false => exact .pass _ (.plain rfl ⟨rfl,rfl,rfl⟩ (by simp))
    case fail err => exact taken ▸ .pass _ (.plain rfl ⟨rfl,rfl,rfl⟩ (by simp))
  | unlockPublisher job result =>
    cases choice <;> simp only [callStep,reduceCtorEq,Option.some.injEq] at taken
    exact taken ▸ .returned job result _
  | close =>
    cases choice <;> simp only [callStep,reduceCtorEq] at taken
    split at taken
    · contradiction
    · split at taken
      · exact Option.some.inj taken ▸ .pass _ (.plain rfl ⟨rfl,rfl,rfl⟩ (by simp))
      · next unclosed =>
        obtain ⟨conn,installed,rest⟩ := Option.bind_eq_some_iff.mp taken
        obtain ⟨channel,current,rfl⟩ := Option.map_eq_some_iff.mp rest
        exact .closing conn channel (by simpa using unclosed) installed current
  | closeWait conn channel =>
    cases choice <;> simp only [callStep,reduceCtorEq] at taken
    split at taken
    · next done =>
      exact Option.some.inj taken ▸ .pass _ ⟨rfl,rfl,fun acked => by contradiction,by simp,
        fun _ => ⟨conn,channel,rfl,done,rfl⟩⟩
    · contradiction
  | closeChannel conn channel =>
    cases choice <;> exact Option.some.inj taken ▸ .shutChannel conn channel
  | closeConn conn => cases choice <;> exact Option.some.inj taken ▸ .shutConn conn _
  | openChannel =>
    cases choice <;> simp only [callStep,reduceCtorEq] at taken
    split at taken
    · contradiction
    · split at taken
      · exact Option.some.inj taken ▸ .pass _ (.plain rfl ⟨rfl,rfl,rfl⟩ (by simp))
      · obtain ⟨conn,-,rfl⟩ := Option.map_eq_some_iff.mp taken
        exact .pass _ (.plain rfl ⟨rfl,rfl,rfl⟩ (by simp))
  | openChannelOn conn =>
    cases choice <;> simp only [callStep,reduceCtorEq,Option.some.injEq] at taken
    case ok =>
      split at taken
      · exact Option.some.inj taken ▸ .pass _ (.plain rfl ⟨rfl,rfl,rfl⟩ (by simp))
      · contradiction
    case fail err => exact taken ▸ .pass _ (.plain rfl ⟨rfl,rfl,rfl⟩ (by simp))
  | check =>
    cases choice <;> simp only [callStep,reduceCtorEq] at taken
    split at taken
    · contradiction
    · exact Option.some.inj taken ▸ .pass _ (.plain rfl ⟨rfl,rfl,rfl⟩ (by simp))
  | done reply => cases choice <;> simp [callStep] at taken

/-- What a call becomes when it goes on. -/
theorem CallMove.next {t : Topology} {s s' : State} {slot : Nat} {r : Routine}
    (move : CallMove t s slot r s') : ∃ r', s'.calls = Function.update s.calls slot (some r') := by
  cases move <;> exact ⟨_,rfl⟩

theorem CallMove.others {t : Topology} {s s' : State} {slot other : Nat} {r : Routine}
    (move : CallMove t s slot r s') (different : other ≠ slot) : s'.calls other = s.calls other := by
  obtain ⟨r',calls⟩ := move.next
  rw [calls,Function.update_of_ne different]

/-! ### What always holds -/

/-- What a step of anybody but the keeper leaves alone. -/
structure Aside (s s' : State) : Prop where
  keeper : s'.keeper = s.keeper
  conn : s'.conn = s.conn
  channel : s'.channel = s.channel
  dialed : s'.dialed = s.dialed
  done : s'.done = s.done
  links : ∀ link, (s.links link).Later (s'.links link)
  fresh : ∀ link, s.links link = .undialed → s'.links link = .undialed
  closed : s.closed = true → s'.closed = true
  confirms : s.confirms = true → s'.confirms = true

theorem Link.undialed_usable : Link.undialed.usable = none := rfl

theorem State.fresh_setLink (s : State) {link : Nat} {l : Link} (unused : s.links link = .undialed → l = .undialed)
    (other : Nat) (undialed : s.links other = .undialed) : (s.setLink link l).links other = .undialed := by
  by_cases same : other = link
  · subst same
    rw [setLink_same]
    exact unused undialed
  · rw [setLink_other s l same]
    exact undialed

theorem Aside.relink (s : State) {link : Nat} {l : Link} (later : (s.links link).Later l)
    (unused : s.links link = .undialed → l = .undialed) : Aside s (s.setLink link l) :=
  ⟨rfl,rfl,rfl,rfl,rfl,s.later_setLink later,s.fresh_setLink unused,fun h => h,fun h => h⟩

theorem Aside.setCall {s s' : State} (aside : Aside s s') (slot : Nat) (r : Routine) :
    Aside s (s'.setCall slot r) := ⟨aside.1,aside.2,aside.3,aside.4,aside.5,aside.6,aside.7,aside.8,aside.9⟩

theorem Aside.fields (s : State) (busy : Nat → Bool) (locked confirms closed stop : Bool)
    (closes : s.closed = true → closed = true) (confirmed : s.confirms = true → confirms = true) :
    Aside s { s with busy := busy, locked := locked, confirms := confirms, closed := closed, stop := stop } :=
  ⟨rfl,rfl,rfl,rfl,rfl,fun _ => .refl _,fun _ h => h,closes,confirmed⟩

theorem Aside.begun (s : State) (slot : Nat) (r : Routine) : Aside s (s.setCall slot r) :=
  (Aside.fields s _ _ _ _ _ (fun h => h) fun h => h).setCall slot r

theorem Aside.request (s : State) {link : Nat} {ch ch' : Channel}
    (usable : (s.links link).usable = some ch) (later : ch.Later ch') :
    Aside s (s.setLink link ((s.links link).withChannel ch')) := by
  refine .relink s (Link.later_channel (Link.usable_some usable).2.1 later) ?_
  intro undialed
  rw [undialed,Link.undialed_usable] at usable
  contradiction

theorem Aside.shut (s : State) (link : Nat) : Aside s (s.setLink link (s.links link).shut) := by
  refine .relink s (Link.later_shut _) ?_
  intro undialed
  rw [undialed]
  rfl

theorem CallMove.aside {t : Topology} {s s' : State} {slot : Nat} {r : Routine}
    (move : CallMove t s slot r s') : Aside s s' := by
  cases move with
  | pass r' pass => exact (Aside.fields s _ _ _ _ _ (fun h => h) fun h => h).setCall slot r'
  | locked => exact (Aside.fields s _ true true _ _ (fun h => h) fun _ => rfl).setCall slot _
  | confirmed link ch current usable => exact (Aside.request s usable ch.later_confirm).setCall slot _
  | unlocked => exact (Aside.fields s _ false _ _ _ (fun h => h) fun h => h).setCall slot _
  | borrowed job busy => exact (Aside.fields s busy _ _ _ _ (fun h => h) fun h => h).setCall slot _
  | returned job result busy => exact (Aside.fields s busy _ _ _ _ (fun h => h) fun h => h).setCall slot _
  | sent job link ch usable => exact (Aside.request s usable (ch.later_publish _)).setCall slot _
  | closing => exact (Aside.fields s _ _ _ true true (fun _ => rfl) fun h => h).setCall slot _
  | shutChannel conn channel =>
    refine (Aside.relink s (Link.later_shutChannel _) ?_).setCall slot _
    intro undialed
    rw [undialed]
    rfl
  | shutConn conn => exact (Aside.shut s conn).setCall slot _

theorem broker_aside {s s' : State} {event : Event} (taken : brokerStep s event = some s') :
    Aside s s' ∧ s' = { s with links := s'.links } := by
  cases event with
  | broken link =>
    simp only [brokerStep] at taken
    split at taken
    · exact Option.some.inj taken ▸ ⟨Aside.shut s link,rfl⟩
    · contradiction
  | exception link =>
    obtain ⟨ch,usable,rfl⟩ := Option.map_eq_some_iff.mp taken
    exact ⟨Aside.request s usable ch.later_shut,rfl⟩
  | settle link tag acked =>
    obtain ⟨ch,usable,rest⟩ := Option.bind_eq_some_iff.mp taken
    split at rest
    · exact Option.some.inj rest ▸ ⟨Aside.request s usable (ch.later_settle tag acked),rfl⟩
    · contradiction

/-- The connections of the library, and where the keeper is with them. -/
structure Sound (s : State) : Prop where
  pair : s.channel = s.conn
  fresh : ∀ link, s.dialed ≤ link → s.links link = .undialed
  known : ∀ link, s.conn = some link ∨ s.keeper.link = some link → link < s.dialed
  apart : ∀ link, s.keeper.link = some link → s.conn ≠ some link
  live : ∀ link, (s.links link).opened = true → s.conn = some link ∨ s.keeper.link = some link
  connecting : s.keeper.connecting = s.conn.isNone
  recovering : s.keeper.recovering = true → ∀ link, s.conn = some link →
    (s.links link).opened = false
  watching : ∀ link, s.keeper = .watching link → s.conn = some link
  bare : ∀ a link, s.keeper = .openChannel a link → (s.links link).channel = none
  done : s.done = true ↔ s.keeper = .ended

theorem Sound.initial : Sound State.initial where
  pair := rfl
  fresh := fun _ _ => rfl
  known := by simp [State.initial,Keeper.link]
  apart := by simp [State.initial,Keeper.link]
  live := by simp [State.initial,Link.undialed]
  connecting := rfl
  recovering := by simp [State.initial]
  watching := by simp [State.initial]
  bare := by simp [State.initial]
  done := by simp [State.initial]

theorem Sound.aside {s s' : State} (sound : Sound s) (aside : Aside s s') : Sound s' where
  pair := by rw [aside.channel,aside.conn,sound.pair]
  fresh := fun link bound => aside.fresh link (sound.fresh link (aside.dialed ▸ bound))
  known := by rw [aside.conn,aside.keeper,aside.dialed]; exact sound.known
  apart := by rw [aside.conn,aside.keeper]; exact sound.apart
  live := by
    intro link opened
    rw [aside.conn,aside.keeper]
    exact sound.live link ((aside.links link).opened opened)
  connecting := by rw [aside.conn,aside.keeper]; exact sound.connecting
  recovering := by
    rw [aside.conn,aside.keeper]
    intro recovering link conn
    have broken := sound.recovering recovering link conn
    by_contra opened
    rw [(aside.links link).opened (by simpa using opened)] at broken
    contradiction
  watching := by rw [aside.conn,aside.keeper]; exact sound.watching
  bare := by
    rw [aside.keeper]
    exact fun a link here => (aside.links link).bare (sound.bare a link here)
  done := by rw [aside.done,aside.keeper]; exact sound.done

theorem State.opened_setLink {s : State} {link other : Nat} {l : Link}
    (opened : ((s.setLink link l).links other).opened = true)
    (less : l.opened = true → (s.links link).opened = true) : (s.links other).opened = true := by
  by_cases same : other = link
  · subst same
    rw [setLink_same] at opened
    exact less opened
  · rwa [setLink_other s l same] at opened

/-- The keeper works on the connection in its hands: it keeps it, or lets go of it dead. -/
theorem Sound.work {s : State} (sound : Sound s) {link : Nat} {l : Link} {k : Keeper}
    (mine : s.keeper.link = some link) (less : l.opened = true → (s.links link).opened = true)
    (held : k.link = some link ∨ k.link = none ∧ l.opened = false)
    (connecting : k.connecting = s.keeper.connecting)
    (recovering : k.recovering = true → s.keeper.recovering = true)
    (other : (∀ link, k ≠ .watching link) ∧ (∀ a link, k ≠ .openChannel a link) ∧ k ≠ .ended) :
    Sound { s.setLink link l with keeper := k } := by
  have running : s.keeper ≠ .ended := by
    intro ended
    rw [ended] at mine
    contradiction
  refine ⟨sound.pair,?_,?_,?_,?_,connecting.trans sound.connecting,?_,?_,?_,?_⟩
  · intro unused bound
    have known := sound.known link (.inr mine)
    have different : unused ≠ link := by
      have bound : s.dialed ≤ unused := bound
      omega
    exact (s.setLink_other _ different).trans (sound.fresh unused bound)
  · rintro link' (conn | at_hand)
    · exact sound.known link' (.inl conn)
    · rcases held with kept | gone
      · exact sound.known link' (.inr (mine.trans (kept.symm.trans at_hand)))
      · rw [gone.1] at at_hand
        contradiction
  · intro link' at_hand
    rcases held with kept | gone
    · exact sound.apart link' (mine.trans (kept.symm.trans at_hand))
    · rw [gone.1] at at_hand
      contradiction
  · intro link' opened
    rcases sound.live link' (State.opened_setLink opened less) with conn | before
    · exact .inl conn
    · cases mine.symm.trans before
      rcases held with kept | gone
      · exact .inr kept
      · rw [show State.links _ link = l from s.setLink_same _ _,gone.2] at opened
        contradiction
  · intro again link' conn
    have different : link' ≠ link := fun same => sound.apart link mine (same ▸ conn)
    rw [show State.links _ link' = s.links link' from s.setLink_other _ different]
    exact sound.recovering (recovering again) link' conn
  · exact fun link' equal => absurd equal (other.1 link')
  · exact fun a link' equal => absurd equal (other.2.1 a link')
  · exact ⟨fun done => absurd (sound.done.mp done) running,fun ended => absurd ended other.2.2⟩

theorem Sound.undone {s : State} (sound : Sound s) {k : Keeper} (running : s.keeper ≠ .ended)
    (other : k ≠ .ended) : s.done = true ↔ k = .ended :=
  ⟨fun done => absurd (sound.done.mp done) running,fun ended => absurd ended other⟩

/-- A new connection is in the keeper's hands, and nobody knows it yet. -/
theorem Sound.dial {s : State} (sound : Sound s) {a : Attempt} (here : s.keeper = .dial a) :
    Sound { s.setLink s.dialed .dialed with dialed := s.dialed + 1, keeper := .openChannel a s.dialed } := by
  have notConn : s.conn ≠ some s.dialed := fun conn =>
    absurd (sound.known s.dialed (.inl conn)) (Nat.lt_irrefl _)
  have empty : s.keeper.link = none := by rw [here]; rfl
  refine ⟨sound.pair,?_,?_,?_,?_,?_,?_,by simp,?_,?_⟩
  · intro link bound
    have later : s.dialed < link := bound
    exact (s.setLink_other _ (by omega)).trans (sound.fresh link (by omega))
  · rintro link (conn | mine)
    · exact Nat.lt_succ_of_lt (sound.known link (.inl conn))
    · cases mine
      exact Nat.lt_succ_self _
  · rintro link mine conn
    cases mine
    exact notConn conn
  · intro link opened
    by_cases same : link = s.dialed
    · exact .inr (same ▸ rfl)
    · rw [show State.links _ link = s.links link from s.setLink_other _ same] at opened
      rcases sound.live link opened with conn | mine
      · exact .inl conn
      · rw [empty] at mine
        contradiction
  · have before := sound.connecting
    rw [here] at before
    exact before
  · intro recovering link conn
    have before := sound.recovering (by rw [here]; exact recovering) link conn
    have other : link ≠ s.dialed := fun same => notConn (same ▸ conn)
    rw [show State.links _ link = s.links link from s.setLink_other _ other]
    exact before
  · rintro a' link equal
    cases equal
    rw [show State.links _ s.dialed = Link.dialed from s.setLink_same _ _]
    rfl
  · exact sound.undone (by simp [here]) (by simp)

/-- While a new connection waits to be installed, the one installed before it is broken. -/
theorem Sound.opened_alone {s : State} (sound : Sound s) {a : Attempt} {link other : Nat}
    (here : s.keeper = .opened a link) (conn : s.conn = some other) : (s.links other).opened = false := by
  cases recovering : a.recovering with
  | true => exact sound.recovering (by rw [here]; exact recovering) other conn
  | false =>
    -- the first connection of all: nothing is installed
    have first := sound.connecting
    rw [here,conn] at first
    simp [Keeper.connecting,recovering] at first

theorem Sound.install {s : State} (sound : Sound s) {a : Attempt} {link : Nat}
    (here : s.keeper = .opened a link) :
    Sound { s with conn := some link, channel := some link, keeper := .watch } := by
  have mine : s.keeper.link = some link := by rw [here]; rfl
  refine ⟨rfl,sound.fresh,?_,by simp [Keeper.link],?_,rfl,by simp [Keeper.recovering],by simp,by simp,?_⟩
  · rintro other (conn | at_hand)
    · cases conn
      exact sound.known link (.inr mine)
    · contradiction
  · intro other opened
    rcases sound.live other opened with conn | at_hand
    · rw [sound.opened_alone here conn] at opened
      contradiction
    · exact .inl (mine.symm.trans at_hand)
  · exact sound.undone (by simp [here]) (by simp)

theorem Sound.keeper {s s' : State} (sound : Sound s) (move : KeeperMove s s') : Sound s' := by
  cases move with
  | turn k turn =>
    refine ⟨sound.pair,sound.fresh,?_,?_,?_,?_,?_,turn.watching,?_,?_⟩
    · exact fun link at_hand => sound.known link (at_hand.imp_right fun mine => turn.link ▸ mine)
    · exact fun link mine => sound.apart link (turn.link ▸ mine)
    · exact fun link opened => (sound.live link opened).imp_right fun mine => turn.link.trans mine
    · exact turn.connecting.trans sound.connecting
    · intro recovering link conn
      rcases turn.recovering recovering with before | ⟨watched,watching,broken⟩
      · exact sound.recovering before link conn
      · cases conn.symm.trans (sound.watching watched watching)
        exact broken
    · exact fun a link equal => absurd equal (turn.bare a link)
    · exact sound.undone turn.running.1 turn.running.2
  | dialed a here => exact sound.dial here
  | channel a link here =>
    exact sound.work (by rw [here]; rfl) (fun h => h) (.inl rfl) (by rw [here]; rfl)
      (fun h => by rw [here]; exact h) (by simp)
  | confirmed a link ch here usable =>
    exact sound.work (by rw [here]; rfl) (fun h => h) (.inl rfl) (by rw [here]; rfl)
      (fun h => by rw [here]; exact h) (by simp)
  | shut link k here next connecting =>
    rcases next with ⟨a,rfl,same⟩ | rfl
    · exact sound.work here (fun h => by contradiction) (.inr ⟨rfl,rfl⟩) connecting
        (fun h => same ▸ h) (by simp)
    · exact sound.work here (fun h => by contradiction) (.inr ⟨rfl,rfl⟩) connecting
        (fun h => by contradiction) (by simp)
  | installed a link here unclosed => exact sound.install here
  | left here =>
    refine ⟨sound.pair,sound.fresh,?_,by simp [Keeper.link],?_,?_,by simp [Keeper.recovering],by simp,
      by simp,by simp⟩
    · rintro link (conn | at_hand)
      · exact sound.known link (.inl conn)
      · contradiction
    · intro link opened
      refine (sound.live link opened).imp_right fun at_hand => ?_
      rw [here] at at_hand
      contradiction
    · have before := sound.connecting
      rw [here] at before
      exact before

/-- A call is begun with nothing but its arguments. -/
theorem begun_plain (command : Command) : (begin command).holdsLock = false ∧
    (begin command).enabled = false ∧ (begin command).acked = false ∧
    (begin command).closing = false ∧ ∀ job link tag, begin command ≠ .publishWait job link tag := by
  cases command <;> simp [begin,Routine.holdsLock,Routine.enabled,Routine.acked,Routine.closing]

theorem step_start {t : Topology} {s s' : State} {slot : Nat} {command : Command}
    (taken : step t s (.start slot command) = some s') :
    s.conn.isSome = true ∧ s.calls slot = none ∧ s' = s.setCall slot (begin command) := by
  simp only [step] at taken
  split at taken
  · next free => exact ⟨free.1,by simpa using free.2.1,(Option.some.inj taken).symm⟩
  · contradiction

theorem step_advance {t : Topology} {s s' : State} {slot : Nat} {choice : Choice}
    (taken : step t s (.advance slot choice) = some s') :
    ∃ r, s.calls slot = some r ∧ CallMove t s slot r s' := by
  obtain ⟨r,running,moved⟩ := Option.bind_eq_some_iff.mp taken
  exact ⟨r,running,call_move moved⟩

theorem Sound.step {t : Topology} {s s' : State} {a : Act} (sound : Sound s)
    (taken : step t s a = some s') : Sound s' := by
  cases a with
  | keeper choice => exact sound.keeper (keeper_move taken)
  | start slot command =>
    obtain ⟨-,-,rfl⟩ := step_start taken
    exact sound.aside ((Aside.fields s _ _ _ _ _ (fun h => h) fun h => h).setCall slot _)
  | advance slot choice =>
    obtain ⟨r,-,move⟩ := step_advance taken
    exact sound.aside move.aside
  | broker event => exact sound.aside (broker_aside taken).1

theorem Run.sound {t : Topology} {trace : List (State × Act × State)} {s : State}
    (run : Run t trace s) : Sound s := by
  induction run with
  | nil => exact .initial
  | snoc _ taken ih => exact ih.step taken

end GophProfile.RabbitMQ.Connection
