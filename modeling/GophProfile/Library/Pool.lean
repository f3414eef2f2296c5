import GophProfile.Library.Effect
import Mathlib.Data.List.Forall2

/-! A pool of processes over one shared world. Every call is one atomic step; steps
of different processes interleave in any order, processes may be started at any time
and may vanish at any time. -/
namespace Effect

/-- What is seen of a process between two of its steps. -/
inductive View (C : Type) (A : C → Type) (R T : Type) where
  | done (reply : R)
  | call (c : C) (next : A c → T)

variable {C : Type} {A : C → Type} {R T T' W K X E : Type}

def Prog.view : Prog C A R → View C A R (Prog C A R)
  | .done value => .done value
  | .call c next => .call c next

/-- The pieces a pool is made of: how a process looks, how one is started for a
command, what a call does to the world (`X` resolves its nondeterminism), and what
the world does by itself. -/
structure Machine (C : Type) (A : C → Type) (R T W K X E : Type) where
  view : T → View C A R T
  start : K → T
  perform : (c : C) → X → W → Option (A c × W)
  environment : E → W → Option W

structure Pool (C : Type) (A : C → Type) (T W : Type) where
  world : W
  procs : Nat → Option T
  /-- Every call made so far with its answer, by process. -/
  log : List (Nat × ((c : C) × A c))

inductive Action (K X E : Type) where
  | start (slot : Nat) (command : K)
  | advance (slot : Nat) (choice : X)
  | crash (slot : Nat)
  | environment (event : E)
  deriving DecidableEq

namespace Pool

def initial (w : W) : Pool C A T W := ⟨w,fun _ => none,[]⟩

def setProc (s : Pool C A T W) (slot : Nat) (t : Option T) : Pool C A T W :=
  { s with procs := Function.update s.procs slot t }

@[simp] theorem setProc_world (s : Pool C A T W) (slot : Nat) (t : Option T) :
    (s.setProc slot t).world = s.world := rfl
@[simp] theorem setProc_log (s : Pool C A T W) (slot : Nat) (t : Option T) :
    (s.setProc slot t).log = s.log := rfl
@[simp] theorem setProc_same (s : Pool C A T W) (slot : Nat) (t : Option T) :
    (s.setProc slot t).procs slot = t := by simp [setProc]
theorem setProc_other (s : Pool C A T W) {slot other : Nat} (t : Option T) (h : other ≠ slot) :
    (s.setProc slot t).procs other = s.procs other := by simp [setProc,h]

/-- One call of one process has been answered. -/
def answered (s : Pool C A T W) (slot : Nat) (c : C) (answer : A c) (t : T) (w : W) :
    Pool C A T W :=
  ⟨w,Function.update s.procs slot (some t),s.log ++ [(slot,⟨c,answer⟩)]⟩

@[simp] theorem answered_world (s : Pool C A T W) (slot : Nat) (c : C) (answer : A c) (t : T) (w : W) :
    (s.answered slot c answer t w).world = w := rfl
@[simp] theorem answered_log (s : Pool C A T W) (slot : Nat) (c : C) (answer : A c) (t : T) (w : W) :
    (s.answered slot c answer t w).log = s.log ++ [(slot,⟨c,answer⟩)] := rfl
@[simp] theorem answered_same (s : Pool C A T W) (slot : Nat) (c : C) (answer : A c) (t : T) (w : W) :
    (s.answered slot c answer t w).procs slot = some t := by simp [answered]
theorem answered_other (s : Pool C A T W) {slot other : Nat} (c : C) (answer : A c) (t : T) (w : W)
    (h : other ≠ slot) : (s.answered slot c answer t w).procs other = s.procs other := by
  simp [answered,h]

section Running
variable {s : Pool C A T W} {slot i : Nat} {t u : T}

/-- Who runs after a start: the process started, or one that ran before. -/
theorem running_started (running : (s.setProc slot (some t)).procs i = some u) :
    (i = slot ∧ u = t) ∨ (i ≠ slot ∧ s.procs i = some u) := by
  by_cases same : i = slot
  · subst same
    exact .inl ⟨rfl,(Option.some.inj ((s.setProc_same i _).symm.trans running)).symm⟩
  · exact .inr ⟨same,(s.setProc_other _ same).symm.trans running⟩

theorem running_crashed (running : (s.setProc slot none).procs i = some u) :
    i ≠ slot ∧ s.procs i = some u := by
  have other : i ≠ slot := fun same => by subst same; simp at running
  exact ⟨other,(s.setProc_other _ other).symm.trans running⟩

theorem running_answered {c : C} {answer : A c} {w : W}
    (running : (s.answered slot c answer t w).procs i = some u) :
    (i = slot ∧ u = t) ∨ (i ≠ slot ∧ s.procs i = some u) := by
  by_cases same : i = slot
  · subst same
    exact .inl ⟨rfl,(Option.some.inj ((s.answered_same i c answer t w).symm.trans running)).symm⟩
  · exact .inr ⟨same,(s.answered_other c answer t w same).symm.trans running⟩

end Running

end Pool

namespace Machine

/-- A slot is used once; a finished process keeps its reply and takes no step. -/
def step (m : Machine C A R T W K X E) (s : Pool C A T W) : Action K X E → Option (Pool C A T W)
  | .start slot command =>
    match s.procs slot with
    | none => some (s.setProc slot (some (m.start command)))
    | some _ => none
  | .advance slot choice =>
    match s.procs slot with
    | none => none
    | some t =>
      match m.view t with
      | .done _ => none
      | .call c next =>
        (m.perform c choice s.world).map fun result =>
          s.answered slot c result.1 (next result.1) result.2
  | .crash slot =>
    match s.procs slot with
    | none => none
    | some t =>
      match m.view t with
      | .done _ => none
      | .call _ _ => some (s.setProc slot none)
  | .environment event => (m.environment event s.world).map fun w => { s with world := w }

variable {m : Machine C A R T W K X E} {s s' : Pool C A T W}

theorem step_start {slot : Nat} {command : K} (taken : m.step s (.start slot command) = some s') :
    s.procs slot = none ∧ s' = s.setProc slot (some (m.start command)) := by
  simp only [step] at taken
  split at taken
  · next free => exact ⟨free,(Option.some.inj taken).symm⟩
  · contradiction

theorem step_advance {slot : Nat} {choice : X} (taken : m.step s (.advance slot choice) = some s') :
    ∃ t c next answer w, s.procs slot = some t ∧ m.view t = .call c next ∧
      m.perform c choice s.world = some (answer,w) ∧ s' = s.answered slot c answer (next answer) w := by
  simp only [step] at taken
  split at taken
  · contradiction
  · next t running =>
    split at taken
    · contradiction
    · next c next seen =>
      obtain ⟨⟨answer,w⟩,performed,rfl⟩ := Option.map_eq_some_iff.mp taken
      exact ⟨t,c,next,answer,w,running,seen,performed,rfl⟩

theorem step_crash {slot : Nat} (taken : m.step s (.crash slot) = some s') :
    (∃ t, s.procs slot = some t) ∧ s' = s.setProc slot none := by
  simp only [step] at taken
  split at taken
  · contradiction
  · next t running =>
    split at taken
    · contradiction
    · exact ⟨⟨t,running⟩,(Option.some.inj taken).symm⟩

theorem step_environment {event : E} (taken : m.step s (.environment event) = some s') :
    ∃ w, m.environment event s.world = some w ∧ s' = { s with world := w } := by
  obtain ⟨w,moved,rfl⟩ := Option.map_eq_some_iff.mp taken
  exact ⟨w,moved,rfl⟩

/-- The process of the slot is over, with this reply. -/
def Replied (m : Machine C A R T W K X E) (s : Pool C A T W) (slot : Nat) (reply : R) : Prop :=
  ∃ t, s.procs slot = some t ∧ m.view t = .done reply

/-- What a step starts in a slot. -/
def startedIn (slot : Nat) : Action K X E → Option K
  | .start other command => if other = slot then some command else none
  | _ => none

/-- The command that a slot was started with last. -/
def latest (trace : List (Pool C A T W × Action K X E × Pool C A T W)) (slot : Nat) : Option K :=
  (trace.filterMap fun entry => startedIn slot entry.2.1).getLast?

theorem latest_snoc (trace : List (Pool C A T W × Action K X E × Pool C A T W))
    (s s' : Pool C A T W) (a : Action K X E) (slot : Nat) :
    latest (trace ++ [(s,a,s')]) slot = (startedIn slot a).or (latest trace slot) := by
  unfold latest
  rw [List.filterMap_append]
  cases started : startedIn slot a <;> simp [started]

theorem latest_actions (trace : List (Pool C A T W × Action K X E × Pool C A T W)) (slot : Nat) :
    latest trace slot = ((trace.map fun entry => entry.2.1).filterMap (startedIn slot)).getLast? := by
  rw [latest,List.filterMap_map]
  rfl

/-- What a process keeps from its start comes from the command it was started with. -/
theorem origin {ι : Type} (kept : T → Option ι) (given : K → Option ι)
    (start : ∀ command k, kept (m.start command) = some k → given command = some k)
    (next : ∀ t c next answer k, m.view t = .call c next → kept (next answer) = some k →
      kept t = some k)
    {w : W} {trace : List (Pool C A T W × Action K X E × Pool C A T W)}
    (run : Transition.Path m.step (Pool.initial w) trace s) {i : Nat} {t : T} {k : ι}
    (running : s.procs i = some t) (keeps : kept t = some k) :
    ∃ command, latest trace i = some command ∧ given command = some k := by
  induction run generalizing i t k with
  | nil => simp [Pool.initial] at running
  | @snoc trace s s' a before taken ih =>
    have earlier : ∀ {u}, startedIn i a = none → s.procs i = some u → kept u = some k →
        ∃ command, latest (trace ++ [(s,a,s')]) i = some command ∧ given command = some k := by
      intro u idle acting held
      rw [latest_snoc,idle,Option.none_or]
      exact ih acting held
    cases a with
    | start slot command =>
      obtain ⟨_,rfl⟩ := step_start taken
      rcases Pool.running_started running with ⟨rfl,rfl⟩ | ⟨other,running⟩
      · refine ⟨command,?_,start command k keeps⟩
        rw [latest_snoc,startedIn,if_pos rfl,Option.some_or]
      · exact earlier (if_neg fun same => other same.symm) running keeps
    | advance slot choice =>
      obtain ⟨u,c,go,answer,w',acting,seen,_,rfl⟩ := step_advance taken
      rcases Pool.running_answered running with ⟨rfl,rfl⟩ | ⟨_,running⟩
      · exact earlier rfl acting (next u c go answer k seen keeps)
      · exact earlier rfl running keeps
    | crash slot =>
      obtain ⟨_,rfl⟩ := step_crash taken
      exact earlier rfl (Pool.running_crashed running).2 keeps
    | environment event =>
      obtain ⟨_,_,rfl⟩ := step_environment taken
      exact earlier rfl running keeps

/-- A slot in which nothing was started is free. -/
theorem unstarted {w : W} {trace : List (Pool C A T W × Action K X E × Pool C A T W)}
    (run : Transition.Path m.step (Pool.initial w) trace s) {i : Nat}
    (never : ∀ entry ∈ trace, ∀ command, entry.2.1 ≠ .start i command) : s.procs i = none := by
  induction run with
  | nil => rfl
  | @snoc trace s s' a before taken ih =>
    have free := ih fun entry member => never entry (List.mem_append_left _ member)
    have last := never _ (List.mem_append_right _ List.mem_cons_self)
    cases a with
    | start slot command =>
      obtain ⟨_,rfl⟩ := step_start taken
      have other : i ≠ slot := fun same => last command (by rw [same])
      exact (s.setProc_other _ other).trans free
    | advance slot choice =>
      obtain ⟨u,c,go,answer,w',acting,_,_,rfl⟩ := step_advance taken
      have other : i ≠ slot := by
        rintro rfl
        rw [free] at acting
        contradiction
      exact (s.answered_other c answer _ w' other).trans free
    | crash slot =>
      obtain ⟨⟨u,acting⟩,rfl⟩ := step_crash taken
      have other : i ≠ slot := by
        rintro rfl
        rw [free] at acting
        contradiction
      exact (s.setProc_other _ other).trans free
    | environment event =>
      obtain ⟨_,_,rfl⟩ := step_environment taken
      exact free

/-- A free slot of a run without crashes has never been used. -/
theorem unused {w : W} {trace : List (Pool C A T W × Action K X E × Pool C A T W)}
    (run : Transition.Path m.step (Pool.initial w) trace s)
    (uncrashed : ∀ entry ∈ trace, ∀ slot, entry.2.1 ≠ .crash slot) {i : Nat}
    (free : s.procs i = none) : ∀ entry ∈ trace, ∀ choice, entry.2.1 ≠ .advance i choice := by
  induction run with
  | nil => simp
  | @snoc trace s s' a before taken ih =>
    have earlier := ih fun entry member => uncrashed entry (List.mem_append_left _ member)
    intro entry member choice
    have last : s.procs i = none ∧ a ≠ .advance i choice := by
      cases a with
      | start slot command =>
        obtain ⟨idle,rfl⟩ := step_start taken
        by_cases same : i = slot
        · exact ⟨same ▸ idle,by simp⟩
        · exact ⟨(s.setProc_other _ same).symm.trans free,by simp⟩
      | advance slot other =>
        obtain ⟨u,c,go,answer,w',acting,seen,_,rfl⟩ := step_advance taken
        by_cases same : i = slot
        · subst same
          simp at free
        · refine ⟨(s.answered_other c answer _ w' same).symm.trans free,?_⟩
          intro equal
          cases equal
          exact same rfl
      | crash slot => exact absurd rfl (uncrashed _ (List.mem_append_right _ List.mem_cons_self) slot)
      | environment event =>
        obtain ⟨_,_,rfl⟩ := step_environment taken
        exact ⟨free,by simp⟩
    rcases List.mem_append.mp member with old | new
    · exact earlier last.1 entry old choice
    · obtain rfl := List.mem_singleton.mp new
      exact last.2

/-- What a process has behind it: `past` holds when it starts, follows it through its
own steps, and survives the steps of everything else. -/
theorem history (past : List (Pool C A T W × Action K X E × Pool C A T W) → Pool C A T W → Nat → T → Prop)
    {w : W} {trace : List (Pool C A T W × Action K X E × Pool C A T W)}
    (run : Transition.Path m.step (Pool.initial w) trace s)
    (allowed : Pool C A T W → Action K X E → Prop)
    (all : ∀ entry ∈ trace, allowed entry.1 entry.2.1)
    (start : ∀ trace s i command, Transition.Path m.step (Pool.initial w) trace s →
      (∀ entry ∈ trace, allowed entry.1 entry.2.1) → s.procs i = none →
      past (trace ++ [(s,.start i command,s.setProc i (some (m.start command)))])
        (s.setProc i (some (m.start command))) i (m.start command))
    (mine : ∀ trace s i choice t c next answer w', Transition.Path m.step (Pool.initial w) trace s →
      (∀ entry ∈ trace, allowed entry.1 entry.2.1) → allowed s (.advance i choice) →
      s.procs i = some t → m.view t = .call c next → m.perform c choice s.world = some (answer,w') →
      past trace s i t →
      past (trace ++ [(s,.advance i choice,s.answered i c answer (next answer) w')])
        (s.answered i c answer (next answer) w') i (next answer))
    (others : ∀ trace s s' a i t, m.step s a = some s' → (∀ choice, a ≠ .advance i choice) →
      s.procs i = some t → past trace s i t → past (trace ++ [(s,a,s')]) s' i t)
    {i : Nat} {t : T} (running : s.procs i = some t) : past trace s i t := by
  induction run generalizing i t with
  | nil => simp [Pool.initial] at running
  | @snoc trace s s' a before taken ih =>
    have earlier := fun entry (member : entry ∈ trace) => all entry (List.mem_append_left _ member)
    have permitted : allowed s a := all _ (List.mem_append_right _ List.mem_cons_self)
    have ih := fun {i : Nat} {t : T} => ih earlier (i := i) (t := t)
    cases a with
    | start slot command =>
      obtain ⟨free,rfl⟩ := step_start taken
      rcases Pool.running_started running with ⟨rfl,rfl⟩ | ⟨_,running⟩
      · exact start trace s i command before earlier free
      · exact others _ _ _ _ i t taken (by simp) running (ih running)
    | advance slot choice =>
      obtain ⟨u,c,next,answer,w',acting,seen,performed,rfl⟩ := step_advance taken
      rcases Pool.running_answered running with ⟨rfl,rfl⟩ | ⟨same,running⟩
      · exact mine _ _ _ _ u c next answer w' before earlier permitted acting seen performed (ih acting)
      · refine others _ _ _ _ i t taken ?_ running (ih running)
        intro other equal
        cases equal
        exact same rfl
    | crash slot =>
      obtain ⟨_,rfl⟩ := step_crash taken
      have running := (Pool.running_crashed running).2
      exact others _ _ _ _ i t taken (by simp) running (ih running)
    | environment event =>
      obtain ⟨_,_,rfl⟩ := step_environment taken
      exact others _ _ _ _ i t taken (by simp) running (ih running)

/-- What a proof must give to know an invariant of the world and an assertion about
every process in all reachable states. `grows` is what any step may do to the world;
an assertion only has to survive that, not each step of each other process. -/
structure Outline (m : Machine C A R T W K X E)
    (allowed : Pool C A T W → Action K X E → Prop) where
  invariant : W → Prop
  assertion : W → T → Prop
  grows : W → W → Prop
  refl : ∀ w, grows w w
  stable : ∀ {w w' t}, grows w w' → assertion w t → assertion w' t
  started : ∀ w command, invariant w → assertion w (m.start command)
  answered : ∀ (s : Pool C A T W) (slot : Nat) (choice : X) (t : T) (c : C) (next : A c → T)
    (answer : A c) (w : W), allowed s (.advance slot choice) → invariant s.world →
    (∀ other t', s.procs other = some t' → assertion s.world t') →
    s.procs slot = some t → m.view t = .call c next →
    m.perform c choice s.world = some (answer,w) →
    invariant w ∧ grows s.world w ∧ assertion w (next answer)
  moved : ∀ event w w', invariant w → m.environment event w = some w' → invariant w' ∧ grows w w'

namespace Outline

variable {allowed : Pool C A T W → Action K X E → Prop}

/-- The outline's claim about one state of the pool. -/
def Holds (o : Outline m allowed) (s : Pool C A T W) : Prop :=
  o.invariant s.world ∧ ∀ slot t, s.procs slot = some t → o.assertion s.world t

theorem step_holds (o : Outline m allowed) {a : Action K X E} (holds : o.Holds s)
    (permitted : allowed s a) (taken : m.step s a = some s') :
    o.Holds s' ∧ o.grows s.world s'.world := by
  obtain ⟨inv,asserted⟩ := holds
  cases a with
  | start slot command =>
    obtain ⟨_,rfl⟩ := step_start taken
    refine ⟨⟨inv,fun other t running => ?_⟩,o.refl _⟩
    rcases Pool.running_started running with ⟨rfl,rfl⟩ | ⟨_,running⟩
    · exact o.started _ _ inv
    · exact asserted other t running
  | advance slot choice =>
    obtain ⟨t,c,next,answer,w,running,seen,performed,rfl⟩ := step_advance taken
    obtain ⟨inv',grown,mine⟩ := o.answered s slot choice t c next answer w permitted inv asserted
      running seen performed
    refine ⟨⟨inv',fun other t' running' => ?_⟩,grown⟩
    rcases Pool.running_answered running' with ⟨rfl,rfl⟩ | ⟨_,running'⟩
    · exact mine
    · exact o.stable grown (asserted other t' running')
  | crash slot =>
    obtain ⟨_,rfl⟩ := step_crash taken
    refine ⟨⟨inv,fun other t running => ?_⟩,o.refl _⟩
    exact asserted other t (Pool.running_crashed running).2
  | environment event =>
    obtain ⟨w,moved,rfl⟩ := step_environment taken
    obtain ⟨inv',grown⟩ := o.moved event _ _ inv moved
    exact ⟨⟨inv',fun slot t running => o.stable grown (asserted slot t running)⟩,grown⟩

theorem reachable (o : Outline m allowed) {w : W} (start : o.invariant w)
    (reached : Transition.Reachable m.step allowed (Pool.initial w) s) : o.Holds s :=
  reached.invariant o.Holds ⟨start,by simp [Pool.initial]⟩
    fun _ _ _ _ holds permitted taken => (o.step_holds holds permitted taken).1

/-- A second layer of facts over those of an outline, which its proofs may use. -/
def extend (o : Outline m allowed) (invariant : W → Prop) (assertion : W → T → Prop)
    (stable : ∀ {w w' t}, o.grows w w' → assertion w t → assertion w' t)
    (started : ∀ w command, invariant w → assertion w (m.start command))
    (answered : ∀ (s : Pool C A T W) (slot : Nat) (choice : X) (t : T) (c : C) (next : A c → T)
      (answer : A c) (w : W), allowed s (.advance slot choice) → o.Holds s → invariant s.world →
      (∀ other t', s.procs other = some t' → assertion s.world t') → s.procs slot = some t →
      m.view t = .call c next → m.perform c choice s.world = some (answer,w) → o.grows s.world w →
      invariant w ∧ assertion w (next answer))
    (moved : ∀ event w w', invariant w → m.environment event w = some w' → invariant w') :
    Outline m allowed where
  invariant := fun w => o.invariant w ∧ invariant w
  assertion := fun w t => o.assertion w t ∧ assertion w t
  grows := o.grows
  refl := o.refl
  stable := fun grows both => ⟨o.stable grows both.1,stable grows both.2⟩
  started := fun w command both => ⟨o.started w command both.1,started w command both.2⟩
  answered := by
    intro s slot choice t c next answer w permitted both all running seen performed
    have base := o.answered s slot choice t c next answer w permitted both.1
      (fun other t' here => (all other t' here).1) running seen performed
    have more := answered s slot choice t c next answer w permitted
      ⟨both.1,fun other t' here => (all other t' here).1⟩ both.2
      (fun other t' here => (all other t' here).2) running seen performed base.2.1
    exact ⟨⟨base.1,more.1⟩,base.2.1,base.2.2,more.2⟩
  moved := by
    intro event w w' both here
    obtain ⟨base,grown⟩ := o.moved event w w' both.1 here
    exact ⟨⟨base,moved event w w' both.2 here⟩,grown⟩

/-- A token that is only ever taken while it is free, and that is not free as long as
a process is known to hold it, is held by one process at most. -/
theorem token_unique {κ : Type} (o : Outline m allowed) (holdsToken : T → Option κ)
    (free : W → κ → Prop) {w : W} (start : o.invariant w)
    (none_at_start : ∀ command, holdsToken (m.start command) = none)
    (taken_free : ∀ w t, o.assertion w t → ∀ k, holdsToken t = some k → ¬free w k)
    (acquired : ∀ w t c next choice answer w', o.invariant w → o.assertion w t →
      m.view t = .call c next → m.perform c choice w = some (answer,w') →
      ∀ k, holdsToken (next answer) = some k → holdsToken t = some k ∨ free w k)
    (reached : Transition.Reachable m.step allowed (Pool.initial w) s)
    {i j : Nat} {t t' : T} {k : κ} (first : s.procs i = some t) (second : s.procs j = some t')
    (one : holdsToken t = some k) (two : holdsToken t' = some k) : i = j := by
  suffices all : ∀ i j t t' k, s.procs i = some t → s.procs j = some t' →
      holdsToken t = some k → holdsToken t' = some k → i = j from all i j t t' k first second one two
  clear first second one two
  induction reached with
  | start => simp [Pool.initial]
  | @next s s' a before permitted taken ih =>
    have holds := o.reachable start before
    cases a with
    | start slot command =>
      obtain ⟨_,rfl⟩ := step_start taken
      have older : ∀ {i t k}, (s.setProc slot (some (m.start command))).procs i = some t →
          holdsToken t = some k → s.procs i = some t := by
        intro i t k running held
        rcases Pool.running_started running with ⟨rfl,rfl⟩ | ⟨_,running⟩
        · rw [none_at_start] at held
          contradiction
        · exact running
      intro i j t t' k first second one two
      exact ih i j t t' k (older first one) (older second two) one two
    | advance slot choice =>
      obtain ⟨u,c,next,answer,w',running,seen,performed,rfl⟩ := step_advance taken
      -- the acting process either held the token before or takes it while it is free
      have clash : ∀ j t' k, j ≠ slot → s.procs j = some t' → holdsToken t' = some k →
          holdsToken (next answer) ≠ some k := by
        intro j t' k other running' held mine
        rcases acquired s.world u c next choice answer w' holds.1 (holds.2 slot u running) seen
          performed k mine with before | isFree
        · exact other (ih j slot t' u k running' running held before)
        · exact taken_free _ _ (holds.2 j t' running') k held isFree
      intro i j t t' k first second one two
      rcases Pool.running_answered first with ⟨rfl,rfl⟩ | ⟨hi,first⟩ <;>
        rcases Pool.running_answered second with ⟨hj,same⟩ | ⟨hj,second⟩
      · exact hj.symm
      · exact absurd one (clash j t' k hj second two)
      · subst same
        exact absurd two (clash i t k hi first one)
      · exact ih i j t t' k first second one two
    | crash slot =>
      obtain ⟨_,rfl⟩ := step_crash taken
      intro i j t t' k first second one two
      exact ih i j t t' k (Pool.running_crashed first).2 (Pool.running_crashed second).2 one two
    | environment event =>
      obtain ⟨_,_,rfl⟩ := step_environment taken
      exact ih

/-- What only the holder of a token can do, and gives the token up by doing, has not
been done while the token is held. -/
theorem token_unspent {κ : Type} (o : Outline m allowed) (holdsToken : T → Option κ)
    (spent : W → κ → Prop) {w : W} (start : o.invariant w)
    (none_at_start : ∀ command, holdsToken (m.start command) = none)
    (unique : ∀ {s : Pool C A T W}, Transition.Reachable m.step allowed (Pool.initial w) s →
      ∀ {i j : Nat} {t t' : T} {k : κ}, s.procs i = some t → s.procs j = some t' →
        holdsToken t = some k → holdsToken t' = some k → i = j)
    (acquired : ∀ w t c next choice answer w', o.invariant w → o.assertion w t →
      m.view t = .call c next → m.perform c choice w = some (answer,w') →
      ∀ k, holdsToken (next answer) = some k → holdsToken t = some k ∨ ¬spent w k)
    (spends : ∀ w t c next choice answer w', o.invariant w → o.assertion w t →
      m.view t = .call c next → m.perform c choice w = some (answer,w') →
      ∀ k, spent w' k → spent w k ∨ (holdsToken t = some k ∧ holdsToken (next answer) ≠ some k))
    (moves : ∀ event w w', m.environment event w = some w' → ∀ k, spent w' k → spent w k)
    (reached : Transition.Reachable m.step allowed (Pool.initial w) s)
    {i : Nat} {t : T} {k : κ} (running : s.procs i = some t) (holds : holdsToken t = some k) :
    ¬spent s.world k := by
  induction reached generalizing i t k with
  | start => simp [Pool.initial] at running
  | @next s s' a before permitted taken ih =>
    have known := o.reachable start before
    cases a with
    | start slot command =>
      obtain ⟨_,rfl⟩ := step_start taken
      rcases Pool.running_started running with ⟨rfl,rfl⟩ | ⟨_,running⟩
      · rw [none_at_start] at holds
        contradiction
      · exact ih running holds
    | advance slot choice =>
      obtain ⟨u,c,next,answer,w',acting,seen,performed,rfl⟩ := step_advance taken
      have asserted := known.2 slot u acting
      intro done
      rcases spends _ u c next choice answer w' known.1 asserted seen performed k done with
        earlier | ⟨mine,given⟩
      · rcases Pool.running_answered running with ⟨rfl,rfl⟩ | ⟨_,running⟩
        · rcases acquired _ u c next choice answer w' known.1 asserted seen performed k holds with
            held | unspent
          · exact ih acting held earlier
          · exact unspent earlier
        · exact ih running holds earlier
      · rcases Pool.running_answered running with ⟨rfl,rfl⟩ | ⟨same,running⟩
        · exact given holds
        · exact same (unique before running acting holds mine)
    | crash slot =>
      obtain ⟨_,rfl⟩ := step_crash taken
      exact ih (Pool.running_crashed running).2 holds
    | environment event =>
      obtain ⟨w',moved,rfl⟩ := step_environment taken
      exact fun done => ih running holds (moves event _ w' moved k done)

end Outline

/-- Programs in a pool that make allowed calls only as long as they are answered
acceptably, and an invariant of the world under which they are. -/
structure Contract (m : Machine C A R (Prog C A R) W K X E)
    (permitted : Pool C A (Prog C A R) W → Action K X E → Prop) where
  invariant : W → Prop
  answers : (c : C) → A c → Prop
  allowed : C → Prop
  view : m.view = Prog.view
  started : ∀ s slot command, permitted s (.start slot command) →
    Meets answers allowed (fun _ => True) (m.start command)
  answered : ∀ s slot choice c next answer w, permitted s (.advance slot choice) →
    s.procs slot = some (.call c next) → invariant s.world → allowed c →
    m.perform c choice s.world = some (answer,w) → answers c answer ∧ invariant w
  moved : ∀ event w w', invariant w → m.environment event w = some w' → invariant w'

namespace Contract

variable {m : Machine C A R (Prog C A R) W K X E} {s s' : Pool C A (Prog C A R) W}
    {permitted : Pool C A (Prog C A R) W → Action K X E → Prop}

/-- The contract's claim about one state: the invariant, the rest of every program, and
every call made so far. -/
structure Holds (o : m.Contract permitted) (s : Pool C A (Prog C A R) W) : Prop where
  world : o.invariant s.world
  procs : ∀ slot p, s.procs slot = some p → Meets o.answers o.allowed (fun _ => True) p
  log : ∀ entry ∈ s.log, o.allowed entry.2.1

theorem step_holds (o : m.Contract permitted) {a : Action K X E} (holds : o.Holds s)
    (may : permitted s a) (taken : m.step s a = some s') : o.Holds s' := by
  cases a with
  | start slot command =>
    obtain ⟨_,rfl⟩ := step_start taken
    refine ⟨holds.world,?_,holds.log⟩
    intro other p running
    rcases Pool.running_started running with ⟨rfl,rfl⟩ | ⟨_,running⟩
    · exact o.started s other command may
    · exact holds.procs other p running
  | advance slot choice =>
    obtain ⟨p,c,next,answer,w,acting,seen,performed,rfl⟩ := step_advance taken
    rw [o.view] at seen
    cases p with
    | done value => contradiction
    | call c' go =>
      cases seen
      have meets := holds.procs slot _ acting
      obtain ⟨good,kept⟩ := o.answered s slot choice c next answer w may acting holds.world meets.1
        performed
      refine ⟨kept,?_,?_⟩
      · intro other q running
        rcases Pool.running_answered running with ⟨rfl,rfl⟩ | ⟨_,running⟩
        · exact meets.2 answer good
        · exact holds.procs other q running
      · intro entry member
        rcases List.mem_append.mp member with old | new
        · exact holds.log entry old
        · obtain rfl := List.mem_singleton.mp new
          exact meets.1
  | crash slot =>
    obtain ⟨_,rfl⟩ := step_crash taken
    refine ⟨holds.world,?_,holds.log⟩
    intro other p running
    exact holds.procs other p (Pool.running_crashed running).2
  | environment event =>
    obtain ⟨w,moved,rfl⟩ := step_environment taken
    exact ⟨o.moved event _ w holds.world moved,holds.procs,holds.log⟩

theorem reachable (o : m.Contract permitted) {w : W} (start : o.invariant w)
    (reached : Transition.Reachable m.step permitted (Pool.initial w) s) : o.Holds s := by
  induction reached with
  | start => exact ⟨start,by simp [Pool.initial],by simp [Pool.initial]⟩
  | next _ may taken ih => exact o.step_holds ih may taken

end Contract

end Machine

/-! ### Two kinds of processes that behave alike -/

/-- Both are finished with the same reply, or wait for the same call and stay related
whatever its answer. -/
inductive View.Alike (relates : T → T' → Prop) : View C A R T → View C A R T' → Prop
  | done (reply : R) : View.Alike relates (.done reply) (.done reply)
  | call (c : C) {next : A c → T} {next' : A c → T'} (go : ∀ answer, relates (next answer) (next' answer)) :
      View.Alike relates (.call c next) (.call c next')

theorem View.Alike.done_iff {relates : T → T' → Prop} {v : View C A R T} {v' : View C A R T'}
    (alike : View.Alike relates v v') (reply : R) : v = .done reply ↔ v' = .done reply := by
  cases alike with
  | done other => simp
  | call c go => simp

/-- A process does what a program says: the definition follows the program. -/
def Prog.Followed (view : T → View C A R T) : Prog C A R → T → Prop
  | .done reply, t => view t = .done reply
  | .call c next, t => ∃ next', view t = .call c next' ∧
      ∀ answer, Prog.Followed view (next answer) (next' answer)

theorem Prog.Followed.call {view : T → View C A R T} {c : C} {next : A c → Prog C A R}
    {next' : A c → T} {t : T} (seen : view t = .call c next')
    (go : ∀ answer, (next answer).Followed view (next' answer)) : (Prog.call c next).Followed view t :=
  ⟨next',seen,go⟩

theorem Prog.Followed.alike {view : T → View C A R T} {p : Prog C A R} {t : T}
    (followed : p.Followed view t) : View.Alike (Prog.Followed view) p.view (view t) := by
  cases p with
  | done reply =>
    have seen : view t = .done reply := followed
    rw [seen]
    exact .done reply
  | call c next =>
    obtain ⟨next',seen,go⟩ := followed
    rw [seen]
    exact .call c go

structure Simulates (m : Machine C A R T W K X E) (n : Machine C A R T' W K X E)
    (relates : T → T' → Prop) : Prop where
  view : ∀ t t', relates t t' → View.Alike relates (m.view t) (n.view t')
  start : ∀ command, relates (m.start command) (n.start command)
  perform : m.perform = n.perform
  environment : m.environment = n.environment

namespace Simulates

variable {m : Machine C A R T W K X E} {n : Machine C A R T' W K X E} {relates : T → T' → Prop}

/-- The same world and calls, and related processes in every slot. -/
structure Related (relates : T → T' → Prop) (s : Pool C A T W) (s' : Pool C A T' W) : Prop where
  world : s.world = s'.world
  log : s.log = s'.log
  procs : ∀ slot, Option.Rel relates (s.procs slot) (s'.procs slot)

theorem Related.setProc {s : Pool C A T W} {s' : Pool C A T' W} (related : Related relates s s')
    {slot : Nat} {t : Option T} {t' : Option T'} (both : Option.Rel relates t t') :
    Related relates (s.setProc slot t) (s'.setProc slot t') where
  world := related.world
  log := related.log
  procs := by
    intro other
    by_cases same : other = slot
    · subst same
      rw [Pool.setProc_same,Pool.setProc_same]
      exact both
    · rw [Pool.setProc_other _ _ same,Pool.setProc_other _ _ same]
      exact related.procs other

theorem Related.answered {s : Pool C A T W} {s' : Pool C A T' W} (related : Related relates s s')
    {slot : Nat} {c : C} {answer : A c} {t : T} {t' : T'} {w : W} (both : relates t t') :
    Related relates (s.answered slot c answer t w) (s'.answered slot c answer t' w) where
  world := rfl
  log := by rw [Pool.answered_log,Pool.answered_log,related.log]
  procs := by
    intro other
    by_cases same : other = slot
    · subst same
      rw [Pool.answered_same,Pool.answered_same]
      exact .some both
    · rw [Pool.answered_other _ _ _ _ _ same,Pool.answered_other _ _ _ _ _ same]
      exact related.procs other

/-- Related pools take the same steps, refusals included, into related pools. -/
theorem step (sim : Simulates m n relates) {s : Pool C A T W} {s' : Pool C A T' W}
    (related : Related relates s s') (a : Action K X E) :
    Option.Rel (Related relates) (m.step s a) (n.step s' a) := by
  cases a with
  | start slot command =>
    have both := related.procs slot
    simp only [Machine.step]
    cases h : s.procs slot <;> cases h' : s'.procs slot <;> rw [h,h'] at both
    · exact .some (related.setProc (.some (sim.start command)))
    · cases both
    · cases both
    · exact .none
  | advance slot choice =>
    have both := related.procs slot
    simp only [Machine.step]
    cases h : s.procs slot <;> cases h' : s'.procs slot <;> rw [h,h'] at both
    · exact .none
    · cases both
    · cases both
    · next t t' =>
      cases both with
      | some alike =>
        have views := sim.view t t' alike
        cases hv : m.view t <;> cases hv' : n.view t' <;> rw [hv,hv'] at views <;>
          simp only [hv,hv']
        · exact .none
        · cases views
        · cases views
        · next c next c' next' =>
          cases views with
          | call c go =>
            simp only [sim.perform,related.world]
            cases n.perform c choice s'.world with
            | none => exact .none
            | some result => exact .some (related.answered (go result.1))
  | crash slot =>
    have both := related.procs slot
    simp only [Machine.step]
    cases h : s.procs slot <;> cases h' : s'.procs slot <;> rw [h,h'] at both
    · exact .none
    · cases both
    · cases both
    · next t t' =>
      cases both with
      | some alike =>
        have views := sim.view t t' alike
        cases hv : m.view t <;> cases hv' : n.view t' <;> rw [hv,hv'] at views <;>
          simp only [hv,hv']
        · exact .none
        · cases views
        · cases views
        · exact .some (related.setProc .none)
  | environment event =>
    simp only [Machine.step,sim.environment,related.world]
    cases n.environment event s'.world with
    | none => exact .none
    | some w => exact .some ⟨rfl,related.log,related.procs⟩

theorem initial (w : W) : Related relates (Pool.initial w : Pool C A T W) (Pool.initial w) :=
  ⟨rfl,rfl,fun _ => .none⟩

/-- What one kind of processes can reach, the other reaches too. -/
theorem reachable (sim : Simulates m n relates) {allowed : Pool C A T W → Action K X E → Prop}
    {allowed' : Pool C A T' W → Action K X E → Prop}
    (agree : ∀ s s' a, Related relates s s' → allowed s a → allowed' s' a) {w : W}
    {s : Pool C A T W} (reached : Transition.Reachable m.step allowed (Pool.initial w) s) :
    ∃ s', Transition.Reachable n.step allowed' (Pool.initial w) s' ∧ Related relates s s' := by
  induction reached with
  | start => exact ⟨Pool.initial w,.start,initial w⟩
  | @next s t a _ permitted taken ih =>
    obtain ⟨s',reached',related⟩ := ih
    have both := sim.step related a
    rw [taken] at both
    cases h : n.step s' a with
    | none => rw [h] at both; cases both
    | some t' =>
      rw [h] at both
      cases both with
      | some after => exact ⟨t',.next reached' (agree _ _ _ related permitted) h,after⟩

theorem replied (sim : Simulates m n relates) {s : Pool C A T W} {s' : Pool C A T' W}
    (related : Related relates s s') (slot : Nat) (reply : R) : m.Replied s slot reply ↔ n.Replied s' slot reply := by
  have both := related.procs slot
  unfold Machine.Replied
  cases running : s.procs slot with
  | none =>
    rw [running] at both
    cases running' : s'.procs slot with
    | none => simp
    | some t' => rw [running'] at both; cases both
  | some t =>
    rw [running] at both
    cases running' : s'.procs slot with
    | none => rw [running'] at both; cases both
    | some t' =>
      rw [running'] at both
      cases both with
      | some alike => simpa using (sim.view t t' alike).done_iff reply

/-- The same step, between related states. -/
structure Beside (relates : T → T' → Prop) (entry : Pool C A T W × Action K X E × Pool C A T W)
    (entry' : Pool C A T' W × Action K X E × Pool C A T' W) : Prop where
  before : Related relates entry.1 entry'.1
  action : entry.2.1 = entry'.2.1
  after : Related relates entry.2.2 entry'.2.2

/-- Every run has one of the other machine beside it, step by step. -/
theorem path (sim : Simulates m n relates) {w : W}
    {trace : List (Pool C A T W × Action K X E × Pool C A T W)} {s : Pool C A T W}
    (run : Transition.Path m.step (Pool.initial w) trace s) :
    ∃ trace' s', Transition.Path n.step (Pool.initial w) trace' s' ∧
      List.Forall₂ (Beside relates) trace trace' ∧ Related relates s s' := by
  induction run with
  | nil => exact ⟨[],Pool.initial w,.nil,.nil,initial w⟩
  | @snoc trace s t a _ taken ih =>
    obtain ⟨trace',s',run',beside,related⟩ := ih
    have both := sim.step related a
    rw [taken] at both
    cases h : n.step s' a with
    | none => rw [h] at both; cases both
    | some t' =>
      rw [h] at both
      cases both with
      | some after =>
        have last : List.Forall₂ (Beside relates) [(s,a,t)] [(s',a,t')] := .cons ⟨related,rfl,after⟩ .nil
        exact ⟨trace' ++ [(s',a,t')],t',.snoc run' h,List.rel_append beside last,after⟩

end Simulates

end Effect
