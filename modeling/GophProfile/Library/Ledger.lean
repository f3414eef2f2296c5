import GophProfile.Library.Pool
import Mathlib.Algebra.BigOperators.Group.List.Basic
import Mathlib.Algebra.Order.Ring.Int
import Mathlib.Data.List.Nodup

/-! What a pool keeps account of. A quantity of the world that every call only adds to is, however
the processes interleave, the sum of what each of them has added; what a process has added follows
from its program alone. -/
namespace Effect

variable {C : Type} {A : C → Type} {α β R W K X E : Type}

/-! ### The calls of one program -/

/-- Calls with their answers, the first of them first. -/
abbrev Calls (C : Type) (A : C → Type) := List ((c : C) × A c)

/-- The calls that a program has made, whatever the answers, and what is left of it. -/
inductive Made : Prog C A α → Calls C A → Prog C A α → Prop
  | none (p : Prog C A α) : Made p [] p
  | call {c : C} {next : A c → Prog C A α} {answer : A c} {calls : Calls C A} {rest : Prog C A α} :
      Made (next answer) calls rest → Made (.call c next) (⟨c,answer⟩ :: calls) rest

theorem Made.snoc {p : Prog C A α} {calls : Calls C A} {c : C} {next : A c → Prog C A α}
    (made : Made p calls (.call c next)) (answer : A c) : Made p (calls ++ [⟨c,answer⟩]) (next answer) := by
  generalize left : Prog.call c next = rest at made
  induction made with
  | none p => exact left ▸ .call (.none _)
  | call _ ih => exact .call (ih left)

theorem Made.done {value : α} {calls : Calls C A} {rest : Prog C A α}
    (made : Made (.done value) calls rest) : calls = [] ∧ rest = .done value := by
  cases made
  exact ⟨rfl,rfl⟩

/-- What a program made of two has called when it is over. -/
theorem Made.bind {p : Prog C A α} {f : α → Prog C A β} {calls : Calls C A} {result : β}
    (made : Made (p >>= f) calls (.done result)) :
    ∃ value first second, Made p first (.done value) ∧ Made (f value) second (.done result) ∧
      calls = first ++ second := by
  induction p generalizing calls with
  | done value => exact ⟨value,[],calls,.none _,made,rfl⟩
  | call c next ih =>
    rw [call_bind] at made
    cases made with
    | call rest =>
      obtain ⟨value,first,second,one,two,rfl⟩ := ih _ rest
      exact ⟨value,_,second,.call one,two,rfl⟩

/-- A program that begins with a call. -/
theorem Made.request {c : C} {next : A c → Prog C A α} {calls : Calls C A} {result : α}
    (made : Made (.call c next) calls (.done result)) :
    ∃ answer rest, Made (next answer) rest (.done result) ∧ calls = ⟨c,answer⟩ :: rest := by
  cases made with
  | call rest => exact ⟨_,_,rest,rfl⟩

/-- What every run of a program ends with, the calls it has made meet. -/
theorem Made.ends {answers : (c : C) → A c → Prop} {p : Prog C A α} {post : Calls C A → α → Prop}
    {calls : Calls C A} {value : α} (made : Made p calls (.done value)) (ends : Ends answers p post)
    (answered : ∀ c answer, answers c answer) : post calls value := by
  induction p generalizing calls post with
  | done result =>
    cases made
    exact ends
  | call c next ih =>
    obtain ⟨answer,rest,left,rfl⟩ := made.request
    exact @ih answer (fun calls value => post (⟨c,answer⟩ :: calls) value) rest left (ends answer (answered c answer))

/-! ### Stages -/

section Obeys
variable {S : Type} (stage : S → C → Option S)

/-- Through all its calls, whatever the answers, a program keeps to the stages, and it ends in one
that meets `final`. -/
def Obeys (final : S → α → Prop) : S → Prog C A α → Prop
  | now, .done value => final now value
  | now, .call c next => ∃ later, stage now c = some later ∧ ∀ answer, Obeys final later (next answer)

/-- The stage that calls lead to. -/
def stageAfter (now : S) (calls : Calls C A) : Option S :=
  calls.foldlM (fun s call => stage s call.1) now

variable {stage} {final : S → α → Prop} {now : S}

theorem Obeys.bind {p : Prog C A α} {f : α → Prog C A β} {last : S → β → Prop}
    (first : Obeys stage final now p) (rest : ∀ later value, final later value → Obeys stage last later (f value)) :
    Obeys stage last now (p >>= f) := by
  induction p generalizing now with
  | done value => exact rest now value first
  | call c next ih =>
    obtain ⟨later,stepped,obeys⟩ := first
    exact ⟨later,stepped,fun answer => ih answer (obeys answer)⟩

theorem Obeys.made {p q : Prog C A α} {calls : Calls C A} (obeys : Obeys stage final now p)
    (made : Made p calls q) : ∃ later, stageAfter stage now calls = some later ∧ Obeys stage final later q := by
  induction made generalizing now with
  | none p => exact ⟨now,rfl,obeys⟩
  | call _ ih =>
    obtain ⟨later,stepped,rest⟩ := obeys
    obtain ⟨last,after,left⟩ := ih (rest _)
    refine ⟨last,?_,left⟩
    rw [stageAfter,List.foldlM_cons,stepped]
    exact after

end Obeys

/-! ### The calls of a pool -/

/-- The calls of one process of a pool. -/
def Pool.calls {T : Type} (s : Pool C A T W) (slot : Nat) : Calls C A :=
  s.log.filterMap fun entry => if entry.1 = slot then some entry.2 else none

namespace Machine

variable {m : Machine C A R (Prog C A R) W K X E} {s : Pool C A (Prog C A R) W} {w : W}

theorem calls_started {T : Type} (s : Pool C A T W) (slot i : Nat) (t : Option T) :
    (s.setProc slot t).calls i = s.calls i := rfl

theorem calls_answered {T : Type} (s : Pool C A T W) (slot i : Nat) (c : C) (answer : A c) (t : T) (w : W) :
    (s.answered slot c answer t w).calls i = s.calls i ++ if slot = i then [⟨c,answer⟩] else [] := by
  by_cases same : slot = i <;> simp [Pool.calls,same]

abbrev Trace (C : Type) (A : C → Type) (R W K X E : Type) :=
  List (Pool C A (Prog C A R) W × Action K X E × Pool C A (Prog C A R) W)

/-- What is started in which slot. -/
def startOf : Action K X E → Option (Nat × K)
  | .start slot command => some (slot,command)
  | _ => none

/-- The slots in use and the commands they were started with, in the order of starting. -/
def started (trace : Trace C A R W K X E) : List (Nat × K) := trace.filterMap fun entry => startOf entry.2.1

theorem started_snoc (trace : Trace C A R W K X E)
    (entry : Pool C A (Prog C A R) W × Action K X E × Pool C A (Prog C A R) W) :
    started (trace ++ [entry]) = started trace ++ (startOf entry.2.1).toList := by
  rw [started,List.filterMap_append]
  cases begun : startOf entry.2.1 <;> simp [started,begun]

/-- A slot in use holds what the calls made from it have left of the program it was started with. -/
structure Recorded (m : Machine C A R (Prog C A R) W K X E) (trace : Trace C A R W K X E)
    (s : Pool C A (Prog C A R) W) : Prop where
  distinct : ((started trace).map Prod.fst).Nodup
  running : ∀ i command, (i,command) ∈ started trace →
    ∃ p, s.procs i = some p ∧ Made (m.start command) (s.calls i) p
  silent : ∀ i, i ∉ (started trace).map Prod.fst → s.procs i = none ∧ s.calls i = []

theorem recorded {trace : Trace C A R W K X E} (programs : m.view = Prog.view)
    (run : Transition.Path m.step (Pool.initial w) trace s)
    (uncrashed : ∀ entry ∈ trace, ∀ slot, entry.2.1 ≠ .crash slot) : Recorded m trace s := by
  induction run with
  | nil => exact ⟨List.nodup_nil,by simp [started],fun i _ => ⟨rfl,rfl⟩⟩
  | @snoc trace s s' a before taken ih =>
    have ih := ih fun entry member => uncrashed entry (List.mem_append_left _ member)
    cases a with
    | start slot command =>
      obtain ⟨free,rfl⟩ := step_start taken
      have fresh : slot ∉ (started trace).map Prod.fst := by
        intro used
        obtain ⟨⟨i,other⟩,member,rfl⟩ := List.mem_map.mp used
        obtain ⟨p,busy,_⟩ := ih.running i other member
        rw [free] at busy
        contradiction
      have apart : ∀ {i k}, (i,k) ∈ started trace → i ≠ slot := by
        rintro i k member rfl
        exact fresh (List.mem_map_of_mem member)
      refine ⟨?_,fun i k member => ?_,fun i outside => ?_⟩
      · simpa [started_snoc,startOf] using List.Nodup.concat fresh ih.distinct
      · rw [started_snoc,List.mem_append] at member
        rcases member with old | new
        · rw [Pool.setProc_other _ _ (apart old)]
          exact ih.running i k old
        · obtain ⟨rfl,rfl⟩ : i = slot ∧ k = command := by simpa [startOf] using new
          refine ⟨_,Pool.setProc_same _ _ _,?_⟩
          rw [calls_started,(ih.silent i fresh).2]
          exact .none _
      · have both : i ∉ (started trace).map Prod.fst ∧ i ≠ slot := by
          simpa [started_snoc,startOf] using outside
        rw [Pool.setProc_other _ _ both.2]
        exact ih.silent i both.1
    | advance slot choice =>
      obtain ⟨t,c,next,answer,w',acting,seen,_,rfl⟩ := step_advance taken
      have same : started (trace ++ [(s,.advance slot choice,s.answered slot c answer (next answer) w')]) =
          started trace := by simp [started_snoc,startOf]
      rw [programs] at seen
      refine ⟨same ▸ ih.distinct,fun i k member => ?_,fun i outside => ?_⟩
      · obtain ⟨p,busy,made⟩ := ih.running i k (same ▸ member)
        rw [calls_answered]
        by_cases mine : slot = i
        · subst mine
          obtain rfl := Option.some.inj (busy.symm.trans acting)
          cases p with
          | done value => contradiction
          | call c' next' =>
            cases seen
            rw [if_pos rfl]
            exact ⟨_,Pool.answered_same _ _ _ _ _ _,made.snoc answer⟩
        · rw [Pool.answered_other _ _ _ _ _ (Ne.symm mine),if_neg mine,List.append_nil]
          exact ⟨p,busy,made⟩
      · obtain ⟨free,empty⟩ := ih.silent i (same ▸ outside)
        have other : slot ≠ i := by
          rintro rfl
          rw [free] at acting
          contradiction
        rw [Pool.answered_other _ _ _ _ _ (Ne.symm other),calls_answered,if_neg other,List.append_nil]
        exact ⟨free,empty⟩
    | crash slot => exact absurd rfl (uncrashed _ (List.mem_append_right _ List.mem_cons_self) slot)
    | environment event =>
      obtain ⟨w',_,rfl⟩ := step_environment taken
      have same : started (trace ++ [(s,.environment event,{ s with world := w' })]) = started trace := by
        simp [started_snoc,startOf]
      exact ⟨same ▸ ih.distinct,fun i k member => ih.running i k (same ▸ member),
        fun i outside => ih.silent i (same ▸ outside)⟩

/-- Every call adds its entry to the quantity, and nothing else changes it. -/
structure Keeps {M : Type} [AddCommMonoid M] (m : Machine C A R (Prog C A R) W K X E) (quantity : W → M)
    (entry : (c : C) × A c → M) : Prop where
  adds : ∀ c choice w answer w', m.perform c choice w = some (answer,w') →
    quantity w' = quantity w + entry ⟨c,answer⟩
  rests : ∀ event w w', m.environment event w = some w' → quantity w' = quantity w

section Balance
variable {M : Type} [AddCommMonoid M] {quantity : W → M} {entry : (c : C) × A c → M}

/-- What is logged is what the slots have logged. -/
theorem logged_sum {slots : List Nat} (distinct : slots.Nodup) (log : List (Nat × ((c : C) × A c)))
    (within : ∀ logged ∈ log, logged.1 ∈ slots) : (log.map fun logged => entry logged.2).sum =
      (slots.map fun i => ((log.filterMap fun logged => if logged.1 = i then some logged.2 else none).map entry).sum).sum := by
  induction log with
  | nil => simp
  | cons logged log ih =>
    have each : ∀ i, (((logged :: log).filterMap fun l => if l.1 = i then some l.2 else none).map entry).sum =
        (if logged.1 = i then entry logged.2 else 0) +
          ((log.filterMap fun l => if l.1 = i then some l.2 else none).map entry).sum := by
      intro i
      by_cases mine : logged.1 = i <;> simp [mine]
    have here : (slots.map fun i => if logged.1 = i then entry logged.2 else 0).sum = entry logged.2 := by
      rw [List.sum_map_eq_nsmul_single logged.1]
      · rw [List.count_eq_one_of_mem distinct (within logged List.mem_cons_self),if_pos rfl,one_nsmul]
      · intro i other _
        exact if_neg (Ne.symm other)
    rw [List.map_cons,List.sum_cons,ih fun l member => within l (List.mem_cons_of_mem _ member)]
    simp only [each,List.sum_map_add,here]

theorem quantity_logged (keeps : Keeps m quantity entry) {trace : Trace C A R W K X E}
    (run : Transition.Path m.step (Pool.initial w) trace s) :
    quantity s.world = quantity w + (s.log.map fun logged => entry logged.2).sum := by
  induction run with
  | nil => simp [Pool.initial]
  | snoc before taken ih =>
    rename_i a
    cases a with
    | start slot command =>
      obtain ⟨_,rfl⟩ := step_start taken
      exact ih
    | advance slot choice =>
      obtain ⟨t,c,next,answer,w',_,_,performed,rfl⟩ := step_advance taken
      rw [Pool.answered_world,keeps.adds c choice _ _ _ performed,ih]
      simp [add_assoc]
    | crash slot =>
      obtain ⟨_,rfl⟩ := step_crash taken
      exact ih
    | environment event =>
      obtain ⟨w',moved,rfl⟩ := step_environment taken
      exact (keeps.rests event _ _ moved).trans ih

/-- The quantity is the sum of what the processes have added. -/
theorem balance (keeps : Keeps m quantity entry) {trace : Trace C A R W K X E}
    (run : Transition.Path m.step (Pool.initial w) trace s) (records : Recorded m trace s) :
    quantity s.world =
      quantity w + ((started trace).map fun begun => ((s.calls begun.1).map entry).sum).sum := by
  have within : ∀ logged ∈ s.log, logged.1 ∈ (started trace).map Prod.fst := by
    intro logged member
    by_contra outside
    have empty := (records.silent logged.1 outside).2
    have inside : logged.2 ∈ s.calls logged.1 := List.mem_filterMap.mpr ⟨logged,member,by simp⟩
    rw [empty] at inside
    contradiction
  rw [quantity_logged keeps run,logged_sum records.distinct s.log within,List.map_map]
  rfl

end Balance

end Machine

end Effect
