import Mathlib.Data.List.Induction
import Mathlib.Logic.Basic

/-! Runs of a system given by a partial step function. An action that the system
refuses has no successor, so a run records only steps that were really taken. -/
namespace Transition

variable {S A : Type}

/-- States reached from `start` by steps that all meet `allowed`, which sees the
state before the step and the action. -/
inductive Reachable (step : S → A → Option S) (allowed : S → A → Prop) (start : S) : S → Prop
  | start : Reachable step allowed start start
  | next {s t : S} {a : A} : Reachable step allowed start s → allowed s a →
      step s a = some t → Reachable step allowed start t

/-- A finite run with the states on both sides of every step, latest step last. -/
inductive Path (step : S → A → Option S) (start : S) : List (S × A × S) → S → Prop
  | nil : Path step start [] start
  | snoc {trace : List (S × A × S)} {s t : S} {a : A} : Path step start trace s →
      step s a = some t → Path step start (trace ++ [(s,a,t)]) t

variable {step : S → A → Option S} {allowed : S → A → Prop} {start : S}

theorem Reachable.invariant (property : S → Prop) (initial : property start)
    (preserved : ∀ s a t, Reachable step allowed start s → property s → allowed s a →
      step s a = some t → property t)
    {s : S} (reached : Reachable step allowed start s) : property s := by
  induction reached with
  | start => exact initial
  | next before permitted taken ih => exact preserved _ _ _ before ih permitted taken

/-- Every step is taken from a state that is itself reachable. -/
theorem Reachable.recorded {s : S} (reached : Reachable step allowed start s) :
    Reachable step (fun s a => Reachable step allowed start s ∧ allowed s a) start s := by
  induction reached with
  | start => exact .start
  | next before permitted taken ih => exact .next ih ⟨before,permitted⟩ taken

theorem Reachable.mono {s : S} {allowed' : S → A → Prop} (reached : Reachable step allowed start s)
    (weaker : ∀ s a, allowed s a → allowed' s a) : Reachable step allowed' start s := by
  induction reached with
  | start => exact .start
  | next _ permitted taken ih => exact .next ih (weaker _ _ permitted) taken

theorem Path.reachable {trace : List (S × A × S)} {s : S} (path : Path step start trace s)
    (all : ∀ entry ∈ trace, allowed entry.1 entry.2.1) : Reachable step allowed start s := by
  induction path with
  | nil => exact .start
  | snoc _ taken ih =>
    have earlier := ih (fun entry member => all entry (List.mem_append_left _ member))
    exact .next earlier (all _ (List.mem_append_right _ (List.mem_singleton.mpr rfl))) taken

/-- Every entry of a run is a step of the system out of a reachable state. -/
theorem Path.entry (allowed : S → A → Prop) {trace : List (S × A × S)} {s : S} (path : Path step start trace s)
    (all : ∀ entry ∈ trace, allowed entry.1 entry.2.1) {entry : S × A × S} (member : entry ∈ trace) :
    Reachable step allowed start entry.1 ∧ step entry.1 entry.2.1 = some entry.2.2 := by
  induction path with
  | nil => simp at member
  | snoc before taken ih =>
    have earlier := fun e (inside : e ∈ _) => all e (List.mem_append_left _ inside)
    rcases List.mem_append.mp member with old | new
    · exact ih earlier old
    · obtain rfl := List.mem_singleton.mp new
      exact ⟨before.reachable earlier,taken⟩

theorem Path.last {trace : List (S × A × S)} {s s' t : S} {a : A}
    (path : Path step start (trace ++ [(s,a,s')]) t) :
    Path step start trace s ∧ step s a = some s' ∧ t = s' := by
  generalize whole : trace ++ [(s,a,s')] = all at path
  cases path with
  | nil => simp at whole
  | snoc before taken =>
    obtain ⟨rfl,same⟩ := List.append_inj' whole rfl
    cases same
    exact ⟨before,taken,rfl⟩

/-- A run up to one of its steps. -/
theorem Path.before {before after : List (S × A × S)} {s s' t : S} {a : A}
    (path : Path step start (before ++ (s,a,s') :: after) t) :
    Path step start before s ∧ step s a = some s' := by
  induction after using List.reverseRecOn generalizing t with
  | nil => exact ⟨path.last.1,path.last.2.1⟩
  | append_singleton after entry ih =>
    rw [← List.cons_append,← List.append_assoc] at path
    exact ih path.last.1

/-- What a step has brought about, and no step undoes, holds at the end of the run. -/
theorem Path.onwards {before after : List (S × A × S)} {s s' t : S} {a : A}
    (path : Path step start (before ++ (s,a,s') :: after) t) (property : S → Prop) (here : property s')
    (stable : ∀ u b v, property u → step u b = some v → property v) : property t := by
  induction after using List.reverseRecOn generalizing t with
  | nil => exact path.last.2.2 ▸ here
  | append_singleton after entry ih =>
    obtain ⟨u,b,v⟩ := entry
    rw [← List.cons_append,← List.append_assoc] at path
    obtain ⟨shorter,taken,rfl⟩ := path.last
    exact stable u b t (ih shorter) taken

/-- What a step of the whole is for one of its parts. -/
def partStep {S' A' : Type} (view : S → S') (act : S → A → S → Option A') (entry : S × A × S) : Option (S' × A' × S') :=
  (act entry.1 entry.2.1 entry.2.2).map fun b => (view entry.1,b,view entry.2.2)

theorem mem_part {S' A' : Type} {view : S → S'} {act : S → A → S → Option A'} {trace : List (S × A × S)}
    {entry : S' × A' × S'} : entry ∈ trace.filterMap (partStep view act) ↔
      ∃ s a t b, (s,a,t) ∈ trace ∧ act s a t = some b ∧ entry = (view s,b,view t) := by
  rw [List.mem_filterMap]
  constructor
  · rintro ⟨⟨s,a,t⟩,member,does⟩
    obtain ⟨b,act,same⟩ := Option.map_eq_some_iff.mp does
    exact ⟨s,a,t,b,member,act,same.symm⟩
  · rintro ⟨s,a,t,b,member,act,rfl⟩
    exact ⟨(s,a,t),member,by simp [partStep,act]⟩

/-- Every run of the whole is a run of the part. -/
theorem Path.part {S' A' : Type} {step' : S' → A' → Option S'} (view : S → S') (act : S → A → S → Option A')
    (moves : ∀ s a t b, step s a = some t → act s a t = some b → step' (view s) b = some (view t))
    (rests : ∀ s a t, step s a = some t → act s a t = none → view t = view s)
    {trace : List (S × A × S)} {s : S} (path : Path step start trace s) :
    Path step' (view start) (trace.filterMap (partStep view act)) (view s) := by
  induction path with
  | nil => exact .nil
  | @snoc trace s t a _ taken ih =>
    rw [List.filterMap_append]
    cases does : act s a t with
    | none =>
      have silent : [(s,a,t)].filterMap (partStep view act) = [] := by simp [partStep,does]
      rw [silent,List.append_nil,rests s a t taken does]
      exact ih
    | some b =>
      have entry : [(s,a,t)].filterMap (partStep view act) = [(view s,b,view t)] := by simp [partStep,does]
      rw [entry]
      exact .snoc ih (moves s a t b taken does)

/-- Every step meets a condition on itself and on the run before it. -/
def Throughout (condition : List (S × A × S) → S → A → Prop) (trace : List (S × A × S)) : Prop :=
  ∀ before s a s' after, trace = before ++ (s,a,s') :: after → condition before s a

theorem throughout_snoc {condition : List (S × A × S) → S → A → Prop} {trace : List (S × A × S)}
    {s s' : S} {a : A} (all : Throughout condition (trace ++ [(s,a,s')])) :
    Throughout condition trace ∧ condition trace s a := by
  constructor
  · rintro before s₁ a₁ s₂ after rfl
    exact all before s₁ a₁ s₂ (after ++ [(s,a,s')]) (by simp)
  · exact all trace s a s' [] rfl

theorem Throughout.of_all {condition : List (S × A × S) → S → A → Prop} {trace : List (S × A × S)}
    (all : ∀ entry ∈ trace, ∀ before, condition before entry.1 entry.2.1) :
    Throughout condition trace := by
  rintro before s a s' after rfl
  exact all (s,a,s') (by simp) before

theorem Throughout.shorter {condition : List (S × A × S) → S → A → Prop} {before trace : List (S × A × S)}
    (all : Throughout condition trace) (part : before <+: trace) : Throughout condition before := by
  obtain ⟨rest,rfl⟩ := part
  rintro first s a s' after rfl
  exact all first s a s' (after ++ rest) (by simp)

/-- Follow a list of actions, stopping at the first one the system refuses. -/
def execute (step : S → A → Option S) : S → List A → Option S
  | s, [] => some s
  | s, a :: actions => (step s a).bind fun t => execute step t actions

theorem execute_append {s u v : S} {actions more : List A} (first : execute step s actions = some u)
    (second : execute step u more = some v) : execute step s (actions ++ more) = some v := by
  induction actions generalizing s with
  | nil => exact Option.some.inj first ▸ second
  | cons a actions ih =>
    obtain ⟨middle,taken,rest⟩ := Option.bind_eq_some_iff.mp first
    rw [List.cons_append,execute,taken]
    exact ih rest

/-- The system with every step refused that is not allowed. -/
def guarded (allowed : S → A → Prop) [∀ s a, Decidable (allowed s a)] (step : S → A → Option S)
    (s : S) (a : A) : Option S :=
  if allowed s a then step s a else none

theorem Path.of_guarded [∀ s a, Decidable (allowed s a)] {trace : List (S × A × S)} {s : S}
    (path : Path (guarded allowed step) start trace s) :
    Path step start trace s ∧ ∀ entry ∈ trace, allowed entry.1 entry.2.1 := by
  induction path with
  | nil => exact ⟨.nil,by simp⟩
  | snoc _ taken ih =>
    unfold guarded at taken
    split at taken
    · next permitted =>
      refine ⟨.snoc ih.1 taken,?_⟩
      intro entry member
      rcases List.mem_append.mp member with old | new
      · exact ih.2 entry old
      · obtain rfl := List.mem_singleton.mp new
        exact permitted
    · contradiction

theorem Path.execute {actions : List A} {trace : List (S × A × S)} {s t : S}
    (path : Path step start trace s) (run : execute step s actions = some t) :
    ∃ rest, Path step start (trace ++ rest) t ∧ rest.map (fun entry => entry.2.1) = actions := by
  induction actions generalizing s trace with
  | nil => exact ⟨[],by simpa [← Option.some.inj run] using path,rfl⟩
  | cons a actions ih =>
    obtain ⟨middle,taken,rest⟩ := Option.bind_eq_some_iff.mp run
    obtain ⟨later,path,same⟩ := ih (.snoc path taken) rest
    exact ⟨(s,a,middle) :: later,by simpa using path,by rw [List.map_cons,same]⟩

/-- A list of actions that goes through under the guard, and ends where a test is met. -/
theorem exists_path (step : S → A → Option S) (allowed : S → A → Prop) (start : S)
    (actions : List A) (test : S → Bool) [∀ s a, Decidable (allowed s a)]
    (run : (execute (guarded allowed step) start actions).any test = true) :
    ∃ trace s, Path step start trace s ∧ (∀ entry ∈ trace, allowed entry.1 entry.2.1) ∧
      test s = true ∧ trace.map (fun entry => entry.2.1) = actions := by
  cases finished : execute (guarded allowed step) start actions with
  | none =>
    rw [finished] at run
    contradiction
  | some s =>
    rw [finished] at run
    obtain ⟨trace,path,same⟩ := Path.execute .nil finished
    exact ⟨trace,s,path.of_guarded.1,path.of_guarded.2,run,same⟩

end Transition
