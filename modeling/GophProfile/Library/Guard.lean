import GophProfile.Library.Pool

/-! A stricter world: some calls it does not take, and answers them in a way of its own. Where no
running process ever makes such a call, the two worlds cannot be told apart. -/
namespace Transition

variable {S A : Type} {step step' : S → A → Option S} {allowed : S → A → Prop} {start : S}

/-- Two step functions that agree on all that one of them reaches have the same runs. -/
theorem Path.agree (same : ∀ s a, Reachable step allowed start s → allowed s a → step' s a = step s a)
    {trace : List (S × A × S)} {s : S} (all : ∀ entry ∈ trace, allowed entry.1 entry.2.1) :
    Path step' start trace s ↔ Path step start trace s := by
  constructor
  · intro path
    induction path with
    | nil => exact .nil
    | @snoc trace s t a before taken ih =>
      have earlier := ih fun entry member => all entry (List.mem_append_left _ member)
      have permitted := all (s,a,t) (List.mem_append_right _ (List.mem_singleton.mpr rfl))
      have reached := earlier.reachable fun entry member => all entry (List.mem_append_left _ member)
      rw [same s a reached permitted] at taken
      exact .snoc earlier taken
  · intro path
    induction path with
    | nil => exact .nil
    | @snoc trace s t a before taken ih =>
      have permitted := all (s,a,t) (List.mem_append_right _ (List.mem_singleton.mpr rfl))
      have reached := before.reachable fun entry member => all entry (List.mem_append_left _ member)
      rw [← same s a reached permitted] at taken
      exact .snoc (ih fun entry member => all entry (List.mem_append_left _ member)) taken

end Transition

namespace Effect.Machine

variable {C : Type} {A : C → Type} {R T W K X E : Type}

def guarded (m : Machine C A R T W K X E) (accepts : C → Bool)
    (refuse : (c : C) → X → W → Option (A c × W)) : Machine C A R T W K X E :=
  { m with perform := fun c choice w => if accepts c then m.perform c choice w else refuse c choice w }

/-- A step in a state in which every process waits for a call that is taken. -/
theorem guarded_step {m : Machine C A R T W K X E} {accepts : C → Bool}
    {refuse : (c : C) → X → W → Option (A c × W)} {s : Pool C A T W}
    (accepted : ∀ slot t c next, s.procs slot = some t → m.view t = .call c next → accepts c = true)
    (a : Action K X E) : (m.guarded accepts refuse).step s a = m.step s a := by
  cases a with
  | start slot command => rfl
  | crash slot => rfl
  | environment event => rfl
  | advance slot choice =>
    simp only [step,guarded]
    cases running : s.procs slot with
    | none => rfl
    | some t =>
      cases seen : m.view t with
      | done reply => simp only [seen]
      | call c next =>
        have taken := accepted slot t c next running seen
        simp only [seen,if_pos taken]

/-- Nobody notices a guard over calls that are not made. -/
theorem guarded_path {m : Machine C A R T W K X E} {accepts : C → Bool}
    {refuse : (c : C) → X → W → Option (A c × W)} {allowed : Pool C A T W → Action K X E → Prop}
    {w : W}
    (accepted : ∀ s, Transition.Reachable m.step allowed (Pool.initial w) s → ∀ slot t c next,
      s.procs slot = some t → m.view t = .call c next → accepts c = true)
    {trace : List (Pool C A T W × Action K X E × Pool C A T W)} {s : Pool C A T W}
    (all : ∀ entry ∈ trace, allowed entry.1 entry.2.1) :
    Transition.Path (m.guarded accepts refuse).step (Pool.initial w) trace s ↔
      Transition.Path m.step (Pool.initial w) trace s :=
  Transition.Path.agree (fun s a reached _ => guarded_step (accepted s reached) a) all

end Effect.Machine
