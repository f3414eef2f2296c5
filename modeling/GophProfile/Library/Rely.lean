import GophProfile.Library.Pool

/-! Programs among others that run the same world: what a program promises for its reply when
between any two of its calls the world may move, as long as it only grows. -/
namespace Effect

variable {C : Type} {A : C → Type} {R S W K X E : Type}

section Relies
variable (grows : W → W → Prop) (performs : (c : C) → W → A c → W → Prop)

/-- Whatever the others do meanwhile, the reply meets `post`. -/
def Relies (post : R → W → Prop) : Prog C A R → W → Prop
  | .done value, w => ∀ w', grows w w' → post value w'
  | .call c next, w => ∀ w' answer w'', grows w w' → performs c w' answer w'' → Relies post (next answer) w''

variable {grows performs} {post : R → W → Prop}

/-- A promise survives whatever the others do. -/
theorem Relies.stable (trans : ∀ w w' w'', grows w w' → grows w' w'' → grows w w'') {p : Prog C A R} {w w' : W}
    (promise : Relies grows performs post p w) (grown : grows w w') : Relies grows performs post p w' := by
  cases p with
  | done value => exact fun last later => promise last (trans _ _ _ grown later)
  | call c next =>
    exact fun before answer after later performed =>
      promise before answer after (trans _ _ _ grown later) performed

end Relies

open Machine

/-- What a pool has to show for its programs to rely on each other. A reply is promised for the
command that the program was started with. -/
structure Rely (m : Machine C A R (Prog C A R) W K X E) (allowed : Pool C A (Prog C A R) W → Action K X E → Prop) where
  grows : W → W → Prop
  refl : ∀ w, grows w w
  trans : ∀ w w' w'', grows w w' → grows w' w'' → grows w w''
  performs : (c : C) → W → A c → W → Prop
  post : K → R → W → Prop
  view : m.view = Prog.view
  started : ∀ command w, Relies grows performs (post command) (m.start command) w
  answered : ∀ s slot choice c answer w, allowed s (.advance slot choice) →
    m.perform c choice s.world = some (answer,w) → performs c s.world answer w
  performed : ∀ c choice w answer w', m.perform c choice w = some (answer,w') → grows w w'
  moved : ∀ event w w', m.environment event w = some w' → grows w w'

namespace Rely

variable {m : Machine C A R (Prog C A R) W K X E} {allowed : Pool C A (Prog C A R) W → Action K X E → Prop}

theorem grown_step (o : Rely m allowed) {s s' : Pool C A (Prog C A R) W} {a : Action K X E}
    (taken : m.step s a = some s') : o.grows s.world s'.world := by
  cases a with
  | start slot command =>
    obtain ⟨_,rfl⟩ := step_start taken
    exact o.refl _
  | advance slot choice =>
    obtain ⟨p,c,next,answer,w,_,_,performed,rfl⟩ := step_advance taken
    exact o.performed c choice _ answer w performed
  | crash slot =>
    obtain ⟨_,rfl⟩ := step_crash taken
    exact o.refl _
  | environment event =>
    obtain ⟨w,moved,rfl⟩ := step_environment taken
    exact o.moved event _ w moved

variable {w : W} {trace : List (Pool C A (Prog C A R) W × Action K X E × Pool C A (Prog C A R) W)}
  {s : Pool C A (Prog C A R) W}

/-- The world has only grown. -/
theorem grown (o : Rely m allowed) (run : Transition.Path m.step (Pool.initial w) trace s) : o.grows w s.world := by
  induction run with
  | nil => exact o.refl w
  | snoc _ taken ih => exact o.trans _ _ _ ih (o.grown_step taken)

/-- Every program keeps to what was promised for its command. -/
theorem promised (o : Rely m allowed) (run : Transition.Path m.step (Pool.initial w) trace s)
    (all : ∀ entry ∈ trace, allowed entry.1 entry.2.1) {slot : Nat} {p : Prog C A R} (running : s.procs slot = some p) :
    ∃ command, latest trace slot = some command ∧ Relies o.grows o.performs (o.post command) p s.world := by
  refine Machine.history (fun trace s slot p => ∃ command, latest trace slot = some command ∧
    Relies o.grows o.performs (o.post command) p s.world) run allowed all ?_ ?_ ?_ running
  · intro trace s i command _ _ _
    refine ⟨command,?_,o.started command s.world⟩
    rw [latest_snoc,startedIn,if_pos rfl,Option.some_or]
  · rintro trace s i choice p c next answer w' _ _ may _ seen performed ⟨command,last,promise⟩
    refine ⟨command,?_,?_⟩
    · rw [latest_snoc]
      exact last
    · rw [o.view] at seen
      cases p with
      | done value => contradiction
      | call c' next' =>
        cases seen
        exact promise s.world answer w' (o.refl _) (o.answered s i choice c answer w' may performed)
  · rintro trace s s' a i p taken _ acting ⟨command,last,promise⟩
    have idle : startedIn i a = none := by
      cases a with
      | start slot other =>
        have free := (step_start taken).1
        refine if_neg fun same => ?_
        rw [same,acting] at free
        contradiction
      | advance | crash | environment => rfl
    refine ⟨command,?_,promise.stable o.trans (o.grown_step taken)⟩
    rw [latest_snoc,idle]
    exact last

/-- Every reply of the pool is as promised. -/
theorem replied (o : Rely m allowed) (run : Transition.Path m.step (Pool.initial w) trace s)
    (all : ∀ entry ∈ trace, allowed entry.1 entry.2.1) {slot : Nat} {value : R}
    (returned : s.procs slot = some (.done value)) :
    ∃ command, latest trace slot = some command ∧ o.post command value s.world := by
  obtain ⟨command,last,promise⟩ := o.promised run all returned
  exact ⟨command,last,promise s.world (o.refl _)⟩

end Rely

end Effect
