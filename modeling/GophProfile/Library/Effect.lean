import GophProfile.Library.Transition
import Mathlib.Logic.Function.Basic
import Mathlib.Logic.Relation

/-! Programs that issue calls and wait for the answers, and pools of processes that
interleave them over a shared world. A process type is anything that can be looked
at as "finished" or "waiting for a call"; programs are one, and a type of explicit
control points is another. -/
namespace Effect

variable {C : Type} {A : C → Type} {α β R : Type}

/-- A program issuing calls `c : C`, each answered by an `A c`, and returning an `α`. -/
inductive Prog (C : Type) (A : C → Type) (α : Type) where
  | done (value : α)
  | call (c : C) (next : A c → Prog C A α)

def Prog.bind : Prog C A α → (α → Prog C A β) → Prog C A β
  | .done value, f => f value
  | .call c next, f => .call c fun answer => (next answer).bind f

instance : Monad (Prog C A) where
  pure := .done
  bind := Prog.bind

def request (c : C) : Prog C A (A c) := .call c .done

@[simp] theorem bind_eq (p : Prog C A α) (f : α → Prog C A β) : p.bind f = p >>= f := rfl
@[simp] theorem pure_eq (value : α) : (pure value : Prog C A α) = .done value := rfl
@[simp] theorem done_bind (value : α) (f : α → Prog C A β) :
    (Prog.done value : Prog C A α) >>= f = f value := rfl
@[simp] theorem call_bind (c : C) (next : A c → Prog C A α) (f : α → Prog C A β) :
    Prog.call c next >>= f = .call c fun answer => next answer >>= f := rfl
@[simp] theorem request_bind (c : C) (f : A c → Prog C A β) :
    request c >>= f = .call c f := rfl

/-! ### One program run from start to end -/

section Runs
variable {W : Type} (performs : (c : C) → W → A c → W → Prop)

/-- A completed run with the calls it made and their answers. -/
inductive Runs : Prog C A α → W → List ((c : C) × A c) → α → W → Prop
  | done (value : α) (w : W) : Runs (.done value) w [] value w
  | call {c : C} {next : A c → Prog C A α} {w w' w'' : W} {answer : A c} {value : α}
      {calls : List ((c : C) × A c)} : performs c w answer w' →
      Runs (next answer) w' calls value w'' → Runs (.call c next) w (⟨c,answer⟩ :: calls) value w''

/-- A run given up after some of its calls: the process is gone, its effects stay. -/
inductive CutOff : Prog C A α → W → W → Prop
  | here (p : Prog C A α) (w : W) : CutOff p w w
  | later {c : C} {next : A c → Prog C A α} {w w' w'' : W} {answer : A c} :
      performs c w answer w' → CutOff (next answer) w' w'' → CutOff (.call c next) w w''

variable {performs}

theorem Runs.bind_split {p : Prog C A α} {f : α → Prog C A β} {w w'' : W} {result : β}
    {calls : List ((c : C) × A c)} (run : Runs performs (p >>= f) w calls result w'') :
    ∃ value w' first second, Runs performs p w first value w' ∧
      Runs performs (f value) w' second result w'' ∧ calls = first ++ second := by
  induction p generalizing w calls with
  | done value => exact ⟨value,w,[],calls,.done value w,run,rfl⟩
  | call c next ih =>
    cases run with
    | call performed rest =>
      obtain ⟨value,w',first,second,one,two,rfl⟩ := ih _ rest
      exact ⟨value,w',_ :: first,second,.call performed one,two,rfl⟩

theorem Runs.mono {performs' : (c : C) → W → A c → W → Prop} {p : Prog C A α} {w w' : W} {value : α}
    {calls : List ((c : C) × A c)} (run : Runs performs p w calls value w')
    (weaker : ∀ c w answer w', performs c w answer w' → performs' c w answer w') :
    Runs performs' p w calls value w' := by
  induction run with
  | done => exact .done _ _
  | call performed _ ih => exact .call (weaker _ _ _ _ performed) ih

theorem Runs.performed {p : Prog C A α} {w w' : W} {value : α} {calls : List ((c : C) × A c)}
    (run : Runs performs p w calls value w') {call : (c : C) × A c} (member : call ∈ calls) :
    ∃ before after, performs call.1 before call.2 after := by
  induction run with
  | done => contradiction
  | call performed _ ih =>
    rcases List.mem_cons.mp member with rfl | later
    · exact ⟨_,_,performed⟩
    · exact ih later

/-! ### What holds of a program wherever it is given up -/

/-- Wherever the program is given up it leaves a world in which `crash` holds, and when
it returns, `post` holds. -/
def Safe (performs : (c : C) → W → A c → W → Prop) (crash : W → Prop) (post : α → W → Prop) :
    Prog C A α → W → Prop
  | .done value, w => crash w ∧ post value w
  | .call c next, w => crash w ∧
    ∀ answer w', performs c w answer w' → Safe performs crash post (next answer) w'

section Safe
variable {crash : W → Prop} {post : α → W → Prop}

theorem Safe.bind {p : Prog C A α} {f : α → Prog C A β} {final : β → W → Prop} {w : W}
    (first : Safe performs crash post p w)
    (rest : ∀ value w', post value w' → Safe performs crash final (f value) w') :
    Safe performs crash final (p >>= f) w := by
  induction p generalizing w with
  | done value => exact rest value w first.2
  | call c next ih =>
    exact ⟨first.1,fun answer w' performed => ih answer (first.2 answer w' performed)⟩

theorem Safe.request {c : C} {f : A c → Prog C A β} {final : β → W → Prop} {w : W} (here : crash w)
    (next : ∀ answer w', performs c w answer w' → Safe performs crash final (f answer) w') :
    Safe performs crash final (request c >>= f) w := ⟨here,next⟩

theorem Safe.cutOff {p : Prog C A α} {w w' : W} (safe : Safe performs crash post p w)
    (cut : CutOff performs p w w') : crash w' := by
  induction cut with
  | here p w => cases p <;> exact safe.1
  | later performed _ ih => exact ih (safe.2 _ _ performed)

theorem Safe.runs {p : Prog C A α} {w w' : W} {value : α} {calls : List ((c : C) × A c)}
    (safe : Safe performs crash post p w) (run : Runs performs p w calls value w') : post value w' := by
  induction run with
  | done => exact safe.2
  | call performed _ ih => exact ih (safe.2 _ _ performed)

end Safe

/-- The program is begun again and again and given up each time; `kept` holds whenever
it is begun again. -/
abbrev Retried (performs : (c : C) → W → A c → W → Prop) (kept : W → Prop) (p : Prog C A α) :
    W → W → Prop :=
  Relation.ReflTransGen fun w w' => CutOff performs p w w' ∧ kept w'

/-- What every attempt leaves behind, it is begun again with. -/
theorem Retried.invariant {kept : W → Prop} {p : Prog C A α} {w w' : W}
    (retried : Retried performs kept p w w') (progress : W → Prop) (start : progress w) (first : kept w)
    (attempt : ∀ w w', progress w → kept w → CutOff performs p w w' → progress w') :
    progress w' ∧ kept w' := by
  induction retried with
  | refl => exact ⟨start,first⟩
  | tail _ again ih => exact ⟨attempt _ _ ih.1 ih.2 again.1,again.2⟩

/-! ### Runs that are computed -/

variable {X : Type}

/-- Follow a program through a list of choices, and see where it stands then. -/
def Prog.follow (perform : (c : C) → X → W → Option (A c × W)) :
    List X → Prog C A α → W → Option (Prog C A α × W)
  | [], p, w => some (p,w)
  | _ :: _, .done _, _ => none
  | choice :: choices, .call c next, w =>
    (perform c choice w).bind fun result => follow perform choices (next result.1) result.2

def Prog.isDone : Prog C A α → Bool
  | .done _ => true
  | .call _ _ => false

theorem Prog.isDone_iff {p : Prog C A α} : p.isDone = true ↔ ∃ value, p = .done value := by
  cases p with
  | done value => exact ⟨fun _ => ⟨value,rfl⟩,fun _ => rfl⟩
  | call c next => exact ⟨fun done => by contradiction,fun ⟨value,equal⟩ => by contradiction⟩

variable {perform : (c : C) → X → W → Option (A c × W)}

theorem Prog.follow_cutOff
    (adequate : ∀ c choice w answer w', perform c choice w = some (answer,w') → performs c w answer w')
    {choices : List X} {p q : Prog C A α} {w w' : W}
    (followed : Prog.follow perform choices p w = some (q,w')) : CutOff performs p w w' := by
  induction choices generalizing p w with
  | nil =>
    cases followed
    exact .here _ _
  | cons choice choices ih =>
    cases p with
    | done value => contradiction
    | call c next =>
      obtain ⟨⟨answer,after⟩,performed,rest⟩ := Option.bind_eq_some_iff.mp followed
      exact .later (adequate c choice w answer after performed) (ih rest)

theorem Prog.follow_runs
    (adequate : ∀ c choice w answer w', perform c choice w = some (answer,w') → performs c w answer w')
    {choices : List X} {p : Prog C A α} {value : α} {w w' : W}
    (followed : Prog.follow perform choices p w = some (.done value,w')) :
    ∃ calls, Runs performs p w calls value w' := by
  induction choices generalizing p w with
  | nil =>
    cases followed
    exact ⟨[],.done value w'⟩
  | cons choice choices ih =>
    cases p with
    | done value => contradiction
    | call c next =>
      obtain ⟨⟨answer,after⟩,performed,rest⟩ := Option.bind_eq_some_iff.mp followed
      obtain ⟨calls,run⟩ := ih rest
      exact ⟨_,.call (adequate c choice w answer after performed) run⟩

end Runs

/-- Every call is allowed as long as every answer so far was acceptable, and an
acceptable run ends in a value that meets `post`. -/
def Meets (answers : (c : C) → A c → Prop) (allowed : C → Prop) (post : α → Prop) :
    Prog C A α → Prop
  | .done value => post value
  | .call c next => allowed c ∧ ∀ answer, answers c answer → Meets answers allowed post (next answer)

section Meets
variable {answers : (c : C) → A c → Prop} {allowed : C → Prop} {post : α → Prop}

theorem Meets.bind {p : Prog C A α} {f : α → Prog C A β} {final : β → Prop}
    (first : Meets answers allowed post p)
    (rest : ∀ value, post value → Meets answers allowed final (f value)) :
    Meets answers allowed final (p >>= f) := by
  induction p with
  | done value => exact rest value first
  | call c next ih => exact ⟨first.1,fun answer good => ih answer (first.2 answer good)⟩

end Meets

/-- Every run whose answers are acceptable ends with calls and a value that meet `post`. -/
def Ends (answers : (c : C) → A c → Prop) :
    Prog C A α → (List ((c : C) × A c) → α → Prop) → Prop
  | .done value, post => post [] value
  | .call c next, post => ∀ answer, answers c answer →
    Ends answers (next answer) fun calls value => post (⟨c,answer⟩ :: calls) value

section Ends
variable {answers : (c : C) → A c → Prop} {post post' : List ((c : C) × A c) → α → Prop}

theorem Ends.mono {p : Prog C A α} (ends : Ends answers p post)
    (weaker : ∀ calls value, post calls value → post' calls value) : Ends answers p post' := by
  induction p generalizing post post' with
  | done value => exact weaker _ _ ends
  | call c next ih => exact fun answer good => ih answer (ends answer good) fun _ _ => weaker _ _

theorem Ends.restrict {fewer : (c : C) → A c → Prop} {p : Prog C A α} (ends : Ends answers p post)
    (less : ∀ c answer, fewer c answer → answers c answer) : Ends fewer p post := by
  induction p generalizing post with
  | done value => exact ends
  | call c next ih => exact fun answer good => ih answer (ends answer (less c answer good))

/-- With an acceptable answer to every call the program has a run. -/
theorem exists_runs (p : Prog C A α) (answered : ∀ c, ∃ answer, answers c answer) :
    ∃ calls value, Runs (fun c (_ : Unit) answer _ => answers c answer) p () calls value () := by
  induction p with
  | done value => exact ⟨[],value,.done value ()⟩
  | call c next ih =>
    obtain ⟨answer,good⟩ := answered c
    obtain ⟨calls,value,run⟩ := ih answer
    exact ⟨_,value,.call good run⟩

theorem Ends.of_forall {p : Prog C A α} (all : ∀ calls value, post calls value) :
    Ends answers p post := by
  induction p generalizing post with
  | done value => exact all _ _
  | call c next ih => exact fun answer _ => ih answer fun _ _ => all _ _

theorem Ends.bind {p : Prog C A α} {f : α → Prog C A β} {final : List ((c : C) × A c) → β → Prop}
    (first : Ends answers p fun calls value =>
      Ends answers (f value) fun more result => final (calls ++ more) result) :
    Ends answers (p >>= f) final := by
  induction p generalizing final with
  | done value => exact first
  | call c next ih => exact fun answer good => ih answer (first answer good)

theorem Ends.runs {W : Type} {p : Prog C A α} {w w' : W} {value : α} {calls : List ((c : C) × A c)}
    (ends : Ends answers p post)
    (run : Runs (fun c _ answer _ => answers c answer) p w calls value w') : post calls value := by
  induction run generalizing post with
  | done => exact ends
  | call good _ ih => exact ih (ends _ good)

end Ends

end Effect
