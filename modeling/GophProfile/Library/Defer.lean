import Mathlib.Data.List.Basic

/-! Deferred calls: a function opens things one after the other, defers the closing of each,
and closes them when it returns. -/
namespace Defer

/-- What a function has opened, what it has yet to close, the last first, and what it has
closed, in the order of closing. -/
structure Frame (ρ : Type) where
  opened : List ρ
  deferred : List ρ
  closed : List ρ

variable {ρ : Type}

def Frame.empty : Frame ρ := ⟨[],[],[]⟩

def Frame.defer (f : Frame ρ) (r : ρ) : Frame ρ := { f with opened := f.opened ++ [r], deferred := r :: f.deferred }

/-- The next deferred call is made. -/
def Frame.next (f : Frame ρ) : Option (Frame ρ) :=
  match f.deferred with
  | [] => none
  | r :: rest => some { f with deferred := rest, closed := f.closed ++ [r] }

/-- Everything opened is closed or waits for it, the last opened closed first. -/
def Frame.Balanced (f : Frame ρ) : Prop := f.opened.reverse = f.closed ++ f.deferred

/-- Nothing has been closed yet. -/
def Frame.Open (f : Frame ρ) : Prop := f.closed = [] ∧ f.opened.reverse = f.deferred

theorem open_empty : (Frame.empty : Frame ρ).Open := ⟨rfl,rfl⟩

theorem Frame.Open.defer {f : Frame ρ} (h : f.Open) (r : ρ) : (f.defer r).Open :=
  ⟨h.1,by simp [Frame.defer,h.2]⟩

theorem Frame.Open.balanced {f : Frame ρ} (h : f.Open) : f.Balanced := by
  rw [Frame.Balanced,h.1,h.2]
  rfl

theorem Frame.Balanced.next {f g : Frame ρ} (h : f.Balanced) (taken : f.next = some g) :
    g.Balanced ∧ g.opened = f.opened ∧ ∀ r, r ∈ f.closed → r ∈ g.closed := by
  unfold Frame.next at taken
  split at taken
  · contradiction
  · next r rest waiting =>
    cases taken
    refine ⟨?_,rfl,fun r member => List.mem_append_left _ member⟩
    rw [Frame.Balanced,h,waiting]
    simp

theorem Frame.Balanced.done {f : Frame ρ} (h : f.Balanced) (none : f.next = none) : f.closed = f.opened.reverse := by
  unfold Frame.next at none
  split at none
  · next empty => rw [h,empty,List.append_nil]
  · contradiction

end Defer
