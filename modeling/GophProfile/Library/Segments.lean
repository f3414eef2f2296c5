import Mathlib.Data.List.Chain
import Mathlib.Data.List.Infix
import Mathlib.Data.List.TakeWhile

/-! Strings made of segments: what a separator that no segment contains determines,
and where a pattern of two symbols can occur in a concatenation. -/
namespace Segments

variable {α : Type}

/-- The first separator ends the first segment. -/
theorem append_separator_inj {separator : α} {a b c d : List α} (ha : separator ∉ a)
    (hb : separator ∉ b) (same : a ++ separator :: c = b ++ separator :: d) : a = b ∧ c = d := by
  classical
  have head : ∀ l rest : List α, separator ∉ l →
      (l ++ separator :: rest).takeWhile (· ≠ separator) = l := by
    intro l rest absent
    have inside : ∀ x ∈ l, decide (x ≠ separator) = true := by
      intro x member
      have : x ≠ separator := fun equal => absent (equal ▸ member)
      simpa using this
    rw [List.takeWhile_append_of_pos inside]
    simp
  have first : a = b := by
    rw [← head a c ha,← head b d hb,same]
  subst first
  exact ⟨rfl,(List.cons.inj (List.append_cancel_left same)).2⟩

/-- The symbols `x`, `y` do not follow each other anywhere. -/
abbrev PairFree (x y : α) (l : List α) : Prop := List.IsChain (fun a b => ¬(a = x ∧ b = y)) l

theorem pair_infix_iff {x y : α} {l : List α} : [x,y] <:+: l ↔ ¬PairFree x y l := by
  constructor
  · intro inside free
    simpa using free.infix inside
  · intro found
    induction l with
    | nil => exact absurd List.isChain_nil found
    | cons head tail ih =>
      cases tail with
      | nil => exact absurd (List.isChain_singleton head) found
      | cons next rest =>
        by_cases here : head = x ∧ next = y
        · obtain ⟨rfl,rfl⟩ := here
          exact ⟨[],rest,rfl⟩
        · have later : ¬PairFree x y (next :: rest) := by
            intro free
            exact found (List.isChain_cons_cons.mpr ⟨here,free⟩)
          exact (ih later).trans (List.suffix_cons head _).isInfix

theorem pairFree_of_first {x y : α} {l : List α} (absent : x ∉ l) : PairFree x y l := by
  induction l with
  | nil => exact List.isChain_nil
  | cons head tail ih =>
    rw [List.mem_cons,not_or] at absent
    refine List.isChain_cons.mpr ⟨?_,ih absent.2⟩
    intro next _ both
    exact absent.1 both.1.symm

/-- A symbol outside the pattern separates its occurrences. -/
theorem pairFree_separator {x y separator : α} {a b : List α} (hx : separator ≠ x)
    (hy : separator ≠ y) : PairFree x y (a ++ separator :: b) ↔ PairFree x y a ∧ PairFree x y b := by
  rw [PairFree,List.isChain_append,List.isChain_cons]
  constructor
  · rintro ⟨left,⟨-,right⟩,-⟩
    exact ⟨left,right⟩
  · rintro ⟨left,right⟩
    refine ⟨left,⟨fun _ _ both => hx both.1,right⟩,?_⟩
    intro last _ first member both
    simp only [List.head?_cons,Option.mem_some_iff] at member
    exact hy (member.trans both.2)

/-- Separated segments that are neither empty nor contain the separator never put
two separators next to each other. -/
theorem pairFree_segments {separator : α} {a b : List α} (ha : separator ∉ a)
    (hb : PairFree separator separator b) (starts : ∀ first ∈ b.head?, first ≠ separator) :
    PairFree separator separator (a ++ separator :: b) := by
  rw [PairFree,List.isChain_append,List.isChain_cons]
  refine ⟨pairFree_of_first ha,⟨fun first member both => starts first member both.2,hb⟩,?_⟩
  intro last member _ _ both
  exact ha (both.1 ▸ List.mem_of_mem_getLast? member)

/-- What follows the last separator does not count. -/
theorem pairFree_last {separator : α} {a b : List α} (hb : separator ∉ b) :
    PairFree separator separator (a ++ separator :: b) ↔
      PairFree separator separator (a ++ [separator]) := by
  have split : a ++ separator :: b = (a ++ [separator]) ++ b := by simp
  rw [split,PairFree,List.isChain_append]
  constructor
  · exact fun whole => whole.1
  · intro front
    refine ⟨front,pairFree_of_first hb,?_⟩
    intro last _ first member both
    exact hb (both.2 ▸ List.mem_of_mem_head? member)

end Segments
