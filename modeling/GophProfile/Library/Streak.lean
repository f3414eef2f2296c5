import Mathlib.Data.List.Infix

/-! Streaks: what a counter that some events advance and others reset says about the
parts of the sequence it has seen. -/
namespace Streak

variable {α : Type} (counted resets : α → Bool)

def next (n : Nat) (a : α) : Nat := if resets a then 0 else if counted a then n + 1 else n

/-- The counter after a sequence. -/
def counter (l : List α) : Nat := l.foldl (next counted resets) 0

/-- The part holds `k` events that count and none that resets. -/
def IsStreak (k : Nat) (part : List α) : Prop :=
  (∀ a ∈ part, resets a = false) ∧ part.countP counted = k

def EndsWith (k : Nat) (l : List α) : Prop := ∃ part, part <:+ l ∧ IsStreak counted resets k part

def Contains (k : Nat) (l : List α) : Prop := ∃ part, part <:+: l ∧ IsStreak counted resets k part

variable {counted resets} {k : Nat} {l : List α} {a : α}

@[simp] theorem counter_snoc : counter counted resets (l ++ [a]) =
    next counted resets (counter counted resets l) a := by
  simp [counter]

theorem IsStreak.nil : IsStreak counted resets 0 [] := ⟨by simp,by simp⟩

theorem isStreak_snoc {part : List α} : IsStreak counted resets k (part ++ [a]) ↔
    resets a = false ∧ ∃ j, IsStreak counted resets j part ∧ k = if counted a then j + 1 else j := by
  simp only [IsStreak,List.forall_mem_append,List.forall_mem_singleton,List.countP_append,
    List.countP_singleton]
  constructor
  · rintro ⟨⟨before,last⟩,counts⟩
    refine ⟨last,_,⟨before,rfl⟩,?_⟩
    rw [← counts]
    by_cases count : counted a = true <;> simp [count]
  · rintro ⟨last,j,⟨before,counts⟩,rfl⟩
    refine ⟨⟨before,last⟩,?_⟩
    split <;> omega

theorem endsWith_snoc : EndsWith counted resets k (l ++ [a]) ↔ k = 0 ∨
    resets a = false ∧ ∃ j, EndsWith counted resets j l ∧ k = if counted a then j + 1 else j := by
  constructor
  · rintro ⟨part,suffix,streak⟩
    rcases List.suffix_concat_iff.mp suffix with rfl | ⟨before,rfl,inside⟩
    · exact .inl (by simpa using streak.2.symm)
    · obtain ⟨keeps,j,shorter,counts⟩ := isStreak_snoc.mp streak
      exact .inr ⟨keeps,j,⟨before,inside,shorter⟩,counts⟩
  · rintro (rfl | ⟨keeps,j,⟨before,inside,shorter⟩,counts⟩)
    · exact ⟨[],List.nil_suffix,.nil⟩
    · exact ⟨before ++ [a],List.suffix_concat_iff.mpr (.inr ⟨before,rfl,inside⟩),
        isStreak_snoc.mpr ⟨keeps,j,shorter,counts⟩⟩

/-- What the counter has reached, the sequence ends with. -/
theorem endsWith_iff : EndsWith counted resets k l ↔ k ≤ counter counted resets l := by
  induction l using List.reverseRecOn generalizing k with
  | nil =>
    constructor
    · rintro ⟨part,suffix,streak⟩
      rw [List.suffix_nil.mp suffix] at streak
      simp [← streak.2]
    · intro small
      have zero : k = 0 := by simpa [counter] using small
      exact zero ▸ ⟨[],List.nil_suffix,.nil⟩
  | append_singleton l a ih =>
    rw [endsWith_snoc,counter_snoc,next]
    by_cases reset : resets a = true
    · simp [reset]
    by_cases count : counted a = true
    · simp only [reset,count,if_true,if_false,ih,Bool.false_eq_true,true_and]
      constructor
      · rintro (rfl | ⟨j,small,rfl⟩) <;> omega
      · intro small
        by_cases zero : k = 0
        · exact .inl zero
        · exact .inr ⟨k - 1,by omega,by omega⟩
    · simp only [reset,count,if_false,ih,Bool.false_eq_true,true_and,exists_eq_right']
      omega

theorem Contains.snoc (found : Contains counted resets k l) : Contains counted resets k (l ++ [a]) := by
  obtain ⟨part,inside,streak⟩ := found
  exact ⟨part,inside.trans (List.prefix_append l [a]).isInfix,streak⟩

/-- A streak is either there already or ends here. -/
theorem contains_snoc : Contains counted resets k (l ++ [a]) ↔
    Contains counted resets k l ∨ k ≤ counter counted resets (l ++ [a]) := by
  rw [← endsWith_iff]
  constructor
  · rintro ⟨part,inside,streak⟩
    rcases List.infix_concat_iff.mp inside with last | before
    · exact .inr ⟨part,last,streak⟩
    · exact .inl ⟨part,before,streak⟩
  · rintro (found | ⟨part,last,streak⟩)
    · exact found.snoc
    · exact ⟨part,last.isInfix,streak⟩

theorem contains_of_le (reached : k ≤ counter counted resets l) : Contains counted resets k l := by
  obtain ⟨part,last,streak⟩ := endsWith_iff.mpr reached
  exact ⟨part,last.isInfix,streak⟩

theorem not_contains_nil (positive : 1 ≤ k) : ¬Contains counted resets k ([] : List α) := by
  rintro ⟨part,inside,streak⟩
  rw [List.infix_nil.mp inside] at streak
  have none : (0 : Nat) = k := by simpa using streak.2
  omega

end Streak
