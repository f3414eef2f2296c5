import Mathlib.Data.List.Infix

/-! Delimiters whose first letter does not come again in them: their occurrences do not
overlap, so one that is put behind a text makes no other. -/
namespace Delimiter

variable {α : Type} {first : α} {tail : List α}

/-- A word without the letter ends before it. -/
theorem prefix_before {word u rest : List α} (absent : first ∉ word)
    (start : word <+: u ++ first :: rest) : word <+: u := by
  obtain inside | ⟨more,rfl⟩ :=
    List.prefix_or_prefix_of_prefix start (List.prefix_append u (first :: rest))
  · exact inside
  · have next : more <+: first :: rest := (List.prefix_append_right_inj u).mp start
    cases more with
    | nil => simp
    | cons c more =>
      obtain ⟨rfl,-⟩ := List.cons_prefix_cons.mp next
      exact absurd (by simp) absent

/-- No delimiter begins in the text that one is put behind. -/
theorem none_begins {c : α} {u rest : List α} (once : first ∉ tail)
    (clear : ¬(first :: tail) <:+: (c :: u)) : ¬(first :: tail) <+: c :: u ++ first :: rest := by
  intro start
  obtain ⟨rfl,follows⟩ := List.cons_prefix_cons.mp start
  have inside := prefix_before once follows
  exact clear (List.cons_prefix_cons.mpr ⟨rfl,inside⟩).isInfix

/-- A text with a delimiter behind it is no part of one. -/
theorem none_contains {c : α} {u rest : List α} (once : first ∉ tail) :
    ¬(c :: u ++ first :: rest) <+: first :: tail := by
  intro part
  obtain ⟨-,follows⟩ := List.cons_prefix_cons.mp part
  exact once (follows.subset (by simp))

/-- A part of a delimiter completes none. -/
theorem clear_append {part : List α} (once : first ∉ tail) (begins : part <+: first :: tail)
    (proper : part ≠ first :: tail) {u : List α} (clear : ¬(first :: tail) <:+: u) :
    ¬(first :: tail) <:+: u ++ part := by
  induction u with
  | nil =>
    intro inside
    exact proper (begins.eq_of_length_le inside.length_le)
  | cons c u ih =>
    intro inside
    obtain here | later := List.infix_cons_iff.mp inside
    · cases part with
      | nil => exact clear (by simpa using here.isInfix)
      | cons d part =>
        obtain ⟨rfl,-⟩ := List.cons_prefix_cons.mp begins
        exact none_begins once clear here
    · exact ih (fun found => clear (found.trans (List.suffix_cons c u).isInfix)) later

end Delimiter
