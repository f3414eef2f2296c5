import Mathlib.Data.List.Basic

/-! UTF-8 as lists of bytes: what a byte string holds of characters, and its repair by
replacing what is no part of any. -/
namespace Utf8

/-- The bytes of a text. -/
def encode (chars : List Char) : List UInt8 := chars.flatMap String.utf8EncodeChar

@[simp] theorem encode_nil : encode [] = [] := rfl

@[simp] theorem encode_cons (c : Char) (chars : List Char) :
    encode (c :: chars) = String.utf8EncodeChar c ++ encode chars := rfl

/-- A character stands at the head. -/
def Begins (s : List UInt8) : Prop := ∃ c rest, s = String.utf8EncodeChar c ++ rest

/-- Each of the bytes stands where no character does, with `rest` behind them. -/
def Stray (run rest : List UInt8) : Prop :=
  ∀ before b after, run = before ++ b :: after → ¬Begins (b :: after ++ rest)

/-- `chars` is the text that `s` becomes when every maximal run of stray bytes is replaced by
one U+FFFD. -/
inductive Repairs : List UInt8 → List Char → Prop where
  | nil : Repairs [] []
  | char (c : Char) {rest : List UInt8} {chars : List Char} (after : Repairs rest chars) :
      Repairs (String.utf8EncodeChar c ++ rest) (c :: chars)
  | run {run rest : List UInt8} {chars : List Char} (nonempty : run ≠ []) (stray : Stray run rest)
      (maximal : rest = [] ∨ Begins rest) (after : Repairs rest chars) :
      Repairs (run ++ rest) (Char.ofNat 0xFFFD :: chars)

/-- A text needs no repair. -/
theorem repairs_encode (chars : List Char) : Repairs (encode chars) chars := by
  induction chars with
  | nil => exact .nil
  | cons c chars ih => exact .char c ih

theorem stray_cons {b : UInt8} {run rest : List UInt8} :
    Stray (b :: run) rest ↔ ¬Begins (b :: (run ++ rest)) ∧ Stray run rest := by
  constructor
  · intro stray
    refine ⟨stray [] b run rfl,?_⟩
    intro before x after equal
    exact stray (b :: before) x after (by rw [equal]; rfl)
  · rintro ⟨head,tail⟩ before x after equal
    cases before with
    | nil =>
      cases equal
      exact head
    | cons y before =>
      cases equal
      exact tail before x after rfl

/-- Bytes are stray up to a character or the end. -/
theorem exists_stray (s : List UInt8) :
    ∃ run rest, s = run ++ rest ∧ Stray run rest ∧ (rest = [] ∨ Begins rest) := by
  induction s with
  | nil => exact ⟨[],[],rfl,by simp [Stray],.inl rfl⟩
  | cons b s ih =>
    by_cases begins : Begins (b :: s)
    · exact ⟨[],b :: s,rfl,by simp [Stray],.inr begins⟩
    · obtain ⟨run,rest,rfl,stray,maximal⟩ := ih
      exact ⟨b :: run,rest,rfl,stray_cons.mpr ⟨begins,stray⟩,maximal⟩

/-- Every byte string can be repaired. -/
theorem exists_repairs (s : List UInt8) : ∃ chars, Repairs s chars := by
  induction long : s.length using Nat.strongRecOn generalizing s with
  | _ n ih =>
    subst long
    obtain ⟨run,rest,rfl,stray,maximal⟩ := exists_stray s
    by_cases empty : run = []
    · subst empty
      rcases maximal with rfl | ⟨c,rest,rfl⟩
      · exact ⟨[],.nil⟩
      · have shorter : rest.length < ([] ++ (String.utf8EncodeChar c ++ rest)).length := by
          have positive := List.length_pos_iff.mpr (String.utf8EncodeChar_ne_nil (c := c))
          simp only [List.nil_append,List.length_append]
          omega
        obtain ⟨chars,after⟩ := ih _ shorter rest rfl
        exact ⟨c :: chars,.char c after⟩
    · have shorter : rest.length < (run ++ rest).length := by
        have positive := List.length_pos_iff.mpr empty
        rw [List.length_append]
        omega
      obtain ⟨chars,after⟩ := ih _ shorter rest rfl
      exact ⟨_,.run empty stray maximal after⟩

end Utf8
