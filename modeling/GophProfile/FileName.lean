import GophProfile.Form
import GophProfile.Library.Utf8

/-! The name of an uploaded file: repaired, without control characters, and cut to the
width of its column. -/
namespace GophProfile.Form

open Utf8

/-! ### Runes and characters -/

/-- A code point that is no surrogate, as a character. -/
def scalar (n : Nat) (valid : n < 0xD800 ∨ 0xDFFF < n ∧ n < 0x110000) : Char :=
  ⟨UInt32.ofNatLT n (by rw [show UInt32.size = 4294967296 from rfl]; omega),by
    simpa [UInt32.isValidChar,Nat.isValidChar] using valid⟩

@[simp] theorem scalar_toNat {n : Nat} (valid : n < 0xD800 ∨ 0xDFFF < n ∧ n < 0x110000) :
    (scalar n valid).val.toNat = n := by
  simp [scalar]

theorem byte_eq {n : Nat} {b : UInt8} (same : n = b.toNat) : UInt8.ofNat n = b := by
  rw [same,UInt8.ofNat_toNat]

theorem encode_single {a : UInt8} (ascii : a < 0x80) : ∃ c, String.utf8EncodeChar c = [a] := by
  have small : a.toNat < 128 := UInt8.lt_iff_toNat_lt.mp ascii
  refine ⟨scalar a.toNat (.inl (by omega)),?_⟩
  simp only [String.utf8EncodeChar,scalar_toNat]
  rw [if_pos (by omega),UInt8.ofNat_toNat]

theorem isTail_iff {b : UInt8} : isTail b = true ↔ 128 ≤ b.toNat ∧ b.toNat ≤ 191 := by
  simp [isTail,UInt8.le_iff_toNat_le]

theorem isPair_iff {a b : UInt8} : isPair a b = true ↔
    (194 ≤ a.toNat ∧ a.toNat ≤ 223) ∧ 128 ≤ b.toNat ∧ b.toNat ≤ 191 := by
  simp [isPair,UInt8.le_iff_toNat_le,isTail_iff]

theorem encode_pair {a b : UInt8} (pair : isPair a b = true) : ∃ c, String.utf8EncodeChar c = [a,b] := by
  obtain ⟨first,second⟩ := isPair_iff.mp pair
  refine ⟨scalar ((a.toNat - 192) * 64 + (b.toNat - 128)) (.inl (by omega)),?_⟩
  simp only [String.utf8EncodeChar,scalar_toNat]
  rw [if_neg (by omega),if_pos (by omega),byte_eq (b := a) (by omega),byte_eq (b := b) (by omega)]

theorem isSecond_iff {a b : UInt8} : isSecond a b = true ↔
    (128 ≤ b.toNat ∧ b.toNat ≤ 191) ∧ (a.toNat = 224 → 160 ≤ b.toNat) ∧ (a.toNat = 237 → b.toNat ≤ 159) ∧
      (a.toNat = 240 → 144 ≤ b.toNat) ∧ (a.toNat = 244 → b.toNat ≤ 143) := by
  unfold isSecond
  simp only [← UInt8.toNat_inj]
  repeat' split
  all_goals simp [isTail_iff,UInt8.le_iff_toNat_le] at *
  all_goals omega

theorem isTriple_iff {a b c : UInt8} : isTriple a b c = true ↔
    (224 ≤ a.toNat ∧ a.toNat ≤ 239) ∧ isSecond a b = true ∧ 128 ≤ c.toNat ∧ c.toNat ≤ 191 := by
  simp [isTriple,UInt8.le_iff_toNat_le,isTail_iff,and_assoc]

theorem isQuadruple_iff {a b c d : UInt8} : isQuadruple a b c d = true ↔
    (240 ≤ a.toNat ∧ a.toNat ≤ 244) ∧ isSecond a b = true ∧ (128 ≤ c.toNat ∧ c.toNat ≤ 191) ∧
      128 ≤ d.toNat ∧ d.toNat ≤ 191 := by
  simp [isQuadruple,UInt8.le_iff_toNat_le,isTail_iff,and_assoc]

theorem encode_triple {a b c : UInt8} (triple : isTriple a b c = true) :
    ∃ char, String.utf8EncodeChar char = [a,b,c] := by
  obtain ⟨first,second,third⟩ := isTriple_iff.mp triple
  rw [isSecond_iff] at second
  refine ⟨scalar ((a.toNat - 224) * 4096 + (b.toNat - 128) * 64 + (c.toNat - 128)) (by omega),?_⟩
  simp only [String.utf8EncodeChar,scalar_toNat]
  rw [if_neg (by omega),if_neg (by omega),if_pos (by omega),byte_eq (b := a) (by omega),
    byte_eq (b := b) (by omega),byte_eq (b := c) (by omega)]

theorem encode_quadruple {a b c d : UInt8} (quadruple : isQuadruple a b c d = true) :
    ∃ char, String.utf8EncodeChar char = [a,b,c,d] := by
  obtain ⟨first,second,third,fourth⟩ := isQuadruple_iff.mp quadruple
  rw [isSecond_iff] at second
  refine ⟨scalar ((a.toNat - 240) * 262144 + (b.toNat - 128) * 4096 + (c.toNat - 128) * 64 +
    (d.toNat - 128)) (by omega),?_⟩
  simp only [String.utf8EncodeChar,scalar_toNat]
  rw [if_neg (by omega),if_neg (by omega),if_neg (by omega),byte_eq (b := a) (by omega),
    byte_eq (b := b) (by omega),byte_eq (b := c) (by omega),byte_eq (b := d) (by omega)]

theorem toNat_byte {n : Nat} (small : n < 256) : (UInt8.ofNat n).toNat = n := by
  rw [UInt8.toNat_ofNat']
  omega

/-- A sequence of bytes that `utf8.DecodeRune` takes for a rune. -/
inductive IsRune : GoString → Prop where
  | single {a : UInt8} (ascii : a < 0x80) : IsRune [a]
  | pair {a b : UInt8} (pair : isPair a b = true) : IsRune [a,b]
  | triple {a b c : UInt8} (triple : isTriple a b c = true) : IsRune [a,b,c]
  | quadruple {a b c d : UInt8} (quadruple : isQuadruple a b c d = true) : IsRune [a,b,c,d]

theorem isRune_char (c : Char) : IsRune (String.utf8EncodeChar c) := by
  have valid : c.val.toNat < 0xD800 ∨ 0xDFFF < c.val.toNat ∧ c.val.toNat < 0x110000 := c.valid
  simp only [String.utf8EncodeChar]
  generalize c.val.toNat = v at valid
  by_cases one : v ≤ 127
  · rw [if_pos one]
    refine .single (UInt8.lt_iff_toNat_lt.mpr ?_)
    rw [toNat_byte (by omega)]
    exact Nat.lt_succ_of_le one
  by_cases two : v ≤ 2047
  · rw [if_neg one,if_pos two]
    refine .pair (isPair_iff.mpr ?_)
    rw [toNat_byte (by omega),toNat_byte (by omega)]
    omega
  by_cases three : v ≤ 65535
  · rw [if_neg one,if_neg two,if_pos three]
    refine .triple (isTriple_iff.mpr ?_)
    rw [isSecond_iff,toNat_byte (by omega),toNat_byte (by omega),toNat_byte (by omega)]
    omega
  · rw [if_neg one,if_neg two,if_neg three]
    refine .quadruple (isQuadruple_iff.mpr ?_)
    rw [isSecond_iff,toNat_byte (by omega),toNat_byte (by omega),toNat_byte (by omega),
      toNat_byte (by omega)]
    omega

theorem IsRune.exists_char {bytes : GoString} (rune : IsRune bytes) :
    ∃ c, String.utf8EncodeChar c = bytes := by
  cases rune with
  | single ascii => exact encode_single ascii
  | pair pair => exact encode_pair pair
  | triple triple => exact encode_triple triple
  | quadruple quadruple => exact encode_quadruple quadruple

theorem ascii_iff {a : UInt8} : a < 0x80 ↔ a.toNat < 128 := UInt8.lt_iff_toNat_lt

/-- A rune at the head is cut off. -/
theorem IsRune.width {bytes : GoString} (rune : IsRune bytes) (rest : GoString) :
    runeWidth (bytes ++ rest) = some bytes.length := by
  cases rune with
  | single ascii => simp [runeWidth,ascii]
  | @pair a b pair =>
    have bounds := isPair_iff.mp pair
    have high : ¬a < 0x80 := by rw [ascii_iff]; omega
    simp [runeWidth,high,pair]
  | @triple a b c triple =>
    have bounds := isTriple_iff.mp triple
    have high : ¬a < 0x80 := by rw [ascii_iff]; omega
    have longer : ¬isPair a b = true := by rw [isPair_iff]; omega
    simp [runeWidth,high,longer,triple]
  | @quadruple a b c d quadruple =>
    have bounds := isQuadruple_iff.mp quadruple
    have high : ¬a < 0x80 := by rw [ascii_iff]; omega
    have longer : ¬isPair a b = true := by rw [isPair_iff]; omega
    have longest : ¬isTriple a b c = true := by rw [isTriple_iff]; omega
    simp [runeWidth,high,longer,longest,quadruple]

theorem isTail_zero : isTail 0 = false := by rfl

/-- What is cut off is a rune. -/
theorem isRune_of_width {a : UInt8} {s : GoString} {width : Nat} (cut : runeWidth (a :: s) = some width) :
    ∃ bytes rest, a :: s = bytes ++ rest ∧ IsRune bytes ∧ bytes.length = width := by
  unfold runeWidth at cut
  simp only at cut
  split at cut
  · next ascii =>
    cases cut
    exact ⟨[a],s,rfl,.single ascii,rfl⟩
  · split at cut
    · next pair =>
      cases cut
      cases s with
      | nil => simp [isPair,isTail_zero] at pair
      | cons b s => exact ⟨[a,b],s,rfl,.pair pair,rfl⟩
    · split at cut
      · next triple =>
        cases cut
        match s with
        | [] => simp [isTriple,isTail_zero] at triple
        | [b] => simp [isTriple,isTail_zero] at triple
        | b :: c :: s => exact ⟨[a,b,c],s,rfl,.triple triple,rfl⟩
      · split at cut
        · next quadruple =>
          cases cut
          match s with
          | [] => simp [isQuadruple,isTail_zero] at quadruple
          | [b] => simp [isQuadruple,isTail_zero] at quadruple
          | [b,c] => simp [isQuadruple,isTail_zero] at quadruple
          | b :: c :: d :: s => exact ⟨[a,b,c,d],s,rfl,.quadruple quadruple,rfl⟩
        · contradiction

/-- A byte is taken for an invalid one just where no character begins. -/
theorem runeWidth_none_iff {a : UInt8} {s : GoString} :
    runeWidth (a :: s) = none ↔ ¬Begins (a :: s) := by
  constructor
  · rintro invalid ⟨c,rest,same⟩
    rw [same,(isRune_char c).width rest] at invalid
    contradiction
  · intro stray
    cases cut : runeWidth (a :: s) with
    | none => rfl
    | some width =>
      obtain ⟨bytes,rest,same,rune,-⟩ := isRune_of_width cut
      obtain ⟨c,rfl⟩ := rune.exists_char
      exact absurd ⟨c,rest,same⟩ stray

/-! ### The runes of a string -/

def runeOf (c : Char) : Rune := ⟨String.utf8EncodeChar c,true⟩

theorem runesAfter_drop (n : Nat) (s : GoString) : runesAfter n s = runes (s.drop n) := by
  induction n generalizing s with
  | zero => rfl
  | succ n ih =>
    cases s with
    | nil => simp [runesAfter,runes]
    | cons b s => simpa [runesAfter] using ih s

theorem runes_char (c : Char) (rest : GoString) :
    runes (String.utf8EncodeChar c ++ rest) = runeOf c :: runes rest := by
  cases bytes : String.utf8EncodeChar c with
  | nil => exact absurd bytes String.utf8EncodeChar_ne_nil
  | cons a tail =>
    have width := (isRune_char c).width rest
    rw [bytes] at width
    have cut : (a :: (tail ++ rest)).take (tail.length + 1) = a :: tail := by simp
    have left : (tail ++ rest).drop tail.length = rest := by simp
    simp only [List.cons_append,List.length_cons] at width ⊢
    rw [runes,runesAfter,width]
    simp only [runeOf,bytes,Nat.add_sub_cancel,runesAfter_drop,cut,left]

theorem runes_stray {b : UInt8} {rest : GoString} (stray : ¬Begins (b :: rest)) :
    runes (b :: rest) = ⟨[b],false⟩ :: runes rest := by
  rw [runes,runesAfter,runeWidth_none_iff.mpr stray]
  rfl

theorem runes_encode (chars : List Char) : runes (encode chars) = chars.map runeOf := by
  induction chars with
  | nil => rfl
  | cons c chars ih => rw [encode_cons,runes_char,ih,List.map_cons]

/-! ### What becomes of a name -/

/-- The general category Cc of Unicode. -/
def isControl (c : Char) : Bool := c.val < 0x20 || (0x7F ≤ c.val && c.val ≤ 0x9F)

theorem isControl_iff {c : Char} : isControl c = true ↔
    c.val.toNat < 32 ∨ 127 ≤ c.val.toNat ∧ c.val.toNat ≤ 159 := by
  simp [isControl,UInt32.lt_iff_toNat_lt,UInt32.le_iff_toNat_le]

theorem runeOf_isControl (c : Char) : (runeOf c).isControl = isControl c := by
  have valid : c.val.toNat < 0xD800 ∨ 0xDFFF < c.val.toNat ∧ c.val.toNat < 0x110000 := c.valid
  rw [Bool.eq_iff_iff,isControl_iff]
  simp only [Rune.isControl,runeOf,String.utf8EncodeChar]
  generalize c.val.toNat = v at valid
  by_cases one : v ≤ 127
  · simp only [if_pos one,Bool.true_and,Bool.or_eq_true,decide_eq_true_eq,beq_iff_eq]
    rw [UInt8.lt_iff_toNat_lt,← UInt8.toNat_inj,toNat_byte (by omega)]
    show v < 32 ∨ v = 127 ↔ _
    omega
  by_cases two : v ≤ 2047
  · simp only [if_neg one,if_pos two,Bool.and_eq_true,decide_eq_true_eq,beq_iff_eq]
    rw [UInt8.lt_iff_toNat_lt,← UInt8.toNat_inj,toNat_byte (by omega),toNat_byte (by omega)]
    show v / 64 % 32 + 192 = 194 ∧ v % 64 + 128 < 160 ↔ _
    omega
  by_cases three : v ≤ 65535
  · simp only [if_neg one,if_neg two,if_pos three,Bool.false_eq_true,false_iff]
    omega
  · simp only [if_neg one,if_neg two,if_neg three,Bool.false_eq_true,false_iff]
    omega

/-- Behind a run of stray bytes the rest is read as from its start. -/
theorem replaceInvalid_start {rest : GoString} (maximal : rest = [] ∨ Begins rest) :
    replaceInvalid true (runes rest) = replaceInvalid false (runes rest) := by
  rcases maximal with rfl | ⟨c,rest,rfl⟩
  · rfl
  · rw [runes_char]
    rfl

theorem replaceInvalid_stray {run rest : GoString} (stray : Stray run rest) :
    replaceInvalid true (runes (run ++ rest)) = replaceInvalid true (runes rest) := by
  induction run with
  | nil => rfl
  | cons b run ih =>
    obtain ⟨head,tail⟩ := stray_cons.mp stray
    rw [List.cons_append,runes_stray head]
    simpa [replaceInvalid] using ih tail

theorem toValidUTF8_repairs {s : GoString} {chars : List Char} (repairs : Repairs s chars) :
    toValidUTF8 s = encode chars := by
  unfold toValidUTF8
  induction repairs with
  | nil => rfl
  | char c after ih =>
    rw [runes_char,encode_cons,← ih]
    rfl
  | @run run rest chars nonempty stray maximal after ih =>
    obtain ⟨b,run,rfl⟩ := List.exists_cons_of_ne_nil nonempty
    obtain ⟨head,tail⟩ := stray_cons.mp stray
    have mark : String.utf8EncodeChar (Char.ofNat 0xFFFD) = runeError := by decide
    rw [List.cons_append,runes_stray head,encode_cons,mark,← ih,← replaceInvalid_start maximal,
      ← replaceInvalid_stray tail]
    rfl

theorem text_encode (chars : List Char) : (chars.map runeOf).flatMap Rune.text = encode chars := by
  induction chars with
  | nil => rfl
  | cons c chars ih =>
    rw [List.map_cons,List.flatMap_cons,ih]
    rfl

theorem withoutControls_encode (chars : List Char) :
    withoutControls (encode chars) = encode (chars.filter fun c => !isControl c) := by
  rw [withoutControls,runes_encode,List.filter_map,text_encode]
  congr 2
  funext c
  simp [runeOf_isControl]

/-- The name is repaired, loses its control characters and is cut to the column's width. -/
theorem cleanFileName_repairs {name : GoString} {chars : List Char} (repairs : Repairs name chars) :
    cleanFileName name = encode ((chars.filter fun c => !isControl c).take maxFileNameRunes) := by
  unfold cleanFileName
  simp only [toValidUTF8_repairs repairs,withoutControls_encode,runes_encode,List.length_map]
  split
  · rw [← List.map_take,text_encode]
  · rw [List.take_of_length_le (by omega)]

/-- A name the database takes: valid UTF-8 without control characters, within the width of
its column. -/
def Storable (name : GoString) : Prop :=
  ∃ chars, name = encode chars ∧ (∀ c ∈ chars, isControl c = false) ∧ chars.length ≤ maxFileNameRunes

theorem cleanFileName_storable {name : GoString} (storable : Storable name) : cleanFileName name = name := by
  obtain ⟨chars,rfl,printable,short⟩ := storable
  have kept : chars.filter (fun c => !isControl c) = chars := by
    rw [List.filter_eq_self]
    intro c member
    simp [printable c member]
  rw [cleanFileName_repairs (repairs_encode chars),kept,List.take_of_length_le short]

theorem storable_cleanFileName (name : GoString) : Storable (cleanFileName name) := by
  obtain ⟨chars,repairs⟩ := exists_repairs name
  refine ⟨_,cleanFileName_repairs repairs,?_,List.length_take_le _ _⟩
  intro c member
  have printable := (List.mem_filter.mp (List.mem_of_mem_take member)).2
  simpa using printable

/-- A cleaned name can be stored. It is the repaired name without control characters, as far
as its first 255 characters, and a name that can be stored stays as it is. -/
theorem cleanFileName_spec (name : GoString) :
    Storable (cleanFileName name) ∧
      ((∃ chars, Repairs name chars) ∧ ∀ chars, Repairs name chars →
        cleanFileName name = encode ((chars.filter fun c => !isControl c).take 255)) ∧
      cleanFileName (cleanFileName name) = cleanFileName name ∧
      (Storable name → cleanFileName name = name) := by
  refine ⟨storable_cleanFileName name,⟨exists_repairs name,?_⟩,?_,cleanFileName_storable⟩
  · intro chars repairs
    exact cleanFileName_repairs repairs
  · exact cleanFileName_storable (storable_cleanFileName name)

end GophProfile.Form
