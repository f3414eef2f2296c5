import GophProfile.FileName
import GophProfile.Library.JsonText
import GophProfile.Worker
import GophProfile.Service

/-! The bytes of the events and of the thumbnail column: what `json.Marshal` writes of them
and what `json.Unmarshal` makes of any bytes. -/
namespace GophProfile.Wire

open Domain Form Utf8 JsonText

/-! ### Strings as characters -/

def code : GoString → Nat
  | [a] => a.toNat
  | [a,b] => (a.toNat - 192) * 64 + (b.toNat - 128)
  | [a,b,c] => (a.toNat - 224) * 4096 + (b.toNat - 128) * 64 + (c.toNat - 128)
  | [a,b,c,d] => (a.toNat - 240) * 262144 + (b.toNat - 128) * 4096 + (c.toNat - 128) * 64 + (d.toNat - 128)
  | _ => 0

/-- A rune as a character; an invalid byte counts as U+FFFD. -/
def runeChar (r : Rune) : Char := if r.valid then .ofNat (code r.bytes) else replacement

/-- The characters that `range` finds in a string. -/
def chars (s : GoString) : List Char := (runes s).map runeChar

theorem code_pair (a b : UInt8) : code [a,b] = (a.toNat - 192) * 64 + (b.toNat - 128) := rfl

theorem code_triple (a b c : UInt8) :
    code [a,b,c] = (a.toNat - 224) * 4096 + (b.toNat - 128) * 64 + (c.toNat - 128) := rfl

theorem code_quadruple (a b c d : UInt8) : code [a,b,c,d] =
    (a.toNat - 240) * 262144 + (b.toNat - 128) * 4096 + (c.toNat - 128) * 64 + (d.toNat - 128) := rfl

theorem code_char (c : Char) : code (String.utf8EncodeChar c) = c.toNat := by
  have valid : c.val.toNat < 0xD800 ∨ 0xDFFF < c.val.toNat ∧ c.val.toNat < 0x110000 := c.valid
  simp only [String.utf8EncodeChar,Char.toNat]
  generalize c.val.toNat = v at valid
  by_cases one : v ≤ 127
  · rw [if_pos one]
    exact toNat_byte (by omega)
  by_cases two : v ≤ 2047
  · rw [if_neg one,if_pos two,code_pair,toNat_byte (by omega),toNat_byte (by omega)]
    omega
  by_cases three : v ≤ 65535
  · rw [if_neg one,if_neg two,if_pos three,code_triple,toNat_byte (by omega),toNat_byte (by omega),toNat_byte (by omega)]
    omega
  · rw [if_neg one,if_neg two,if_neg three,code_quadruple,toNat_byte (by omega),toNat_byte (by omega),toNat_byte (by omega),toNat_byte (by omega)]
    omega

@[simp] theorem runeChar_runeOf (c : Char) : runeChar (runeOf c) = c := by
  simp [runeChar,runeOf,code_char]

@[simp] theorem chars_encode (text : List Char) : chars (encode text) = text := by
  rw [chars,runes_encode,List.map_map]
  simp [Function.comp_def]

/-- The string is valid UTF-8. -/
def IsText (s : GoString) : Prop := ∃ text, s = encode text

theorem encode_chars_iff {s : GoString} : encode (chars s) = s ↔ IsText s := by
  constructor
  · intro same
    exact ⟨chars s,same.symm⟩
  · rintro ⟨text,rfl⟩
    rw [chars_encode]

/-! ### Writing -/

def hexLetter (n : Nat) : Char := if n < 10 then .ofNat (48 + n) else .ofNat (87 + n)

def escaped (n : Nat) : List Char :=
  ['\\','u',hexLetter (n / 4096),hexLetter (n / 256 % 16),hexLetter (n / 16 % 16),hexLetter (n % 16)]

def quoteChar (c : Char) : List Char :=
  if c == '"' || c == '\\' then ['\\',c]
  else if c == .ofNat 8 then ['\\','b']
  else if c == .ofNat 12 then ['\\','f']
  else if c == '\n' then ['\\','n']
  else if c == '\r' then ['\\','r']
  else if c == '\t' then ['\\','t']
  else if c.toNat < 0x20 || c == '<' || c == '>' || c == '&' || c == .ofNat 0x2028 || c == .ofNat 0x2029 then
    escaped c.toNat
  else [c]

/-- One rune of a string as `json.Marshal` writes it. -/
def quoteRune (r : Rune) : List Char := if r.valid then quoteChar (runeChar r) else escaped 0xFFFD

def quote (s : GoString) : List Char := (runes s).flatMap quoteRune

theorem hexValue_hexLetter {n : Nat} (small : n < 16) : hexValue (hexLetter n) = some n := by
  have all : ∀ n : Fin 16, hexValue (hexLetter n) = some n.val := by decide
  exact all ⟨n,small⟩

theorem unitOf_escaped {n : Nat} (small : n < 65536) :
    unitOf (hexLetter (n / 4096)) (hexLetter (n / 256 % 16)) (hexLetter (n / 16 % 16)) (hexLetter (n % 16)) =
      some n := by
  simp only [unitOf,List.mapM_cons,List.mapM_nil]
  rw [hexValue_hexLetter (by omega),hexValue_hexLetter (by omega),hexValue_hexLetter (by omega),
    hexValue_hexLetter (by omega)]
  simp only [Option.bind_eq_bind,Option.bind_some,Option.pure_def,List.foldl_cons,List.foldl_nil]
  congr 1
  omega

theorem spells_escaped {n : Nat} {text read : List Char} (low : n < 0xD800 ∨ n = 0xFFFD)
    (rest : Spells text read) : Spells (escaped n ++ text) (.ofNat n :: read) := by
  refine .unit (unitOf_escaped (by omega)) ?_ rest
  simp only [isHigh,isLow,Bool.and_eq_false_iff,decide_eq_false_iff_not]
  omega

theorem spells_char (c : Char) {text read : List Char} (rest : Spells text read) :
    Spells (quoteChar c ++ text) (c :: read) := by
  have same : Char.ofNat c.toNat = c := Char.ofNat_toNat c
  unfold quoteChar
  split
  · next h =>
    refine .short ?_ rest
    rcases Bool.or_eq_true_iff.mp h with h | h <;> rw [beq_iff_eq.mp h] <;> rfl
  split
  · next h => exact .short (by rw [beq_iff_eq.mp h]; rfl) rest
  split
  · next h => exact .short (by rw [beq_iff_eq.mp h]; rfl) rest
  split
  · next h => exact .short (by rw [beq_iff_eq.mp h]; rfl) rest
  split
  · next h => exact .short (by rw [beq_iff_eq.mp h]; rfl) rest
  split
  · next h => exact .short (by rw [beq_iff_eq.mp h]; rfl) rest
  split
  · next h =>
    have low : c.toNat < 0xD800 := by
      simp only [Bool.or_eq_true,decide_eq_true_eq,beq_iff_eq] at h
      rcases h with ((((h | rfl) | rfl) | rfl) | rfl) | rfl
      · omega
      all_goals decide
    have spelled := spells_escaped (.inl low) rest
    rwa [same] at spelled
  · next h =>
    simp only [Bool.or_eq_true,decide_eq_true_eq,not_or,beq_iff_eq] at *
    refine .plain (by omega) (by tauto) (by tauto) rest

theorem spells_quote (s : GoString) : Spells (quote s) (chars s) := by
  unfold quote chars
  induction runes s with
  | nil => exact .nil
  | cons r rest ih =>
    rw [List.flatMap_cons,List.map_cons]
    unfold quoteRune
    split
    · exact spells_char _ ih
    · next invalid =>
      rw [show runeChar r = .ofNat 0xFFFD by simp [runeChar,invalid,replacement]]
      exact spells_escaped (.inr rfl) ih

def goStyle : Style GoString := ⟨quote,chars,spells_quote,[],[],rfl,rfl⟩

def marshal (d : Document GoString) : GoString := encode (print goStyle d)

def fieldAvatarID : GoString := lit "avatar_id"
def fieldUserID : GoString := lit "user_id"
def fieldS3Key : GoString := lit "s3_key"
def fieldS3Keys : GoString := lit "s3_keys"

/-- `json.Marshal` of an `AvatarUploadEvent` -/
def marshalUpload (e : AvatarUploadEvent) : GoString :=
  marshal (.obj [(fieldAvatarID,.str e.avatarID),(fieldUserID,.str e.userID),(fieldS3Key,.str e.s3Key)])

/-- `json.Marshal` of an `AvatarDeleteEvent`, whose keys are never a nil slice. -/
def marshalDelete (e : AvatarDeleteEvent) : GoString :=
  marshal (.obj [(fieldAvatarID,.str e.avatarID),(fieldS3Keys,.arr (e.s3Keys.map .str))])

/-! ### Reading -/

def maxNestingDepth : Nat := 10000

/-- A `json.SyntaxError`, whatever it complains about. -/
def errSyntax : Err := .new "json: syntax error" []

/-- A `json.UnmarshalTypeError` -/
def errType : Err := .new "json: cannot unmarshal value into Go value" []

def readDocument (body : GoString) : Option (Document (List Char)) := parse maxNestingDepth (chars body)

/-- Letters of either case are one, and so are the two others that fold to ASCII. -/
def foldRune (c : Char) : Char :=
  if 'a' ≤ c && c ≤ 'z' then .ofNat (c.toNat - 32)
  else if c == .ofNat 0x17F then 'S'
  else if c == .ofNat 0x212A then 'K'
  else c

/-- The key names the field of a struct. -/
def names (key : List Char) (field : GoString) : Bool := key.map foldRune == (chars field).map foldRune

/-- A value for a string that holds `old`. -/
def decodeString (old : GoString) : Document (List Char) → GoString × Option Err
  | .str text => (encode text,none)
  | .null => (old,none)
  | _ => (old,some errType)

/-- A slice, with what its array holds from before. -/
structure Slice where
  backing : List GoString
  length : Nat

def Slice.items (s : Slice) : List GoString := s.backing.take s.length

/-- Items go over those that the array holds; `null` leaves what is there. -/
def decodeItems : List GoString → List (Document (List Char)) → List GoString × Option Err
  | backing, [] => (backing,none)
  | backing, d :: rest =>
    let first := decodeString (backing.headD []) d
    let others := decodeItems backing.tail rest
    (first.1 :: others.1,first.2.or others.2)

def decodeSlice (old : Slice) : Document (List Char) → Slice × Option Err
  | .arr [] => (⟨[],0⟩,none)
  | .arr (d :: rest) =>
    (⟨(decodeItems old.backing (d :: rest)).1,(d :: rest).length⟩,(decodeItems old.backing (d :: rest)).2)
  | .null => (⟨[],0⟩,none)
  | _ => (old,some errType)

/-- The fields of an object one after the other; the first error is kept, and the others
are read all the same. -/
def decodeStruct {α : Type} (field : α → List Char → Document (List Char) → α × Option Err) :
    List (List Char × Document (List Char)) → α → Option Err → Except Err α
  | [], value, none => .ok value
  | [], _, some err => .error err
  | (key,d) :: rest, value, saved =>
    decodeStruct field rest (field value key d).1 (saved.or (field value key d).2)

/-- `json.Unmarshal` into a struct that is still zero. -/
def unmarshal {α : Type} (field : α → List Char → Document (List Char) → α × Option Err) (zero : α)
    (body : GoString) : Except Err α :=
  match readDocument body with
  | none => .error errSyntax
  | some (.obj fields) => decodeStruct field fields zero none
  | some .null => .ok zero
  | some _ => .error errType

def uploadField (e : AvatarUploadEvent) (key : List Char) (d : Document (List Char)) :
    AvatarUploadEvent × Option Err :=
  if names key fieldAvatarID then ({ e with avatarID := (decodeString e.avatarID d).1 },(decodeString e.avatarID d).2)
  else if names key fieldUserID then ({ e with userID := (decodeString e.userID d).1 },(decodeString e.userID d).2)
  else if names key fieldS3Key then ({ e with s3Key := (decodeString e.s3Key d).1 },(decodeString e.s3Key d).2)
  else (e,none)

def unmarshalUpload (body : GoString) : Except Err AvatarUploadEvent := unmarshal uploadField ⟨[],[],[]⟩ body

structure DeleteTarget where
  avatarID : GoString
  s3Keys : Slice

def deleteField (e : DeleteTarget) (key : List Char) (d : Document (List Char)) : DeleteTarget × Option Err :=
  if names key fieldAvatarID then ({ e with avatarID := (decodeString e.avatarID d).1 },(decodeString e.avatarID d).2)
  else if names key fieldS3Keys then ({ e with s3Keys := (decodeSlice e.s3Keys d).1 },(decodeSlice e.s3Keys d).2)
  else (e,none)

def unmarshalDelete (body : GoString) : Except Err AvatarDeleteEvent :=
  match unmarshal deleteField ⟨[],⟨[],0⟩⟩ body with
  | .ok target => .ok ⟨target.avatarID,target.s3Keys.items⟩
  | .error err => .error err

/-! ### What was written is read -/

theorem readDocument_marshal {d : Document GoString} (fits : d.fits maxNestingDepth = true) :
    readDocument (marshal d) = some (d.map chars) := by
  rw [readDocument,marshal,chars_encode,parse_print goStyle fits]
  rfl

theorem chars_char (c : Char) (rest : GoString) : chars (String.utf8EncodeChar c ++ rest) = c :: chars rest := by
  rw [chars,runes_char,List.map_cons,runeChar_runeOf]
  rfl

theorem chars_stray {b : UInt8} {rest : GoString} (stray : runeWidth (b :: rest) = none) :
    chars (b :: rest) = replacement :: chars rest := by
  rw [chars,runes,runesAfter,stray]
  rfl

/-- The string as it comes out of a document. -/
def repaired (s : GoString) : GoString := encode (chars s)

/-- A character is left as it is. -/
theorem repaired_char (c : Char) (rest : GoString) :
    repaired (String.utf8EncodeChar c ++ rest) = String.utf8EncodeChar c ++ repaired rest := by
  rw [repaired,chars_char,encode_cons]
  rfl

/-- A byte that begins no character becomes the replacement character. -/
theorem repaired_stray {b : UInt8} {rest : GoString} (stray : runeWidth (b :: rest) = none) :
    repaired (b :: rest) = String.utf8EncodeChar replacement ++ repaired rest := by
  rw [repaired,chars_stray stray,encode_cons]
  rfl

theorem repaired_iff {s : GoString} : repaired s = s ↔ IsText s := encode_chars_iff

def repairedUpload (e : AvatarUploadEvent) : AvatarUploadEvent :=
  ⟨repaired e.avatarID,repaired e.userID,repaired e.s3Key⟩

def repairedDelete (e : AvatarDeleteEvent) : AvatarDeleteEvent := ⟨repaired e.avatarID,e.s3Keys.map repaired⟩

theorem unmarshalUpload_marshalUpload (e : AvatarUploadEvent) :
    unmarshalUpload (marshalUpload e) = .ok (repairedUpload e) := by
  have fits : (Document.obj [(fieldAvatarID,.str e.avatarID),(fieldUserID,.str e.userID),
      (fieldS3Key,.str e.s3Key)]).fits maxNestingDepth = true := rfl
  rw [unmarshalUpload,unmarshal,marshalUpload,readDocument_marshal fits]
  rfl

theorem strings_fit (keys : List GoString) (n : Nat) :
    itemsFit n (keys.map (Document.str (σ := GoString))) = true := by
  induction keys with
  | nil => rfl
  | cons key keys ih => simpa [itemsFit,Document.fits] using ih

theorem mapItems_strings (keys : List GoString) :
    mapItems chars (keys.map .str) = (keys.map chars).map .str := by
  induction keys with
  | nil => rfl
  | cons key keys ih => simpa [mapItems,Document.map] using ih

theorem decodeItems_strings (texts : List (List Char)) (backing : List GoString) :
    decodeItems backing (texts.map .str) = (texts.map encode ++ backing.drop texts.length,none) := by
  induction texts generalizing backing with
  | nil => simp [decodeItems]
  | cons text texts ih => simp [decodeItems,decodeString,ih]

theorem decodeSlice_strings (texts : List (List Char)) (old : Slice) :
    (decodeSlice old (.arr (texts.map .str))).1.items = texts.map encode ∧
      (decodeSlice old (.arr (texts.map .str))).2 = none := by
  cases texts with
  | nil => exact ⟨rfl,rfl⟩
  | cons text texts =>
    have read := decodeItems_strings (text :: texts) old.backing
    rw [List.map_cons] at read
    rw [List.map_cons,decodeSlice,read]
    simp [Slice.items]

theorem deleteDocument_fits (e : AvatarDeleteEvent) :
    (Document.obj [(fieldAvatarID,.str e.avatarID),(fieldS3Keys,.arr (e.s3Keys.map .str))]).fits
      maxNestingDepth = true := by
  simp [Document.fits,fieldsFit,strings_fit,maxNestingDepth]

theorem unmarshalDelete_marshalDelete (e : AvatarDeleteEvent) :
    unmarshalDelete (marshalDelete e) = .ok (repairedDelete e) := by
  have found : readDocument (marshalDelete e) = some (.obj [(chars fieldAvatarID,.str (chars e.avatarID)),
      (chars fieldS3Keys,.arr ((e.s3Keys.map chars).map .str))]) := by
    rw [marshalDelete,readDocument_marshal (deleteDocument_fits e)]
    simp [Document.map,mapFields,mapItems_strings]
  have keys (target : DeleteTarget) (d : Document (List Char)) : deleteField target (chars fieldS3Keys) d =
    ({ target with s3Keys := (decodeSlice target.s3Keys d).1 },(decodeSlice target.s3Keys d).2) := rfl
  have id : deleteField ⟨[],⟨[],0⟩⟩ (chars fieldAvatarID) (.str (chars e.avatarID)) =
    (⟨repaired e.avatarID,⟨[],0⟩⟩,none) := rfl
  obtain ⟨items,fine⟩ := decodeSlice_strings (e.s3Keys.map chars) ⟨[],0⟩
  simp only [unmarshalDelete,unmarshal,found,decodeStruct,id,keys,fine,Option.or_none,items]
  rw [List.map_map]
  rfl

/-- An event is left as it is exactly when its strings are UTF-8. -/
theorem repairedUpload_iff (e : AvatarUploadEvent) : repairedUpload e = e ↔
    IsText e.avatarID ∧ IsText e.userID ∧ IsText e.s3Key := by
  rw [← repaired_iff,← repaired_iff,← repaired_iff]
  obtain ⟨id,user,key⟩ := e
  simp [repairedUpload]

theorem repairedDelete_iff (e : AvatarDeleteEvent) : repairedDelete e = e ↔
    IsText e.avatarID ∧ ∀ key ∈ e.s3Keys, IsText key := by
  have mapped (keys : List GoString) : keys.map repaired = keys ↔ ∀ key ∈ keys, IsText key := by
    induction keys with
    | nil => simp
    | cons key keys ih => rw [List.map_cons,List.cons.injEq,List.forall_mem_cons,ih,repaired_iff]
  rw [← mapped,← repaired_iff]
  obtain ⟨id,keys⟩ := e
  simp [repairedDelete]

/-- A published message is always read, with the replacement character for every byte that
belongs to no character, so as it was written exactly when its strings are UTF-8. -/
theorem events_read :
    (∀ e : AvatarUploadEvent, unmarshalUpload (marshalUpload e) = .ok (repairedUpload e) ∧
      (unmarshalUpload (marshalUpload e) = .ok e ↔ IsText e.avatarID ∧ IsText e.userID ∧ IsText e.s3Key)) ∧
    ∀ e : AvatarDeleteEvent, unmarshalDelete (marshalDelete e) = .ok (repairedDelete e) ∧
      (unmarshalDelete (marshalDelete e) = .ok e ↔ IsText e.avatarID ∧ ∀ key ∈ e.s3Keys, IsText key) := by
  refine ⟨fun e => ⟨unmarshalUpload_marshalUpload e,?_⟩,fun e => ⟨unmarshalDelete_marshalDelete e,?_⟩⟩
  · rw [unmarshalUpload_marshalUpload,Except.ok.injEq]
    exact repairedUpload_iff e
  · rw [unmarshalDelete_marshalDelete,Except.ok.injEq]
    exact repairedDelete_iff e

/-! ### A message that is cut off -/

/-- A byte of a rune of which too little is left is no rune. -/
theorem runeWidth_none {b : UInt8} {rest : GoString} (high : 128 ≤ b.toNat)
    (pair : rest = [] ∨ b.toNat < 194 ∨ 224 ≤ b.toNat) (triple : rest.length < 2 ∨ b.toNat < 224 ∨ 240 ≤ b.toNat)
    (quadruple : rest.length < 3 ∨ b.toNat < 240) : runeWidth (b :: rest) = none := by
  have single : ¬b < 0x80 := by
    rw [ascii_iff]
    omega
  have beyond {i : Nat} (out : rest.length ≤ i) : rest.getD i 0 = 0 := by simp [out]
  have noPair : isPair b (rest.getD 0 0) = false := by
    rw [← Bool.not_eq_true,isPair_iff]
    rcases pair with rfl | other
    · simp
    · omega
  have noTriple : isTriple b (rest.getD 0 0) (rest.getD 1 0) = false := by
    rw [← Bool.not_eq_true,isTriple_iff]
    rcases triple with few | other
    · rw [beyond (i := 1) (by omega)]
      simp
    · omega
  have noQuadruple : isQuadruple b (rest.getD 0 0) (rest.getD 1 0) (rest.getD 2 0) = false := by
    rw [← Bool.not_eq_true,isQuadruple_iff]
    rcases quadruple with few | other
    · rw [beyond (i := 2) (by omega)]
      simp
    · omega
  simp only [runeWidth,List.getD_cons_zero,List.getD_cons_succ]
  rw [if_neg single,noPair,noTriple,noQuadruple]
  rfl

theorem chars_torn (c : Char) {n : Nat} (short : n < (String.utf8EncodeChar c).length) :
    chars ((String.utf8EncodeChar c).take n) = List.replicate n replacement := by
  have rune := isRune_char c
  revert short rune
  generalize String.utf8EncodeChar c = bytes
  intro short rune
  cases rune with
  | single ascii =>
    have zero : n = 0 := by simpa using short
    subst zero
    rfl
  | @pair a b pair =>
    have bounds := isPair_iff.mp pair
    match n with
    | 0 => rfl
    | 1 =>
      rw [List.take_succ_cons,List.take_zero,chars_stray (runeWidth_none (by omega) (by simp) (by simp) (by simp))]
      rfl
  | @triple a b c triple =>
    have bounds := isTriple_iff.mp triple
    have second := isSecond_iff.mp bounds.2.1
    match n with
    | 0 => rfl
    | 1 =>
      rw [List.take_succ_cons,List.take_zero,chars_stray (runeWidth_none (by omega) (by simp) (by simp) (by simp))]
      rfl
    | 2 =>
      rw [List.take_succ_cons,List.take_succ_cons,List.take_zero,
        chars_stray (runeWidth_none (by omega) (by omega) (by simp) (by simp)),
        chars_stray (runeWidth_none (by omega) (by simp) (by simp) (by simp))]
      rfl
  | @quadruple a b c d quadruple =>
    have bounds := isQuadruple_iff.mp quadruple
    have second := isSecond_iff.mp bounds.2.1
    match n with
    | 0 => rfl
    | 1 =>
      rw [List.take_succ_cons,List.take_zero,chars_stray (runeWidth_none (by omega) (by simp) (by simp) (by simp))]
      rfl
    | 2 =>
      rw [List.take_succ_cons,List.take_succ_cons,List.take_zero,
        chars_stray (runeWidth_none (by omega) (by omega) (by simp) (by simp)),
        chars_stray (runeWidth_none (by omega) (by simp) (by simp) (by simp))]
      rfl
    | 3 =>
      rw [List.take_succ_cons,List.take_succ_cons,List.take_succ_cons,List.take_zero,
        chars_stray (runeWidth_none (by omega) (by omega) (by omega) (by simp)),
        chars_stray (runeWidth_none (by omega) (by omega) (by simp) (by simp)),
        chars_stray (runeWidth_none (by omega) (by simp) (by simp) (by simp))]
      rfl

/-- What is left of a text cut off at some byte: its characters up to there, and what the
bytes of one that was torn count as. -/
theorem chars_take (text : List Char) (n : Nat) : ∃ before rest torn, text = before ++ rest ∧
    chars ((encode text).take n) = before ++ List.replicate torn replacement ∧
      (rest = [] → (encode text).length ≤ n) := by
  induction text generalizing n with
  | nil => exact ⟨[],[],0,rfl,by simp [chars,runes,runesAfter],by simp⟩
  | cons c text ih =>
    by_cases whole : (String.utf8EncodeChar c).length ≤ n
    · obtain ⟨before,rest,torn,same,left,ends⟩ := ih (n - (String.utf8EncodeChar c).length)
      refine ⟨c :: before,rest,torn,by rw [same,List.cons_append],?_,?_⟩
      · rw [encode_cons,List.take_append,List.take_of_length_le whole,chars_char,left,List.cons_append]
      · intro empty
        have long := ends empty
        rw [encode_cons,List.length_append]
        omega
    · have short : n < (String.utf8EncodeChar c).length := by omega
      refine ⟨[],c :: text,n,rfl,?_,by simp⟩
      rw [encode_cons,List.take_append_of_le_length (by omega),chars_torn c short,List.nil_append]

theorem readDocument_torn {fields : List (GoString × Document GoString)}
    (fits : (Document.obj fields).fits maxNestingDepth = true) {n : Nat}
    (short : n < (marshal (.obj fields)).length) : readDocument ((marshal (.obj fields)).take n) = none := by
  obtain ⟨before,rest,torn,same,left,ends⟩ := chars_take (print goStyle (.obj fields)) n
  rw [readDocument,marshal,left]
  cases torn with
  | zero =>
    rw [List.replicate_zero,List.append_nil]
    refine parse_torn goStyle fits same ?_
    intro empty
    exact absurd (ends empty) (Nat.not_le.mpr short)
  | succ torn =>
    rw [List.replicate_succ',← List.append_assoc]
    exact parse_wide (by decide) _

theorem unmarshal_torn {α : Type} (field : α → List Char → Document (List Char) → α × Option Err) (zero : α)
    {fields : List (GoString × Document GoString)} (fits : (Document.obj fields).fits maxNestingDepth = true)
    {n : Nat} (short : n < (marshal (.obj fields)).length) :
    unmarshal field zero ((marshal (.obj fields)).take n) = .error errSyntax := by
  rw [unmarshal,readDocument_torn fits short]

/-- The body of one of the two messages that the service publishes. -/
inductive Published : GoString → Prop where
  | upload (e : AvatarUploadEvent) : Published (marshalUpload e)
  | delete (e : AvatarDeleteEvent) : Published (marshalDelete e)

theorem Published.torn {body : GoString} (published : Published body) {n : Nat} (short : n < body.length)
    {α : Type} (field : α → List Char → Document (List Char) → α × Option Err) (zero : α) :
    unmarshal field zero (body.take n) = .error errSyntax := by
  cases published with
  | upload e => exact unmarshal_torn field zero rfl short
  | delete e => exact unmarshal_torn field zero (deleteDocument_fits e) short

/-! ### Messages between the server and the worker -/

theorem isText_ascii {s : GoString} (ascii : ∀ b ∈ s, b < 0x80) : IsText s := by
  induction s with
  | nil => exact ⟨[],rfl⟩
  | cons b s ih =>
    rw [List.forall_mem_cons] at ascii
    obtain ⟨text,rfl⟩ := ih ascii.2
    obtain ⟨c,same⟩ := encode_single ascii.1
    exact ⟨c :: text,by rw [encode_cons,same]; rfl⟩

theorem isText_append {s t : GoString} (first : IsText s) (second : IsText t) : IsText (s ++ t) := by
  obtain ⟨a,rfl⟩ := first
  obtain ⟨b,rfl⟩ := second
  exact ⟨a ++ b,by simp [encode]⟩

theorem userIDByte_ascii {b : UInt8} (valid : userIDByte b = true) : b < 0x80 := by
  simp only [userIDByte,Bool.or_eq_true,Bool.and_eq_true,decide_eq_true_eq,beq_iff_eq,
    UInt8.le_iff_toNat_le,← UInt8.toNat_inj] at valid
  rw [ascii_iff]
  simp at valid
  omega

theorem isText_userID {userID : GoString} (valid : validateUserID userID = .ok ()) : IsText userID :=
  isText_ascii fun b member => userIDByte_ascii ((validateUserID_ok valid).2.2 b member)

theorem isText_uuid (id : UUID) : IsText id.string := by
  refine isText_ascii fun b member => ?_
  have digit := List.all_eq_true.mp id.digits b member
  simp only [isHexOrDash,Bool.or_eq_true,Bool.and_eq_true,decide_eq_true_eq,beq_iff_eq,
    UInt8.le_iff_toNat_le,← UInt8.toNat_inj] at digit
  rw [ascii_iff]
  simp at digit
  omega

theorem isText_originalKey {userID : GoString} (valid : validateUserID userID = .ok ()) (id : UUID) :
    IsText (originalObjectKey userID id) := by
  have fixed (s : GoString) (ascii : s.all (· < 0x80) = true) : IsText s :=
    isText_ascii fun b member => by simpa using List.all_eq_true.mp ascii b member
  unfold originalObjectKey
  exact isText_append (isText_append (isText_append (isText_append (fixed _ (by decide)) (isText_userID valid))
    (fixed _ (by decide))) (isText_uuid id)) (fixed _ (by decide))

/-- A handler that gives the message back without having called anything. -/
def Refuses (handling : Prog (Except Err Unit)) : Prop := ∃ err, handling = .done (.error err)

/-- What the server publishes the worker works on as it was published, and a body that is
cut off it refuses before anything is touched. -/
theorem messages_whole_or_refused (P : Packages) (upload : P.unmarshalUpload = unmarshalUpload)
    (delete : P.unmarshalDelete = unmarshalDelete) (p : Worker.Processor) {input : UploadInput}
    (valid : validateUserID input.userID = .ok ()) (id : UUID) {thumbnails : GoMap}
    (texts : ∀ entry ∈ thumbnails, IsText entry.2) (order : List GoString) :
    Worker.handleUpload P p (marshalUpload (AvatarService.uploadEvent (AvatarService.newAvatar input id))) =
        Worker.processUpload P p (AvatarService.uploadEvent (AvatarService.newAvatar input id)) ∧
      Worker.handleDelete P p (marshalDelete (AvatarService.deleteEvent id
          (allS3Keys (originalObjectKey input.userID id) thumbnails order))) =
        Worker.processDelete p (AvatarService.deleteEvent id
          (allS3Keys (originalObjectKey input.userID id) thumbnails order)) ∧
      ∀ body, Published body → ∀ n < body.length,
        Refuses (Worker.handleUpload P p (body.take n)) ∧ Refuses (Worker.handleDelete P p (body.take n)) := by
  have original := isText_originalKey valid id
  refine ⟨?_,?_,?_⟩
  · have whole := (repairedUpload_iff (AvatarService.uploadEvent (AvatarService.newAvatar input id))).mpr
      ⟨isText_uuid id,isText_userID valid,original⟩
    rw [Worker.handleUpload,upload,unmarshalUpload_marshalUpload,whole]
  · have keys : ∀ key ∈ allS3Keys (originalObjectKey input.userID id) thumbnails order, IsText key := by
      unfold allS3Keys
      rw [List.forall_mem_cons]
      refine ⟨original,fun key member => ?_⟩
      obtain ⟨size,-,found⟩ := List.mem_filterMap.mp member
      exact texts _ (mem_of_lookup found)
    have whole := (repairedDelete_iff (AvatarService.deleteEvent id
      (allS3Keys (originalObjectKey input.userID id) thumbnails order))).mpr ⟨isText_uuid id,keys⟩
    rw [Worker.handleDelete,delete,unmarshalDelete_marshalDelete,whole]
  · intro body published n short
    constructor
    · rw [Worker.handleUpload,upload,unmarshalUpload,published.torn short]
      exact ⟨_,rfl⟩
    · rw [Worker.handleDelete,delete,unmarshalDelete,published.torn short]
      exact ⟨_,rfl⟩

def samplePackages : Packages :=
  { Packages.sample with unmarshalUpload := unmarshalUpload, unmarshalDelete := unmarshalDelete }

def sampleInput : UploadInput := ⟨lit "ann",lit "a.png",lit "image/png",3,[1,2,3]⟩

theorem messages_ann :
    Worker.handleUpload samplePackages ⟨⟨none⟩,⟨none⟩,1000⟩
        (marshalUpload (AvatarService.uploadEvent (AvatarService.newAvatar sampleInput UUID.nil))) =
      Worker.processUpload samplePackages ⟨⟨none⟩,⟨none⟩,1000⟩
        (AvatarService.uploadEvent (AvatarService.newAvatar sampleInput UUID.nil)) :=
  (messages_whole_or_refused samplePackages rfl rfl ⟨⟨none⟩,⟨none⟩,1000⟩ (by decide) UUID.nil
    (by simp : ∀ entry ∈ ([] : GoMap), IsText entry.2) []).1

/-! ### The thumbnail column -/

mutual
/-- The document that a column's value is. -/
def document : Json → Document GoString
  | .null => .null
  | .bool b => .bool b
  | .num text => .num (chars text)
  | .str s => .str s
  | .arr items => .arr (itemDocuments items)
  | .obj fields => .obj (fieldDocuments fields)

def itemDocuments : List Json → List (Document GoString)
  | [] => []
  | v :: rest => document v :: itemDocuments rest

def fieldDocuments : List (GoString × Json) → List (GoString × Document GoString)
  | [] => []
  | (name,v) :: rest => (name,document v) :: fieldDocuments rest
end

def mapField (m : GoMap) (key : List Char) (d : Document (List Char)) : GoMap × Option Err :=
  (assign m (encode key) (decodeString [] d).1,(decodeString [] d).2)

/-- `json.Marshal` of the map of a row's thumbnails, in the order of its keys. -/
def marshalThumbnails (m : GoMap) : GoString := marshal (document (Postgres.marshalThumbnails m))

/-- `unmarshalThumbnails` on the bytes of the column -/
def unmarshalThumbnails (b : GoString) : Except Err GoMap :=
  if b = [] then .ok []
  else
    match unmarshal mapField [] b with
    | .ok m => .ok m
    | .error err => .error (.errorf "unmarshal thumbnails: %w" [] err)

/-- A field whose name, and whose value if it is a string, is text. -/
def Textual : GoString × Json → Prop
  | (name,.str s) => IsText name ∧ IsText s
  | (name,_) => IsText name

/-- A value as `jsonb` holds it: a name stands for one field, and strings are text. -/
structure Column (v : Json) : Prop where
  fits : (document v).fits maxNestingDepth = true
  unique : ∀ fields, v = .obj fields → (fields.map Prod.fst).Nodup
  texts : ∀ fields, v = .obj fields → ∀ field ∈ fields, Textual field

theorem decodeString_field {name : GoString} {v : Json} (text : Textual (name,v)) :
    (decodeString [] ((document v).map chars)).2 = none ∧
        Postgres.decodeField (name,v) = .ok (name,(decodeString [] ((document v).map chars)).1) ∨
      (decodeString [] ((document v).map chars)).2 = some errType ∧
        ∃ err, Postgres.decodeField (name,v) = .error err := by
  cases v with
  | str s =>
    refine .inl ⟨rfl,?_⟩
    simp [document,Document.map,decodeString,Postgres.decodeField,encode_chars_iff.mpr text.2]
  | null => exact .inl ⟨rfl,rfl⟩
  | bool b => exact .inr ⟨rfl,_,rfl⟩
  | num t => exact .inr ⟨rfl,_,rfl⟩
  | arr items => exact .inr ⟨rfl,_,rfl⟩
  | obj fields => exact .inr ⟨rfl,_,rfl⟩

/-- A failed field fails the object whatever follows. -/
theorem decodeStruct_failed {α : Type} (field : α → List Char → Document (List Char) → α × Option Err)
    (fields : List (List Char × Document (List Char))) (value : α) (err : Err) :
    decodeStruct field fields value (some err) = .error err := by
  induction fields generalizing value with
  | nil => rfl
  | cons first rest ih => simpa [decodeStruct] using ih _

theorem Textual.name {field : GoString × Json} (text : Textual field) : IsText field.1 := by
  obtain ⟨name,v⟩ := field
  cases v with
  | str s => exact text.1
  | null => exact text
  | bool b => exact text
  | num t => exact text
  | arr items => exact text
  | obj fields => exact text

theorem decodeFields_text {fields : List (GoString × Json)} {m : GoMap}
    (unique : (m.map Prod.fst ++ fields.map Prod.fst).Nodup) (texts : ∀ field ∈ fields, Textual field) :
    (decodeStruct mapField (mapFields chars (fieldDocuments fields)) m none).toOption =
      ((Postgres.decodeFields fields).toOption).map (m ++ ·) := by
  induction fields generalizing m with
  | nil => simp [fieldDocuments,mapFields,decodeStruct,Postgres.decodeFields,Except.toOption]
  | cons field rest ih =>
    obtain ⟨name,v⟩ := field
    rw [List.forall_mem_cons] at texts
    have key : encode (chars name) = name := encode_chars_iff.mpr texts.1.name
    have fresh : name ∉ m.map Prod.fst := by
      intro member
      exact (List.nodup_append.mp unique).2.2 name member name (by simp) rfl
    simp only [fieldDocuments,mapFields,decodeStruct,mapField,key,assign_new fresh,Option.none_or,
      Postgres.decodeFields]
    rcases decodeString_field texts.1 with ⟨fine,decoded⟩ | ⟨wrong,err,decoded⟩
    · have next : ((m ++ [(name,(decodeString [] ((document v).map chars)).1)]).map Prod.fst ++
          rest.map Prod.fst).Nodup := by simpa using unique
      rw [fine,ih next texts.2,decoded]
      cases Postgres.decodeFields rest with
      | error err => rfl
      | ok entries => simp [Except.toOption]
    · rw [wrong,decodeStruct_failed,decoded]
      rfl

/-- The bytes of the column say what its value says. -/
theorem column_refined {style : Style GoString} (meaning : style.meaning = chars) {v : Json} (column : Column v) :
    (unmarshalThumbnails (encode (print style (document v)))).toOption =
      (Postgres.unmarshalThumbnails v).toOption := by
  have read : readDocument (encode (print style (document v))) = some ((document v).map chars) := by
    rw [readDocument,chars_encode,parse_print style column.fits,meaning]
  have written : encode (print style (document v)) ≠ [] := by
    intro empty
    rw [empty] at read
    contradiction
  rw [unmarshalThumbnails,if_neg written,unmarshal,read]
  cases v with
  | obj fields =>
    have decoded := decodeFields_text (m := []) (by simpa using column.unique fields rfl) (column.texts fields rfl)
    simp only [document,Document.map,Postgres.unmarshalThumbnails]
    revert decoded
    cases decodeStruct mapField (mapFields chars (fieldDocuments fields)) [] none <;>
      cases Postgres.decodeFields fields <;> simp [Except.toOption]
  | null => rfl
  | bool b => rfl
  | num t => rfl
  | str s => rfl
  | arr items => rfl

theorem strings_column {m : GoMap} (unique : (m.map Prod.fst).Nodup)
    (texts : ∀ entry ∈ m, IsText entry.1 ∧ IsText entry.2) :
    Column (.obj (m.map fun entry => (entry.1,.str entry.2))) where
  fits := by
    have flat (m : GoMap) (n : Nat) :
        fieldsFit n (fieldDocuments (m.map fun entry => (entry.1,Json.str entry.2))) = true := by
      induction m with
      | nil => rfl
      | cons entry m ih => simpa [fieldDocuments,document,fieldsFit,Document.fits] using ih
    simp [document,Document.fits,flat,maxNestingDepth]
  unique := by
    rintro fields ⟨rfl⟩
    simpa [Function.comp_def] using unique
  texts := by
    rintro fields ⟨rfl⟩ field member
    obtain ⟨entry,inside,rfl⟩ := List.mem_map.mp member
    exact texts entry inside

theorem decodeFields_map (m : GoMap) :
    Postgres.decodeFields (m.map fun entry => (entry.1,.str entry.2)) = .ok m := by
  induction m with
  | nil => rfl
  | cons entry m ih => simp [Postgres.decodeFields,Postgres.decodeField,ih]

/-- The column holds the map that was marshalled, its bytes say what its value says in
whichever style the database prints them, and the map comes back whole. A style has the same
blanks behind every colon and the same behind every comma, and escapes characters of one code
unit only; `jsonb` prints so. -/
theorem thumbnails_cross_column {style : Style GoString} (meaning : style.meaning = chars) :
    (∀ v, Column v → (unmarshalThumbnails (encode (print style (document v)))).toOption =
        (Postgres.unmarshalThumbnails v).toOption) ∧
      ∀ m : GoMap, (m.map Prod.fst).Nodup → (∀ entry ∈ m, IsText entry.1 ∧ IsText entry.2) →
        readDocument (marshalThumbnails m) = some ((document (Postgres.marshalThumbnails m)).map chars) ∧
          ∀ kept : GoMap, kept.Perm m → (unmarshalThumbnails (encode (print style
            (document (.obj (kept.map fun entry => (entry.1,.str entry.2))))))).toOption = some kept := by
  refine ⟨fun v column => column_refined meaning column,fun m unique texts => ⟨?_,fun kept perm => ?_⟩⟩
  · have sorted := Postgres.sortedByKey_perm m
    have column := strings_column ((sorted.map Prod.fst).nodup_iff.mpr unique)
      fun entry member => texts entry (sorted.mem_iff.mp member)
    exact readDocument_marshal column.fits
  · have column := strings_column ((perm.map Prod.fst).nodup_iff.mpr unique)
      fun entry member => texts entry (perm.mem_iff.mp member)
    rw [column_refined meaning column,Postgres.unmarshalThumbnails,decodeFields_map]
    rfl

/-- `jsonb` puts a blank behind a colon and a comma. -/
def columnStyle : Style GoString :=
  { goStyle with behindColon := [' '], behindComma := [' '], colonBlank := rfl, commaBlank := rfl }

theorem thumbnails_cross_jsonb : (unmarshalThumbnails (encode (print columnStyle (document (.obj
    ([(lit "300x300",lit "b"),(lit "100x100",lit "a")].map fun entry => (entry.1,.str entry.2))))))).toOption =
      some [(lit "300x300",lit "b"),(lit "100x100",lit "a")] := by
  have same : columnStyle.meaning = chars := rfl
  have texts : ∀ entry ∈ [(lit "100x100",lit "a"),(lit "300x300",lit "b")], IsText entry.1 ∧ IsText entry.2 := by
    have ascii (s : GoString) (small : s.all (· < 0x80) = true) : IsText s :=
      isText_ascii fun b member => by simpa using List.all_eq_true.mp small b member
    intro entry member
    rcases List.mem_cons.mp member with rfl | member
    · exact ⟨ascii _ (by decide),ascii _ (by decide)⟩
    · rw [List.mem_singleton.mp member]
      exact ⟨ascii _ (by decide),ascii _ (by decide)⟩
  exact ((thumbnails_cross_column same).2 _ (by decide) texts).2 _ (List.Perm.swap _ _ _)

end GophProfile.Wire
