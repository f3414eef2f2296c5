import Mathlib.Data.List.Basic

/-! JSON texts: the pushdown machine that reads one, a character at a time, and the printing
of a document in any style of blanks and escapes, which the machine reads back. -/
namespace JsonText

/-- A document over a type of strings; an object keeps its fields as they came. -/
inductive Document (σ : Type) where
  | null
  | bool (b : Bool)
  | num (text : List Char)
  | str (s : σ)
  | arr (items : List (Document σ))
  | obj (fields : List (σ × Document σ))

/-! ### The machine -/

/-- A container that is not closed yet. -/
inductive Frame where
  | array (items : List (Document (List Char)))
  | object (fields : List (List Char × Document (List Char)))
  | member (fields : List (List Char × Document (List Char))) (key : List Char)

inductive Word where
  | null | yes | no

def Word.letters : Word → List Char
  | .null => ['n','u','l','l']
  | .yes => ['t','r','u','e']
  | .no => ['f','a','l','s','e']

def Word.document : Word → Document (List Char)
  | .null => .null
  | .yes => .bool true
  | .no => .bool false

/-- What the next character is read as. -/
inductive State where
  | value
  | firstItem
  | firstKey
  | key
  | colon (key : List Char)
  | string (isKey : Bool) (read : List Char) (high : Option Nat)
  | escape (isKey : Bool) (read : List Char) (high : Option Nat)
  | unicode (isKey : Bool) (read : List Char) (high : Option Nat) (digits : List Nat)
  | number (text : List Char)
  | word (w : Word) (read : Nat)
  | done (d : Document (List Char))

abbrev Machine := State × List Frame

def initial : Machine := (.value,[])

def isSpace (c : Char) : Bool := c == ' ' || c == '\t' || c == '\r' || c == '\n'

def isNumberChar (c : Char) : Bool :=
  c.isDigit || c == '-' || c == '+' || c == '.' || c == 'e' || c == 'E'

def isExponent : List Char → Bool
  | '+' :: digits => !digits.isEmpty && digits.all Char.isDigit
  | '-' :: digits => !digits.isEmpty && digits.all Char.isDigit
  | digits => !digits.isEmpty && digits.all Char.isDigit

/-- What may follow the digits of a number. -/
def isScale : List Char → Bool
  | [] => true
  | 'e' :: rest => isExponent rest
  | 'E' :: rest => isExponent rest
  | _ => false

def isFraction : List Char → Bool
  | '.' :: rest => rest.head?.any Char.isDigit && isScale (rest.dropWhile Char.isDigit)
  | rest => isScale rest

def isUnsigned : List Char → Bool
  | '0' :: rest => isFraction rest
  | c :: rest => c.isDigit && isFraction (rest.dropWhile Char.isDigit)
  | [] => false

def isNumber : List Char → Bool
  | '-' :: rest => isUnsigned rest
  | text => isUnsigned text

/-- The letters of the short escapes. -/
def unescape (c : Char) : Option Char :=
  if c == '"' || c == '\\' || c == '/' then some c
  else if c == 'b' then some (.ofNat 8)
  else if c == 'f' then some (.ofNat 12)
  else if c == 'n' then some '\n'
  else if c == 'r' then some '\r'
  else if c == 't' then some '\t'
  else none

def hexValue (c : Char) : Option Nat :=
  if '0' ≤ c && c ≤ '9' then some (c.toNat - 48)
  else if 'a' ≤ c && c ≤ 'f' then some (c.toNat - 87)
  else if 'A' ≤ c && c ≤ 'F' then some (c.toNat - 55)
  else none

def replacement : Char := .ofNat 0xFFFD

def isHigh (unit : Nat) : Bool := 0xD800 ≤ unit && unit < 0xDC00
def isLow (unit : Nat) : Bool := 0xDC00 ≤ unit && unit < 0xE000

/-- A high surrogate that no low one followed is lost. -/
def flush (read : List Char) : Option Nat → List Char
  | none => read
  | some _ => read ++ [replacement]

/-- One escaped code unit after what is read of a string. -/
def addUnit (read : List Char) (high : Option Nat) (unit : Nat) : List Char × Option Nat :=
  if isHigh unit then (flush read high,some unit)
  else if isLow unit then
    match high with
    | some first => (read ++ [.ofNat (0x10000 + (first - 0xD800) * 1024 + (unit - 0xDC00))],none)
    | none => (read ++ [replacement],none)
  else (flush read high ++ [.ofNat unit],none)

section
variable (limit : Nat)

def push (frame : Frame) (state : State) (stack : List Frame) : Option Machine :=
  if stack.length < limit then some (state,frame :: stack) else none

/-- A value begins. -/
def begin (c : Char) (stack : List Frame) : Option Machine :=
  if c == '{' then push limit (.object []) .firstKey stack
  else if c == '[' then push limit (.array []) .firstItem stack
  else if c == '"' then some (.string false [] none,stack)
  else if c == 't' then some (.word .yes 1,stack)
  else if c == 'f' then some (.word .no 1,stack)
  else if c == 'n' then some (.word .null 1,stack)
  else if c == '-' || c.isDigit then some (.number [c],stack)
  else none

/-- A value has ended. -/
def after (d : Document (List Char)) (c : Char) (stack : List Frame) : Option Machine :=
  if isSpace c then some (.done d,stack)
  else
    match stack with
    | .array items :: below =>
      if c == ',' then some (.value,.array (items ++ [d]) :: below)
      else if c == ']' then some (.done (.arr (items ++ [d])),below)
      else none
    | .member fields key :: below =>
      if c == ',' then some (.key,.object (fields ++ [(key,d)]) :: below)
      else if c == '}' then some (.done (.obj (fields ++ [(key,d)])),below)
      else none
    | _ => none

/-- A string has ended. -/
def close (isKey : Bool) (text : List Char) : State := if isKey then .colon text else .done (.str text)

def step (c : Char) : Machine → Option Machine
  | (.value,stack) => if isSpace c then some (.value,stack) else begin limit c stack
  | (.firstItem,stack) =>
    if isSpace c then some (.firstItem,stack)
    else if c == ']' then some (.done (.arr []),stack.tail)
    else begin limit c stack
  | (.firstKey,stack) =>
    if isSpace c then some (.firstKey,stack)
    else if c == '}' then some (.done (.obj []),stack.tail)
    else if c == '"' then some (.string true [] none,stack)
    else none
  | (.key,stack) =>
    if isSpace c then some (.key,stack)
    else if c == '"' then some (.string true [] none,stack)
    else none
  | (.colon key,stack) =>
    if isSpace c then some (.colon key,stack)
    else
      match stack with
      | .object fields :: below => if c == ':' then some (.value,.member fields key :: below) else none
      | _ => none
  | (.string isKey read high,stack) =>
    if c == '"' then some (close isKey (flush read high),stack)
    else if c == '\\' then some (.escape isKey read high,stack)
    else if c.toNat < 0x20 then none
    else some (.string isKey (flush read high ++ [c]) none,stack)
  | (.escape isKey read high,stack) =>
    if c == 'u' then some (.unicode isKey read high [],stack)
    else (unescape c).map fun letter => (.string isKey (flush read high ++ [letter]) none,stack)
  | (.unicode isKey read high digits,stack) =>
    (hexValue c).map fun digit =>
      if digits.length < 3 then (.unicode isKey read high (digits ++ [digit]),stack)
      else
        let unit := (digits ++ [digit]).foldl (fun n d => n * 16 + d) 0
        (.string isKey (addUnit read high unit).1 (addUnit read high unit).2,stack)
  | (.number text,stack) =>
    if isNumberChar c then some (.number (text ++ [c]),stack)
    else if isNumber text then after (.num text) c stack
    else none
  | (.word w read,stack) =>
    if w.letters[read]? ≠ some c then none
    else if read + 1 < w.letters.length then some (.word w (read + 1),stack)
    else some (.done w.document,stack)
  | (.done d,stack) => after d c stack

def run : List Char → Machine → Option Machine
  | [],m => some m
  | c :: text,m => (step limit c m).bind (run text)

/-- The end of the input counts as one more blank. -/
def finish (m : Machine) : Option (Document (List Char)) :=
  match step limit ' ' m with
  | some (.done d,[]) => some d
  | _ => none

def parse (text : List Char) : Option (Document (List Char)) :=
  (run limit text initial).bind (finish limit)

end

variable {limit : Nat} {σ τ : Type} {c : Char} {m m' : Machine} {stack : List Frame}

theorem run_append (text more : List Char) (m : Machine) :
    run limit (text ++ more) m = (run limit text m).bind (run limit more) := by
  induction text generalizing m with
  | nil => rfl
  | cons c text ih =>
    simp only [List.cons_append,run]
    cases step limit c m with
    | none => rfl
    | some next => simpa using ih next

/-! ### Where a text ends -/

/-- A whole value has been read, or a number that may go on. -/
def Whole (m : Machine) : Prop := m.2 = [] ∧ ((∃ d, m.1 = .done d) ∨ ∃ text, m.1 = .number text)

theorem after_nil {d : Document (List Char)} (taken : after d c [] = some m) :
    isSpace c = true ∧ m = (.done d,[]) := by
  simp only [after] at taken
  split at taken
  · next blank => exact ⟨blank,(Option.some.inj taken).symm⟩
  · contradiction

theorem Whole.step (whole : Whole m) (taken : step limit c m = some m') :
    Whole m' ∧ (isSpace c = true ∨ isNumberChar c = true) := by
  obtain ⟨state,stack⟩ := m
  obtain ⟨rfl,⟨d,rfl⟩ | ⟨text,rfl⟩⟩ := whole
  · obtain ⟨blank,rfl⟩ := after_nil taken
    exact ⟨⟨rfl,.inl ⟨d,rfl⟩⟩,.inl blank⟩
  · simp only [JsonText.step] at taken
    split at taken
    · next more =>
      cases taken
      exact ⟨⟨rfl,.inr ⟨_,rfl⟩⟩,.inr more⟩
    · split at taken
      · obtain ⟨blank,rfl⟩ := after_nil taken
        exact ⟨⟨rfl,.inl ⟨_,rfl⟩⟩,.inl blank⟩
      · contradiction

theorem Whole.run {text : List Char} (whole : Whole m) (taken : run limit text m = some m') :
    ∀ c ∈ text, isSpace c = true ∨ isNumberChar c = true := by
  induction text generalizing m with
  | nil => simp
  | cons c text ih =>
    simp only [JsonText.run,Option.bind_eq_some_iff] at taken
    obtain ⟨next,first,rest⟩ := taken
    obtain ⟨still,read⟩ := whole.step first
    rw [List.forall_mem_cons]
    exact ⟨read,ih still rest⟩

/-- A blank ends nothing but a value. -/
theorem step_blank {d : Document (List Char)} (taken : step limit ' ' m = some (.done d,stack)) :
    m.2 = stack ∧ (m.1 = .done d ∨ ∃ text, m.1 = .number text) := by
  obtain ⟨state,below⟩ := m
  cases state with
  | done e =>
    cases taken
    exact ⟨rfl,.inl rfl⟩
  | number text =>
    simp only [JsonText.step] at taken
    split at taken
    · cases taken
    · split at taken
      · cases taken
        exact ⟨rfl,.inr ⟨text,rfl⟩⟩
      · contradiction
  | word w read =>
    have absent : w.letters[read]? ≠ some ' ' := by
      intro there
      have member := List.mem_of_getElem? there
      cases w <;> simp [Word.letters] at member
    simp [JsonText.step,absent] at taken
  | unicode isKey read high digits => simp [JsonText.step,hexValue] at taken
  | escape isKey read high => simp [JsonText.step,unescape] at taken
  | string isKey read high => cases taken
  | value => cases taken
  | firstItem => cases taken
  | firstKey => cases taken
  | key => cases taken
  | colon key => cases taken

theorem finish_whole {d : Document (List Char)} (finished : finish limit m = some d) : Whole m := by
  simp only [finish] at finished
  split at finished
  · next taken =>
    obtain ⟨empty,state⟩ := step_blank taken
    exact ⟨empty,state.imp_left fun done => ⟨_,done⟩⟩
  · contradiction

/-- What a text ends with when it is neither a blank nor part of a number ends it: nothing
shorter is a text. -/
theorem parse_shorter {d : Document (List Char)} {text rest : List Char}
    (read : parse limit (text ++ rest) = some d) (here : c ∈ rest) (solid : isSpace c = false)
    (other : isNumberChar c = false) : parse limit text = none := by
  rw [parse,Option.bind_eq_none_iff]
  intro m reached
  by_contra finished
  obtain ⟨e,finished⟩ := Option.ne_none_iff_exists'.mp finished
  obtain ⟨last,whole,-⟩ := Option.bind_eq_some_iff.mp read
  rw [run_append,reached,Option.bind_some] at whole
  have ends := (finish_whole finished).run whole c here
  simp [solid,other] at ends

section Wide
variable (wide : 128 ≤ c.toNat)
include wide

theorem wide_differs {x : Char} (small : x.toNat < 128) : (c == x) = false := by
  rw [beq_eq_false_iff_ne]
  rintro rfl
  omega

theorem wide_above {x : Char} (small : x.toNat < 128) : decide (c ≤ x) = false := by
  rw [decide_eq_false_iff_not,Char.le_def,UInt32.le_iff_toNat_le]
  show ¬c.toNat ≤ x.toNat
  omega

theorem wide_special : ∀ x ∈ [' ','\t','\r','\n','{','}','[',']','"','\\','/',':',',','-','+','.',
    'b','e','E','f','n','r','t','u'], (c == x) = false := by
  have small : ∀ x ∈ [' ','\t','\r','\n','{','}','[',']','"','\\','/',':',',','-','+','.',
    'b','e','E','f','n','r','t','u'], x.toNat < 128 := by simp
  exact fun x member => wide_differs wide (small x member)

theorem wide_digit : c.isDigit = false := by
  rw [Char.isDigit,Bool.and_eq_false_iff]
  exact .inr (wide_above wide (x := '9') (by decide))

theorem wide_hex : hexValue c = none := by
  simp [hexValue,wide_above wide (x := '9') (by decide),wide_above wide (x := 'f') (by decide),
    wide_above wide (x := 'F') (by decide)]

/-- Outside ASCII there is nothing but the text of strings. -/
theorem step_wide (taken : step limit c m = some m') : ∃ isKey read high, m'.1 = .string isKey read high := by
  have special := wide_special wide
  simp only [List.forall_mem_cons,List.not_mem_nil,false_implies,implies_true,and_true] at special
  have blank : isSpace c = false := by simp [isSpace,special]
  have begins (stack : List Frame) : begin limit c stack = none := by
    simp [begin,special,wide_digit wide]
  have ends (d : Document (List Char)) (stack : List Frame) : after d c stack = none := by
    unfold after
    simp only [blank,Bool.false_eq_true,if_false]
    split <;> simp [special]
  obtain ⟨state,stack⟩ := m
  cases state with
  | string isKey read high =>
    have printable : ¬c.toNat < 0x20 := by omega
    simp [step,special,printable] at taken
    exact ⟨_,_,_,by rw [← taken]⟩
  | value => simp [step,blank,begins] at taken
  | firstItem => simp [step,blank,special,begins] at taken
  | firstKey => simp [step,blank,special] at taken
  | key => simp [step,blank,special] at taken
  | colon key =>
    simp only [step,blank,Bool.false_eq_true,if_false] at taken
    split at taken <;> simp [special] at taken
  | escape isKey read high => simp [step,special,unescape] at taken
  | unicode isKey read high digits => simp [step,wide_hex wide] at taken
  | number text =>
    have other : isNumberChar c = false := by simp [isNumberChar,special,wide_digit wide]
    simp [step,other,ends] at taken
  | word w read =>
    have absent : w.letters[read]? ≠ some c := by
      intro there
      have member := List.mem_of_getElem? there
      cases w <;> simp [Word.letters] at member <;> rcases member with rfl | rfl | rfl | rfl | rfl <;>
        exact absurd wide (by decide)
    simp [step,absent] at taken
  | done d => simp [step,ends] at taken

end Wide

/-- So no text ends there. -/
theorem parse_wide (wide : 128 ≤ c.toNat) (text : List Char) : parse limit (text ++ [c]) = none := by
  rw [parse,Option.bind_eq_none_iff]
  intro m reached
  rw [run_append] at reached
  obtain ⟨m₀,-,last⟩ := Option.bind_eq_some_iff.mp reached
  have taken : step limit c m₀ = some m := by simpa [run] using last
  obtain ⟨isKey,read,high,state⟩ := step_wide wide taken
  by_contra finished
  obtain ⟨d,finished⟩ := Option.ne_none_iff_exists'.mp finished
  obtain ⟨-,⟨d,done⟩ | ⟨text,number⟩⟩ := finish_whole finished
  · simp [state] at done
  · simp [state] at number

/-! ### Strings -/

def unitOf (a b c d : Char) : Option Nat := do
  let digits ← [a,b,c,d].mapM hexValue
  return digits.foldl (fun n d => n * 16 + d) 0

/-- A text between quotation marks that spells a string without a lone surrogate. -/
inductive Spells : List Char → List Char → Prop where
  | nil : Spells [] []
  | plain {text chars : List Char} {c : Char} (printable : 0x20 ≤ c.toNat) (quote : c ≠ '"')
      (backslash : c ≠ '\\') (rest : Spells text chars) : Spells (c :: text) (c :: chars)
  | short {text chars : List Char} {letter c : Char} (escape : unescape letter = some c)
      (rest : Spells text chars) : Spells ('\\' :: letter :: text) (c :: chars)
  | unit {text chars : List Char} {a b c d : Char} {n : Nat} (unit : unitOf a b c d = some n)
      (scalar : isHigh n = false ∧ isLow n = false) (rest : Spells text chars) :
      Spells ('\\' :: 'u' :: a :: b :: c :: d :: text) (.ofNat n :: chars)

theorem addUnit_scalar (read : List Char) {n : Nat} (scalar : isHigh n = false ∧ isLow n = false) :
    addUnit read none n = (read ++ [.ofNat n],none) := by
  simp [addUnit,scalar,flush]

theorem run_unit {isKey : Bool} {read : List Char} {a b c d : Char} {n : Nat}
    (unit : unitOf a b c d = some n) (scalar : isHigh n = false ∧ isLow n = false) (more : List Char) :
    run limit ('\\' :: 'u' :: a :: b :: c :: d :: more) (.string isKey read none,stack) =
      run limit more (.string isKey (read ++ [.ofNat n]) none,stack) := by
  simp only [unitOf,List.mapM_cons,List.mapM_nil,Option.pure_def,Option.bind_eq_bind,
    Option.bind_eq_some_iff,Option.some.injEq] at unit
  obtain ⟨digits,⟨v,first,_,⟨w,second,_,⟨x,third,_,⟨y,fourth,_,rfl,rfl⟩,rfl⟩,rfl⟩,rfl⟩,rfl⟩ := unit
  have added := addUnit_scalar read scalar
  simp only [List.foldl_cons,List.foldl_nil,Nat.zero_mul,Nat.zero_add] at added
  simp [run,step,first,second,third,fourth,added,unescape]

theorem Spells.run {text chars : List Char} (spells : Spells text chars) (isKey : Bool)
    (read more : List Char) :
    JsonText.run limit (text ++ more) (.string isKey read none,stack) =
      JsonText.run limit more (.string isKey (read ++ chars) none,stack) := by
  induction spells generalizing read with
  | nil => simp
  | plain printable quote backslash rest ih =>
    have low : ¬_ < 0x20 := Nat.not_lt.mpr printable
    simp [JsonText.run,step,quote,backslash,low,flush,ih]
  | @short text chars letter c escape rest ih =>
    have other : letter ≠ 'u' := by
      rintro rfl
      simp [unescape] at escape
    simp [JsonText.run,step,escape,other,flush,ih]
  | unit unit scalar rest ih =>
    simp only [List.cons_append]
    rw [run_unit unit scalar,ih]
    simp

/-! ### Numbers -/

theorem digit_number (c : Char) (digit : c.isDigit = true) : isNumberChar c = true := by
  simp [isNumberChar,digit]

theorem all_of_dropWhile {text : List Char}
    (rest : ∀ c ∈ text.dropWhile Char.isDigit, isNumberChar c = true) :
    ∀ c ∈ text, isNumberChar c = true := by
  intro c member
  rw [← List.takeWhile_append_dropWhile (p := Char.isDigit) (l := text),List.mem_append] at member
  rcases member with digits | tail
  · exact digit_number c (List.all_eq_true.mp List.all_takeWhile c digits)
  · exact rest c tail

theorem isExponent_chars {text : List Char} (exponent : isExponent text = true) :
    ∀ c ∈ text, isNumberChar c = true := by
  have signed : ∀ sign digits, isNumberChar sign = true → digits.all Char.isDigit = true →
      ∀ c ∈ sign :: digits, isNumberChar c = true := by
    intro sign digits signs all
    rw [List.forall_mem_cons]
    exact ⟨signs,fun c member => digit_number c (List.all_eq_true.mp all c member)⟩
  unfold isExponent at exponent
  split at exponent
  · exact signed _ _ (by decide) (Bool.and_eq_true_iff.mp exponent).2
  · exact signed _ _ (by decide) (Bool.and_eq_true_iff.mp exponent).2
  · intro c member
    exact digit_number c (List.all_eq_true.mp (Bool.and_eq_true_iff.mp exponent).2 c member)

theorem isScale_chars {text : List Char} (scale : isScale text = true) :
    ∀ c ∈ text, isNumberChar c = true := by
  unfold isScale at scale
  split at scale
  · simp
  · exact List.forall_mem_cons.mpr ⟨by decide,isExponent_chars scale⟩
  · exact List.forall_mem_cons.mpr ⟨by decide,isExponent_chars scale⟩
  · contradiction

theorem isFraction_chars {text : List Char} (fraction : isFraction text = true) :
    ∀ c ∈ text, isNumberChar c = true := by
  unfold isFraction at fraction
  split at fraction
  · rw [Bool.and_eq_true_iff] at fraction
    exact List.forall_mem_cons.mpr ⟨by decide,all_of_dropWhile (isScale_chars fraction.2)⟩
  · exact isScale_chars fraction

theorem isUnsigned_chars {text : List Char} (unsigned : isUnsigned text = true) :
    (∃ c rest, text = c :: rest ∧ c.isDigit = true) ∧ ∀ c ∈ text, isNumberChar c = true := by
  unfold isUnsigned at unsigned
  split at unsigned
  · exact ⟨⟨_,_,rfl,by decide⟩,List.forall_mem_cons.mpr ⟨by decide,isFraction_chars unsigned⟩⟩
  · rw [Bool.and_eq_true_iff] at unsigned
    exact ⟨⟨_,_,rfl,unsigned.1⟩,List.forall_mem_cons.mpr
      ⟨digit_number _ unsigned.1,all_of_dropWhile (isFraction_chars unsigned.2)⟩⟩
  · contradiction

theorem isNumber_chars {text : List Char} (number : isNumber text = true) :
    ∃ c rest, text = c :: rest ∧ (c = '-' ∨ c.isDigit = true) ∧ ∀ c ∈ rest, isNumberChar c = true := by
  unfold isNumber at number
  split at number
  · exact ⟨_,_,rfl,.inl rfl,(isUnsigned_chars number).2⟩
  · obtain ⟨⟨c,rest,rfl,digit⟩,all⟩ := isUnsigned_chars number
    exact ⟨c,rest,rfl,.inr digit,(List.forall_mem_cons.mp all).2⟩

theorem run_numberChars {rest : List Char} (all : ∀ c ∈ rest, isNumberChar c = true)
    (text more : List Char) :
    run limit (rest ++ more) (.number text,stack) = run limit more (.number (text ++ rest),stack) := by
  induction rest generalizing text with
  | nil => simp
  | cons c rest ih =>
    rw [List.forall_mem_cons] at all
    simp [run,step,all.1,ih all.2]

/-- What follows is no part of a number. -/
def Stops (text : List Char) : Prop := ∃ c more, text = c :: more ∧ isNumberChar c = false

theorem run_number {text more : List Char} (number : isNumber text = true) (stops : Stops more) :
    run limit (text ++ more) (.value,stack) = run limit more (.done (.num text),stack) := by
  obtain ⟨c,rest,rfl,first,all⟩ := isNumber_chars number
  obtain ⟨next,more,rfl,other⟩ := stops
  have begins : step limit c (.value,stack) = some (.number [c],stack) := by
    rcases first with rfl | digit
    · rfl
    · have differs (x : Char) (no : x.isDigit = false) : c ≠ x := by
        rintro rfl
        simp [digit] at no
      simp [step,begin,isSpace,digit,differs ' ' rfl,differs '\t' rfl,differs '\r' rfl,differs '\n' rfl,
        differs '{' rfl,differs '[' rfl,differs '"' rfl,differs 't' rfl,differs 'f' rfl,differs 'n' rfl]
  simp only [List.cons_append,run,begins,Option.bind_some]
  rw [run_numberChars all,run]
  simp [step,other,number]

/-! ### Printing -/

/-- How strings are spelled, and the blanks behind a colon and a comma. -/
structure Style (σ : Type) where
  quote : σ → List Char
  meaning : σ → List Char
  spells : ∀ s, Spells (quote s) (meaning s)
  behindColon : List Char
  behindComma : List Char
  colonBlank : behindColon.all isSpace = true
  commaBlank : behindComma.all isSpace = true

mutual
def Document.map (f : σ → τ) : Document σ → Document τ
  | .null => .null
  | .bool b => .bool b
  | .num text => .num text
  | .str s => .str (f s)
  | .arr items => .arr (mapItems f items)
  | .obj fields => .obj (mapFields f fields)

def mapItems (f : σ → τ) : List (Document σ) → List (Document τ)
  | [] => []
  | d :: rest => d.map f :: mapItems f rest

def mapFields (f : σ → τ) : List (σ × Document σ) → List (τ × Document τ)
  | [] => []
  | (key,d) :: rest => (f key,d.map f) :: mapFields f rest
end

mutual
/-- Numbers are spelled as JSON has them, and containers lie at most `n` deep. -/
def Document.fits : Nat → Document σ → Bool
  | _, .null => true
  | _, .bool _ => true
  | _, .num text => isNumber text
  | _, .str _ => true
  | n, .arr items => 0 < n && itemsFit (n - 1) items
  | n, .obj fields => 0 < n && fieldsFit (n - 1) fields

def itemsFit : Nat → List (Document σ) → Bool
  | _, [] => true
  | n, d :: rest => d.fits n && itemsFit n rest

def fieldsFit : Nat → List (σ × Document σ) → Bool
  | _, [] => true
  | n, (_,d) :: rest => d.fits n && fieldsFit n rest
end

section
variable (style : Style σ)

def quoted (s : σ) : List Char := '"' :: (style.quote s ++ ['"'])

mutual
def print : Document σ → List Char
  | .null => Word.null.letters
  | .bool true => Word.yes.letters
  | .bool false => Word.no.letters
  | .num text => text
  | .str s => quoted style s
  | .arr [] => ['[',']']
  | .arr (d :: rest) => '[' :: (print d ++ printItems rest)
  | .obj [] => ['{','}']
  | .obj ((key,d) :: rest) => '{' :: (quoted style key ++ ':' :: style.behindColon ++ print d ++ printFields rest)

/-- The items behind the first. -/
def printItems : List (Document σ) → List Char
  | [] => [']']
  | d :: rest => ',' :: (style.behindComma ++ print d ++ printItems rest)

/-- The fields behind the first. -/
def printFields : List (σ × Document σ) → List Char
  | [] => ['}']
  | (key,d) :: rest =>
    ',' :: (style.behindComma ++ quoted style key ++ ':' :: style.behindColon ++ print d ++ printFields rest)
end

theorem printItems_stops (rest : List (Document σ)) (more : List Char) :
    Stops (printItems style rest ++ more) := by
  cases rest with
  | nil => exact ⟨']',more,by simp [printItems],by decide⟩
  | cons d rest => exact ⟨',',_,by simp [printItems]; rfl,by decide⟩

theorem printFields_stops (rest : List (σ × Document σ)) (more : List Char) :
    Stops (printFields style rest ++ more) := by
  cases rest with
  | nil => exact ⟨'}',more,by simp [printFields],by decide⟩
  | cons field rest => exact ⟨',',_,by simp [printFields]; rfl,by decide⟩

theorem run_blanks {blanks : List Char} (all : blanks.all isSpace = true) (more : List Char) :
    run limit (blanks ++ more) (.value,stack) = run limit more (.value,stack) := by
  induction blanks with
  | nil => rfl
  | cons c blanks ih =>
    rw [List.all_cons,Bool.and_eq_true_iff] at all
    simp [run,step,all.1,ih all.2]

theorem run_blanks_key {blanks : List Char} (all : blanks.all isSpace = true) (more : List Char) :
    run limit (blanks ++ more) (.key,stack) = run limit more (.key,stack) := by
  induction blanks with
  | nil => rfl
  | cons c blanks ih =>
    rw [List.all_cons,Bool.and_eq_true_iff] at all
    simp [run,step,all.1,ih all.2]

theorem run_word (w : Word) (more : List Char) :
    run limit (w.letters ++ more) (.value,stack) = run limit more (.done w.document,stack) := by
  cases w <;> simp [Word.letters,run,step,begin,isSpace]

theorem run_quoted (s : σ) (more : List Char) :
    run limit (quoted style s ++ more) (.value,stack) =
      run limit more (.done (.str (style.meaning s)),stack) := by
  have opens : step limit '"' (.value,stack) = some (.string false [] none,stack) := rfl
  simp only [quoted,List.cons_append,List.append_assoc,List.nil_append,run,opens,Option.bind_some]
  rw [(style.spells s).run]
  rfl

/-- The key of a field, up to its value. -/
theorem run_key (key : σ) (fields : List (List Char × Document (List Char))) (more : List Char) :
    run limit (quoted style key ++ ':' :: (style.behindColon ++ more)) (.key,.object fields :: stack) =
      run limit more (.value,.member fields (style.meaning key) :: stack) := by
  have opens : step limit '"' (.key,.object fields :: stack) =
      some (.string true [] none,.object fields :: stack) := rfl
  simp only [quoted,List.cons_append,List.append_assoc,List.nil_append,run,opens,Option.bind_some]
  rw [(style.spells key).run]
  exact run_blanks style.colonBlank more

/-- The first key of an object is read like any other. -/
theorem run_firstKey (key : σ) (more : List Char) :
    run limit (quoted style key ++ more) (.firstKey,stack) =
      run limit (quoted style key ++ more) (.key,stack) := rfl

theorem print_head {d : Document σ} {n : Nat} (fits : d.fits n = true) :
    ∃ c rest, print style d = c :: rest ∧ isSpace c = false ∧ c ≠ ']' := by
  cases d with
  | null => exact ⟨'n',_,rfl,by decide,by decide⟩
  | bool b => cases b <;> exact ⟨_,_,rfl,by decide,by decide⟩
  | num text =>
    obtain ⟨c,rest,rfl,first,-⟩ := isNumber_chars fits
    refine ⟨c,rest,rfl,?_⟩
    rcases first with rfl | digit
    · decide
    · have differs (x : Char) (no : x.isDigit = false) : c ≠ x := by
        rintro rfl
        simp [digit] at no
      simp [isSpace,differs ' ' rfl,differs '\t' rfl,differs '\r' rfl,differs '\n' rfl,differs ']' rfl]
  | str s => exact ⟨'"',_,rfl,by decide,by decide⟩
  | arr items => cases items <;> exact ⟨'[',_,rfl,by decide,by decide⟩
  | obj fields =>
    cases fields with
    | nil => exact ⟨'{',_,rfl,by decide,by decide⟩
    | cons field rest => exact ⟨'{',_,rfl,by decide,by decide⟩

/-- So is the first item of an array, which is not its end. -/
theorem run_firstItem {d : Document σ} {n : Nat} (fits : d.fits n = true) (more : List Char) :
    run limit (print style d ++ more) (.firstItem,stack) =
      run limit (print style d ++ more) (.value,stack) := by
  obtain ⟨c,rest,same,solid,other⟩ := print_head style fits
  simp [same,run,step,solid,other]

theorem push_ok {frame : Frame} {state : State} (room : stack.length < limit) :
    push limit frame state stack = some (state,frame :: stack) := by
  rw [push,if_pos room]

mutual
theorem run_print (d : Document σ) {stack : List Frame} {n : Nat} (fits : d.fits n = true)
    (room : stack.length + n ≤ limit) {more : List Char} (stops : Stops more) :
    run limit (print style d ++ more) (.value,stack) =
      run limit more (.done (d.map style.meaning),stack) := by
  cases d with
  | null => exact run_word .null more
  | bool b => cases b <;> exact run_word _ more
  | num text => exact run_number fits stops
  | str s => exact run_quoted style s more
  | arr items =>
    simp only [Document.fits,Bool.and_eq_true,decide_eq_true_eq] at fits
    obtain ⟨deep,fits⟩ := fits
    have opens : step limit '[' (.value,stack) = some (.firstItem,.array [] :: stack) := push_ok (by omega)
    have inner (frame : Frame) : (frame :: stack).length + (n - 1) ≤ limit := by
      rw [List.length_cons]
      omega
    cases items with
    | nil =>
      simp only [print,List.cons_append,run,opens,Option.bind_some]
      rfl
    | cons d rest =>
      simp only [itemsFit,Bool.and_eq_true] at fits
      simp only [print,List.cons_append,List.append_assoc,run,opens,Option.bind_some]
      rw [run_firstItem style fits.1,run_print d fits.1 (inner _) (printItems_stops style rest more),
        run_printItems rest [] (d.map style.meaning) fits.2 inner]
      rfl
  | obj fields =>
    simp only [Document.fits,Bool.and_eq_true,decide_eq_true_eq] at fits
    obtain ⟨deep,fits⟩ := fits
    have opens : step limit '{' (.value,stack) = some (.firstKey,.object [] :: stack) := push_ok (by omega)
    have inner (frame : Frame) : (frame :: stack).length + (n - 1) ≤ limit := by
      rw [List.length_cons]
      omega
    cases fields with
    | nil =>
      simp only [print,List.cons_append,run,opens,Option.bind_some]
      rfl
    | cons field rest =>
      obtain ⟨key,d⟩ := field
      simp only [fieldsFit,Bool.and_eq_true] at fits
      simp only [print,List.cons_append,List.append_assoc,run,opens,Option.bind_some]
      rw [run_firstKey,run_key,run_print d fits.1 (inner _) (printFields_stops style rest more),
        run_printFields rest [] (style.meaning key) (d.map style.meaning) fits.2 inner]
      rfl

theorem run_printItems (rest : List (Document σ)) (items : List (Document (List Char)))
    (d : Document (List Char)) {stack : List Frame} {n : Nat} (fits : itemsFit n rest = true)
    (room : ∀ frame : Frame, (frame :: stack).length + n ≤ limit) (more : List Char) :
    run limit (printItems style rest ++ more) (.done d,.array items :: stack) =
      run limit more (.done (.arr (items ++ d :: mapItems style.meaning rest)),stack) := by
  cases rest with
  | nil => rfl
  | cons next rest =>
    simp only [itemsFit,Bool.and_eq_true] at fits
    have comma : step limit ',' (.done d,.array items :: stack) =
        some (.value,.array (items ++ [d]) :: stack) := rfl
    simp only [printItems,List.cons_append,List.append_assoc,run,comma,Option.bind_some]
    rw [run_blanks style.commaBlank,run_print next fits.1 (room _) (printItems_stops style rest more),
      run_printItems rest (items ++ [d]) (next.map style.meaning) fits.2 room]
    simp [mapItems]

theorem run_printFields (rest : List (σ × Document σ)) (fields : List (List Char × Document (List Char)))
    (key : List Char) (d : Document (List Char)) {stack : List Frame}
    {n : Nat} (fits : fieldsFit n rest = true)
    (room : ∀ frame : Frame, (frame :: stack).length + n ≤ limit) (more : List Char) :
    run limit (printFields style rest ++ more) (.done d,.member fields key :: stack) =
      run limit more (.done (.obj (fields ++ (key,d) :: mapFields style.meaning rest)),stack) := by
  cases rest with
  | nil => rfl
  | cons next rest =>
    obtain ⟨name,next⟩ := next
    simp only [fieldsFit,Bool.and_eq_true] at fits
    have comma : step limit ',' (.done d,.member fields key :: stack) =
        some (.key,.object (fields ++ [(key,d)]) :: stack) := rfl
    simp only [printFields,List.cons_append,List.append_assoc,run,comma,Option.bind_some]
    rw [run_blanks_key style.commaBlank,run_key,run_print next fits.1 (room _) (printFields_stops style rest more),
      run_printFields rest (fields ++ [(key,d)]) (style.meaning name) (next.map style.meaning) fits.2 room]
    simp [mapFields]
end

end

/-- What was printed is read back, whatever the style. -/
theorem parse_print (style : Style σ) {d : Document σ} (fits : d.fits limit = true) :
    parse limit (print style d) = some (d.map style.meaning) := by
  have blank : Stops [' '] := ⟨' ',[],rfl,by decide⟩
  have room : ([] : List Frame).length + limit ≤ limit := by simp
  have read := run_print style d fits room blank
  rw [run_append] at read
  have ended : run limit [' '] (.done (d.map style.meaning),[]) = some (.done (d.map style.meaning),[]) := rfl
  obtain ⟨m,reached,last⟩ := Option.bind_eq_some_iff.mp (read.trans ended)
  have next : step limit ' ' m = some (.done (d.map style.meaning),[]) := by simpa [run] using last
  simp [parse,initial,reached,finish,next]

theorem printFields_closed (style : Style σ) (fields : List (σ × Document σ)) :
    ∃ text, printFields style fields = text ++ ['}'] := by
  induction fields with
  | nil => exact ⟨[],rfl⟩
  | cons field rest ih =>
    obtain ⟨text,same⟩ := ih
    obtain ⟨key,d⟩ := field
    exact ⟨',' :: (style.behindComma ++ quoted style key ++ ':' :: style.behindColon ++ print style d ++ text),by
      simp [printFields,same]⟩

theorem print_closed (style : Style σ) (fields : List (σ × Document σ)) :
    ∃ text, print style (.obj fields) = text ++ ['}'] := by
  cases fields with
  | nil => exact ⟨['{'],rfl⟩
  | cons field rest =>
    obtain ⟨text,same⟩ := printFields_closed style rest
    obtain ⟨key,d⟩ := field
    exact ⟨'{' :: (quoted style key ++ ':' :: style.behindColon ++ print style d ++ text),by simp [print,same]⟩

/-- A printed object that is cut off is no text. -/
theorem parse_torn (style : Style σ) {fields : List (σ × Document σ)}
    (fits : (Document.obj fields).fits limit = true) {before rest : List Char}
    (cut : print style (.obj fields) = before ++ rest) (short : rest ≠ []) : parse limit before = none := by
  have read := parse_print style fits
  obtain ⟨text,closed⟩ := print_closed style fields
  have last : rest.getLast short = '}' := by
    have same : text ++ ['}'] = (before ++ rest.dropLast) ++ [rest.getLast short] := by
      rw [List.append_assoc,List.dropLast_concat_getLast,← cut,closed]
    exact (List.cons.inj (List.append_inj' same rfl).2).1.symm
  rw [cut] at read
  exact parse_shorter read (last ▸ List.getLast_mem short) (by decide) (by decide)

end JsonText
