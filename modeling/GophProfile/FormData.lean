import GophProfile.Multipart

/-! Multipart messages as they are sent, and what the reader of forms makes of one that is
delivered whole or only up to a cut. -/
namespace GophProfile.Multipart

open Form

/-! ### Messages -/

structure Boundary where
  bytes : GoString
  nonempty : bytes ≠ []
  short : bytes.length ≤ 70
  oneLine : ∀ c ∈ bytes, c ≠ 0x0D ∧ c ≠ 0x0A

def Boundary.dash (b : Boundary) : GoString := dashBoundary b.bytes
def Boundary.delimiter (b : Boundary) : GoString := crlf ++ b.dash

structure HeaderLine where
  name : GoString
  value : GoString
  named : name ≠ []
  token : ∀ c ∈ name, validHeaderFieldByte c = true
  valid : ∀ c ∈ value, validHeaderValueByte c = true

namespace HeaderLine

variable (h : HeaderLine)

def plain : GoString := h.name ++ 0x3A :: h.value
def text : GoString := h.plain ++ crlf

/-- The line as the reader keeps it. -/
def kept : GoString := h.name ++ 0x3A :: h.value.rdropWhile isLWSPChar

/-- So many bytes of the line, but not all, end before its colon or after its CR. -/
def torn (k : Nat) : Bool := (0 < k && k ≤ h.name.length) || k + 1 == h.text.length

end HeaderLine

def headerText : List HeaderLine → GoString
  | [] => crlf
  | h :: header => h.text ++ headerText header

/-- So many bytes of a header end in a torn line. -/
def tornHeader : List HeaderLine → Nat → Bool
  | [], k => k == 1
  | h :: header, k =>
    if k < h.text.length then h.torn k else tornHeader header (k - h.text.length)

structure Part where
  header : List HeaderLine
  content : GoString

def Part.kept (part : Part) : List GoString := part.header.map HeaderLine.kept

/-- What stands behind a boundary: the parts that follow it, or the dashes that close the
message. -/
def behind (b : Boundary) : List Part → GoString
  | [] => dashes
  | part :: parts =>
    crlf ++ (headerText part.header ++ (part.content ++ (b.delimiter ++ behind b parts)))

/-- So many bytes behind a boundary end in a torn line of a header. -/
def tornBehind (b : Boundary) : List Part → Nat → Bool
  | [], _ => false
  | part :: parts, k =>
    let body := crlf.length + (headerText part.header).length
    if k < body then crlf.length ≤ k && tornHeader part.header (k - crlf.length)
    else tornBehind b parts (k - (body + part.content.length + b.delimiter.length))

/-- The form with the parts in it. -/
def formOf (lib : Library) (form : MultipartForm) (parts : List Part) : MultipartForm :=
  parts.foldl (fun form part => addPart lib form part.kept part.content) form

/-- A message; its boundary comes at the beginning of no line of a content. -/
structure Message where
  boundary : Boundary
  parts : List Part
  epilogue : Option GoString
  clear : ∀ part ∈ parts, ¬boundary.delimiter <:+: crlf ++ part.content

namespace Message

variable (m : Message)

def ending : GoString :=
  match m.epilogue with
  | none => []
  | some epilogue => crlf ++ epilogue

def text : GoString := m.boundary.dash ++ (behind m.boundary m.parts ++ m.ending)

/-- The bytes up to the end of the line that closes the message. -/
def closed : Nat := m.text.length - (m.epilogue.getD []).length

/-- A cut after so many bytes tears a line of a header. -/
def torn (cut : Nat) : Bool := tornBehind m.boundary m.parts (cut - m.boundary.dash.length)

/-- The form that the message carries. -/
def form (lib : Library) : MultipartForm := formOf lib ⟨[],[]⟩ m.parts

end Message

/-! ### Lines -/

theorem cutLine_line {line : GoString} (within : 0x0A ∉ line) (rest : GoString) :
    cutLine (line ++ 0x0A :: rest) = some (line,rest) := by
  induction line with
  | nil => rfl
  | cons c line ih =>
    rw [List.mem_cons,not_or] at within
    rw [List.cons_append,cutLine,if_neg (Ne.symm within.1),ih within.2]
    rfl

theorem cutLine_none {s : GoString} (within : 0x0A ∉ s) : cutLine s = none := by
  induction s with
  | nil => rfl
  | cons c s ih =>
    rw [List.mem_cons,not_or] at within
    rw [cutLine,if_neg (Ne.symm within.1),ih within.2]
    rfl

theorem readLine_crlf {line : GoString} (within : 0x0A ∉ line) (rest : GoString) :
    readLine (line ++ (crlf ++ rest)) = some (line,rest) := by
  have split : line ++ (crlf ++ rest) = (line ++ [0x0D]) ++ 0x0A :: rest := by simp [crlf]
  have cut : cutLine (line ++ (crlf ++ rest)) = some (line ++ [0x0D],rest) := by
    rw [split]
    exact cutLine_line (by simpa using within) rest
  simp [readLine,cut,dropCR]

theorem readLine_last {s : GoString} (within : 0x0A ∉ s) (nonempty : s ≠ []) :
    readLine s = some (s,[]) := by
  simp [readLine,cutLine_none within,nonempty]

/-- The line before is not gone on with. -/
def Unfolded (s : GoString) : Prop := s.head?.any isLWSPChar = false

theorem readContinued_unfolded (kv : GoString) {s : GoString} (unfolded : Unfolded s) :
    readContinued kv s = (kv,s) := by
  have whole : s.dropWhile isLWSPChar = s := by
    cases s with
    | nil => rfl
    | cons c s => exact List.dropWhile_cons_of_neg (by simpa [Unfolded] using unfolded)
  rw [readContinued]
  simp [whole]

/-! ### Header lines -/

theorem validHeaderFieldByte_facts {c : UInt8} (token : validHeaderFieldByte c = true) :
    c ≠ 0x3A ∧ c ≠ 0x0A ∧ isLWSPChar c = false := by
  refine ⟨?_,?_,?_⟩
  · rintro rfl
    exact absurd token (by decide)
  · rintro rfl
    exact absurd token (by decide)
  · cases blank : isLWSPChar c with
    | false => rfl
    | true =>
      simp only [isLWSPChar,Bool.or_eq_true,beq_iff_eq] at blank
      obtain rfl | rfl := blank <;> exact absurd token (by decide)

theorem validHeaderValueByte_facts {c : UInt8} (valid : validHeaderValueByte c = true) :
    c ≠ 0x0D ∧ c ≠ 0x0A := by
  constructor
  · rintro rfl
    exact absurd valid (by decide)
  · rintro rfl
    exact absurd valid (by decide)

theorem token_head {name : GoString} (named : name ≠ [])
    (token : ∀ c ∈ name, validHeaderFieldByte c = true) :
    ∃ first more, name = first :: more ∧ isLWSPChar first = false := by
  obtain ⟨first,more,rfl⟩ := List.exists_cons_of_ne_nil named
  exact ⟨first,more,rfl,(validHeaderFieldByte_facts (token first List.mem_cons_self)).2.2⟩

theorem trim_header {name : GoString} (named : name ≠ [])
    (token : ∀ c ∈ name, validHeaderFieldByte c = true) (value : GoString) :
    trim (name ++ 0x3A :: value) = name ++ 0x3A :: value.rdropWhile isLWSPChar := by
  obtain ⟨first,more,rfl,solid⟩ := token_head named token
  have left : ((first :: more) ++ 0x3A :: value).dropWhile isLWSPChar =
      (first :: more) ++ 0x3A :: value :=
    List.dropWhile_cons_of_neg (by simp [solid])
  rw [trim,left]
  have colon : isLWSPChar 0x3A = false := rfl
  simp only [List.rdropWhile,List.reverse_append,List.reverse_cons,List.append_assoc,
    List.dropWhile_append,List.isEmpty_iff,List.cons_append,List.nil_append]
  split
  · next blank => simp [blank,colon]
  · simp

theorem validHeader_iff {name value : GoString} (named : name ≠ [])
    (token : ∀ c ∈ name, validHeaderFieldByte c = true) :
    validHeader (name ++ 0x3A :: value) = true ↔ ∀ c ∈ value, validHeaderValueByte c = true := by
  have key : (name ++ 0x3A :: value).takeWhile (· != 0x3A) = name := by
    rw [List.takeWhile_append_of_pos (by
      intro c member
      simpa using (validHeaderFieldByte_facts (token c member)).1)]
    simp
  have fields : name.all (fun c => validHeaderFieldByte c || c == 0x20) = true := by
    rw [List.all_eq_true]
    intro c member
    rw [token c member,Bool.true_or]
  simp only [validHeader,key,fields]
  simp [named]

namespace HeaderLine

variable (h : HeaderLine)

theorem plain_within : 0x0A ∉ h.plain := by
  intro member
  rw [plain,List.mem_append,List.mem_cons] at member
  obtain inName | colon | inValue := member
  · exact (validHeaderFieldByte_facts (h.token _ inName)).2.1 rfl
  · contradiction
  · exact (validHeaderValueByte_facts (h.valid _ inValue)).2 rfl

theorem plain_length : h.plain.length = h.name.length + 1 + h.value.length := by
  simp [plain]
  omega

theorem text_length : h.text.length = h.plain.length + 2 := by
  simp [text,crlf]

end HeaderLine

theorem readMIMEHeader_none (failure : Option ParseError) (lines : List GoString) :
    readMIMEHeader failure lines [] = .error failure := by
  rw [readMIMEHeader]
  rfl

theorem readMIMEHeader_some (failure : Option ParseError) (lines : List GoString)
    {s line rest : GoString} (read : readLine s = some (line,rest)) :
    readMIMEHeader failure lines s =
      if line = [] then .ok (lines,rest)
      else if line.head?.any isLWSPChar || !line.contains 0x3A then
        .error (some errMalformedHeader)
      else
        let continued := readContinued (trim line) rest
        if validHeader continued.1 then
          readMIMEHeader failure (lines ++ [continued.1]) continued.2
        else .error (some errMalformedHeader) := by
  rw [readMIMEHeader]
  split
  · next none => rw [read] at none; contradiction
  · next full =>
    rw [read] at full
    cases full
    rfl

/-- A line with a colon behind its name, whatever its value holds. -/
theorem readMIMEHeader_value (failure : Option ParseError) (lines : List GoString)
    {s name value rest : GoString} (named : name ≠ [])
    (token : ∀ c ∈ name, validHeaderFieldByte c = true)
    (read : readLine s = some (name ++ 0x3A :: value,rest)) (unfolded : Unfolded rest) :
    readMIMEHeader failure lines s =
      let kv := name ++ 0x3A :: value.rdropWhile isLWSPChar
      if validHeader kv then readMIMEHeader failure (lines ++ [kv]) rest
      else .error (some errMalformedHeader) := by
  rw [readMIMEHeader_some failure lines read,if_neg (by simp),trim_header named token,
    readContinued_unfolded _ unfolded]
  obtain ⟨first,more,rfl,solid⟩ := token_head named token
  rw [if_neg (by simp [solid])]

/-- A whole line. -/
theorem readMIMEHeader_line (failure : Option ParseError) (lines : List GoString)
    (h : HeaderLine) {rest : GoString} (unfolded : Unfolded rest) :
    readMIMEHeader failure lines (h.text ++ rest) =
      readMIMEHeader failure (lines ++ [h.kept]) rest := by
  have read : readLine (h.text ++ rest) = some (h.plain,rest) := by
    rw [HeaderLine.text,List.append_assoc]
    exact readLine_crlf h.plain_within rest
  have valid : validHeader h.kept = true := by
    apply (validHeader_iff h.named h.token).mpr
    intro c member
    exact h.valid c ((List.rdropWhile_prefix _ _).subset member)
  rw [readMIMEHeader_value failure lines h.named h.token read unfolded]
  simp only
  rw [← HeaderLine.kept,if_pos valid]

theorem unfolded_headerText (header : List HeaderLine) (rest : GoString) (k : Nat) :
    Unfolded ((headerText header ++ rest).take k) := by
  cases header with
  | nil => cases k <;> rfl
  | cons h header =>
    cases k with
    | zero => rfl
    | succ k =>
      obtain ⟨first,more,name,solid⟩ := token_head h.named h.token
      simpa [headerText,HeaderLine.text,HeaderLine.plain,name,Unfolded] using solid

theorem readMIMEHeader_block (failure : Option ParseError) (lines : List GoString)
    (header : List HeaderLine) (rest : GoString) :
    readMIMEHeader failure lines (headerText header ++ rest) =
      .ok (lines ++ header.map HeaderLine.kept,rest) := by
  induction header generalizing lines with
  | nil =>
    have read : readLine (headerText [] ++ rest) = some ([],rest) :=
      @readLine_crlf [] (by simp) rest
    rw [readMIMEHeader_some failure lines read,if_pos rfl]
    simp
  | cons h header ih =>
    have unfolded : Unfolded (headerText header ++ rest) := by
      have whole := unfolded_headerText header rest (headerText header ++ rest).length
      rwa [List.take_length] at whole
    rw [headerText,List.append_assoc,readMIMEHeader_line failure lines h unfolded,ih]
    simp

namespace HeaderLine

variable (h : HeaderLine) {k : Nat}

/-- Before the colon. -/
theorem take_name (short : k ≤ h.name.length) : h.text.take k = h.name.take k := by
  rw [text,plain,List.append_assoc,List.take_append_of_le_length short]

/-- Behind the colon. -/
theorem take_value (long : h.name.length < k) (short : k ≤ h.plain.length) :
    h.text.take k = h.name ++ 0x3A :: h.value.take (k - h.name.length - 1) := by
  obtain ⟨more,rfl⟩ : ∃ more, k = h.name.length + (more + 1) := ⟨k - h.name.length - 1,by omega⟩
  rw [text,List.take_append_of_le_length short,plain,List.take_length_add_append,
    List.take_succ_cons]
  congr 3
  omega

/-- Between the two bytes that end the line. -/
theorem take_cr : h.text.take (h.plain.length + 1) = h.name ++ 0x3A :: (h.value ++ [0x0D]) := by
  rw [text,List.take_length_add_append,plain,crlf]
  simp

end HeaderLine

/-- A line without its colon. -/
theorem readMIMEHeader_name (failure : Option ParseError) (lines : List GoString) (h : HeaderLine)
    {k : Nat} (begun : k ≠ 0) (inName : k ≤ h.name.length) :
    readMIMEHeader failure lines (h.text.take k) = .error (some errMalformedHeader) := by
  have part : h.name.take k <+: h.plain :=
    (List.take_prefix k h.name).trans (List.prefix_append _ _)
  have within : 0x0A ∉ h.name.take k := fun member => h.plain_within (part.subset member)
  have nonempty : h.name.take k ≠ [] := by simp [begun,h.named]
  have noColon : (h.name.take k).contains 0x3A = false := by
    rw [List.contains_eq_mem,decide_eq_false_iff_not]
    intro member
    exact (validHeaderFieldByte_facts (h.token _ (List.mem_of_mem_take member))).1 rfl
  rw [h.take_name inName,readMIMEHeader_some _ _ (readLine_last within nonempty),
    if_neg nonempty,noColon,Bool.not_false,Bool.or_true,if_pos rfl]

/-- A line with its colon is kept, and the end of the bytes is met behind it. -/
theorem readMIMEHeader_colon (failure : Option ParseError) (lines : List GoString)
    (h : HeaderLine) {k : Nat} (behindName : h.name.length < k) (inValue : k ≤ h.plain.length) :
    readMIMEHeader failure lines (h.text.take k) = .error failure := by
  have taken := h.take_value behindName inValue
  have within : 0x0A ∉ h.text.take k := by
    rw [HeaderLine.text,List.take_append_of_le_length inValue]
    exact fun member => h.plain_within (List.mem_of_mem_take member)
  have read : readLine (h.text.take k) =
      some (h.name ++ 0x3A :: h.value.take (k - h.name.length - 1),[]) := by
    rw [readLine_last within (by simp [taken]),taken]
  have valid : validHeader (h.name ++
      0x3A :: (h.value.take (k - h.name.length - 1)).rdropWhile isLWSPChar) = true := by
    apply (validHeader_iff h.named h.token).mpr
    intro c member
    exact h.valid c (List.mem_of_mem_take ((List.rdropWhile_prefix _ _).subset member))
  rw [readMIMEHeader_value _ _ h.named h.token read rfl]
  simp only
  rw [if_pos valid,readMIMEHeader_none]

/-- A line with one byte of its end. -/
theorem readMIMEHeader_cr (failure : Option ParseError) (lines : List GoString) (h : HeaderLine) :
    readMIMEHeader failure lines (h.text.take (h.plain.length + 1)) =
      .error (some errMalformedHeader) := by
  have within : 0x0A ∉ h.text.take (h.plain.length + 1) := by
    rw [HeaderLine.text,List.take_length_add_append]
    simp [h.plain_within,crlf]
  have read : readLine (h.text.take (h.plain.length + 1)) =
      some (h.name ++ 0x3A :: (h.value ++ [0x0D]),[]) := by
    rw [readLine_last within (by simp [h.take_cr]),h.take_cr]
  have kept : (h.value ++ [0x0D]).rdropWhile isLWSPChar = h.value ++ [0x0D] :=
    List.rdropWhile_concat_neg _ _ _ (by decide)
  have invalid : ¬validHeader (h.name ++ 0x3A :: (h.value ++ [0x0D])) = true := by
    rw [validHeader_iff h.named h.token]
    intro valid
    exact (validHeaderValueByte_facts (valid 0x0D (by simp))).1 rfl
  rw [readMIMEHeader_value _ _ h.named h.token read rfl,kept]
  simp only
  rw [if_neg invalid]

theorem HeaderLine.torn_iff (h : HeaderLine) (k : Nat) :
    h.torn k = true ↔ k ≠ 0 ∧ k ≤ h.name.length ∨ k = h.plain.length + 1 := by
  rw [torn,h.text_length,Bool.or_eq_true,Bool.and_eq_true,decide_eq_true_eq,decide_eq_true_eq,
    beq_iff_eq]
  omega

/-- A line cut off. -/
theorem readMIMEHeader_torn (err : ParseError) (lines : List GoString) (h : HeaderLine) {k : Nat}
    (cut : k < h.text.length) :
    readMIMEHeader (some err) lines (h.text.take k) =
      .error (some (if h.torn k then errMalformedHeader else err)) := by
  have lengths := h.plain_length
  have whole := h.text_length
  simp only [h.torn_iff]
  by_cases none : k = 0
  · rw [none,List.take_zero,readMIMEHeader_none,if_neg (by omega)]
  by_cases inName : k ≤ h.name.length
  · rw [readMIMEHeader_name _ _ h none inName,if_pos (by omega)]
  by_cases inValue : k ≤ h.plain.length
  · rw [readMIMEHeader_colon _ _ h (by omega) inValue,if_neg (by omega)]
  · have last : k = h.plain.length + 1 := by omega
    rw [last,readMIMEHeader_cr,if_pos (by omega)]

/-- A header cut off is malformed where the cut tears a line of it. -/
theorem readMIMEHeader_cut (err : ParseError) (lines : List GoString) (header : List HeaderLine)
    {k : Nat} (cut : k < (headerText header).length) :
    readMIMEHeader (some err) lines ((headerText header).take k) =
      .error (some (if tornHeader header k then errMalformedHeader else err)) := by
  induction header generalizing lines k with
  | nil =>
    match k,cut with
    | 0,_ => rw [List.take_zero,readMIMEHeader_none]; rfl
    | 1,_ => rw [readMIMEHeader_some _ _ (readLine_last (by decide) (by decide))]; rfl
  | cons h header ih =>
    rw [headerText,List.length_append] at cut
    by_cases here : k < h.text.length
    · rw [headerText,List.take_append_of_le_length (Nat.le_of_lt here),
        readMIMEHeader_torn err lines h here,tornHeader,if_pos here]
    · obtain ⟨later,rfl⟩ := Nat.exists_eq_add_of_le (Nat.le_of_not_lt here)
      have unfolded := unfolded_headerText header [] later
      rw [List.append_nil] at unfolded
      rw [headerText,List.take_length_add_append,readMIMEHeader_line _ _ _ unfolded,
        ih _ (by omega),tornHeader,if_neg here,Nat.add_sub_cancel_left]

/-! ### The lines between the parts -/

namespace Boundary

variable (b : Boundary)

theorem dash_within : 0x0D ∉ b.dash ∧ 0x0A ∉ b.dash := by
  have facts := b.oneLine
  constructor
  · intro member
    have inside : (0x0D : UInt8) ∈ b.bytes := by simpa [dash,dashBoundary,dashes] using member
    exact (facts _ inside).1 rfl
  · intro member
    have inside : (0x0A : UInt8) ∈ b.bytes := by simpa [dash,dashBoundary,dashes] using member
    exact (facts _ inside).2 rfl

theorem isBoundaryDelimiterLine_dash (nl rest : GoString) :
    isBoundaryDelimiterLine b.bytes nl (b.dash ++ rest) = (rest.dropWhile isLWSPChar == nl) := by
  have starts : (dashBoundary b.bytes).isPrefixOf (b.dash ++ rest) = true :=
    List.isPrefixOf_iff_prefix.mpr (List.prefix_append _ _)
  rw [isBoundaryDelimiterLine,starts,Bool.true_and,dash,List.drop_left]

theorem lineEnd_dash (rest : GoString) (first : Bool) (other : rest.dropWhile isLWSPChar ≠ [0x0A]) :
    lineEnd b.bytes crlf (b.dash ++ rest) first = crlf := by
  have mixed : (rest.dropWhile isLWSPChar == [0x0A]) = false := by simpa using other
  rw [lineEnd,b.isBoundaryDelimiterLine_dash,mixed,Bool.and_false]
  rfl

theorem isFinalBoundary_dashes (nl rest : GoString) :
    isFinalBoundary b.bytes nl (b.dash ++ (dashes ++ rest)) =
      (rest.dropWhile isLWSPChar == [] || rest.dropWhile isLWSPChar == nl) := by
  have starts : (dashBoundary b.bytes ++ dashes).isPrefixOf (b.dash ++ (dashes ++ rest)) = true := by
    rw [← List.append_assoc]
    exact List.isPrefixOf_iff_prefix.mpr (List.prefix_append _ _)
  rw [isFinalBoundary]
  simp only [starts,Bool.true_and]
  rw [← List.append_assoc,← dash,List.drop_left]

end Boundary

theorem nextPart_some (boundary : GoString) (failure : Option ParseError) (nl : GoString)
    (first expectNewPart : Bool) {s text rest : GoString} (cut : cutLine s = some (text,rest)) :
    nextPart boundary failure nl first expectNewPart s =
      let line := text ++ [0x0A]
      let nl := lineEnd boundary nl line first
      if isBoundaryDelimiterLine boundary nl line then
        match readMIMEHeader failure [] rest with
        | .error err => .error err
        | .ok (header,body) => .ok (nl,header,body)
      else if isFinalBoundary boundary nl line then .error none
      else if expectNewPart then .error (some (.other "multipart: expecting a new Part"))
      else if first then nextPart boundary failure nl true false rest
      else if line = nl then nextPart boundary failure nl false true rest
      else .error (some (.other "multipart: unexpected line in Next()")) := by
  rw [nextPart]
  split
  · next none => rw [cut] at none; contradiction
  · next full =>
    rw [cut] at full
    cases full
    rfl

theorem nextPart_none (boundary : GoString) (failure : Option ParseError) (nl : GoString)
    (first expectNewPart : Bool) {s : GoString} (within : 0x0A ∉ s) :
    nextPart boundary failure nl first expectNewPart s =
      if failure.isNone && isFinalBoundary boundary nl s then .error none
      else .error (some (failure.getD (.other "multipart: NextPart: EOF"))) := by
  have cut := cutLine_none within
  rw [nextPart]
  split
  · rfl
  · next full => rw [cut] at full; contradiction

theorem nextPart_torn (boundary : GoString) (err : ParseError) (nl : GoString)
    (first expectNewPart : Bool) {s : GoString} (within : 0x0A ∉ s) :
    nextPart boundary (some err) nl first expectNewPart s = .error (some err) := by
  rw [nextPart_none boundary _ _ _ _ within]
  rfl

variable (b : Boundary) (failure : Option ParseError) (first expectNewPart : Bool)

theorem cutLine_dash (line rest : GoString) (within : 0x0A ∉ line) :
    cutLine (b.dash ++ (line ++ (crlf ++ rest))) = some (b.dash ++ (line ++ [0x0D]),rest) := by
  have split : b.dash ++ (line ++ (crlf ++ rest)) = (b.dash ++ (line ++ [0x0D])) ++ 0x0A :: rest := by
    simp [crlf]
  rw [split]
  apply cutLine_line
  simp [b.dash_within.2,within]

/-- The line of a boundary, and a header behind it. -/
theorem nextPart_dash (rest : GoString) :
    nextPart b.bytes failure crlf first expectNewPart (b.dash ++ (crlf ++ rest)) =
      match readMIMEHeader failure [] rest with
      | .error err => .error err
      | .ok (header,body) => .ok (crlf,header,body) := by
  have cut : cutLine (b.dash ++ (crlf ++ rest)) = some (b.dash ++ [0x0D],rest) :=
    cutLine_dash b [] rest (by simp)
  have line : b.dash ++ [0x0D] ++ [0x0A] = b.dash ++ crlf := by simp [crlf]
  rw [nextPart_some _ _ _ _ _ cut]
  simp only [line,b.lineEnd_dash crlf first (by decide),b.isBoundaryDelimiterLine_dash]
  rfl

/-- The line that closes a message. -/
theorem nextPart_final (rest : GoString) :
    nextPart b.bytes failure crlf first expectNewPart (b.dash ++ (dashes ++ (crlf ++ rest))) =
      .error none := by
  have cut := cutLine_dash b dashes rest (by decide)
  have line : b.dash ++ (dashes ++ [0x0D]) ++ [0x0A] = b.dash ++ (dashes ++ crlf) := by simp [crlf]
  rw [nextPart_some _ _ _ _ _ cut]
  simp only [line,b.lineEnd_dash (dashes ++ crlf) first (by decide),b.isBoundaryDelimiterLine_dash,
    b.isFinalBoundary_dashes]
  rfl

/-- The same line without its end, at the end of a body. -/
theorem nextPart_last :
    nextPart b.bytes none crlf first expectNewPart (b.dash ++ dashes) = .error none := by
  have within : 0x0A ∉ b.dash ++ dashes := by simp [b.dash_within.2,dashes]
  have final := b.isFinalBoundary_dashes crlf []
  rw [List.append_nil] at final
  rw [nextPart_none _ _ _ _ _ within,final]
  rfl

/-- The line end behind a content. -/
theorem nextPart_crlf (s : GoString) :
    nextPart b.bytes failure crlf false false (crlf ++ s) =
      nextPart b.bytes failure crlf false true s := by
  have cut : cutLine (crlf ++ s) = some ([0x0D],s) := rfl
  have notDelimiter : isBoundaryDelimiterLine b.bytes crlf crlf = false := rfl
  have notFinal : isFinalBoundary b.bytes crlf crlf = false := rfl
  have line : [0x0D] ++ [0x0A] = crlf := rfl
  have same : lineEnd b.bytes crlf crlf false = crlf := rfl
  rw [nextPart_some _ _ _ _ _ cut]
  simp only [line,same,notDelimiter,notFinal]
  simp

/-! ### The content -/

theorem Boundary.delimiter_once : 0x0D ∉ 0x0A :: b.dash := by
  simp [b.dash_within.1]

theorem isPrefixOf_false {s t : GoString} (other : ¬s <+: t) : s.isPrefixOf t = false := by
  rw [Bool.eq_false_iff,ne_eq,List.isPrefixOf_iff_prefix]
  exact other

theorem scanUntil_content {content : GoString} (clear : ¬b.delimiter <:+: content)
    (after : GoString) :
    scanUntil b.delimiter (content ++ (b.delimiter ++ after)) =
      (content ++ (scanUntil b.delimiter (b.delimiter ++ after)).1,
        (scanUntil b.delimiter (b.delimiter ++ after)).2) := by
  induction content with
  | nil => rfl
  | cons c content ih =>
    have later : ¬b.delimiter <:+: content :=
      fun found => clear (found.trans (List.suffix_cons c content).isInfix)
    have none : b.delimiter.isPrefixOf (c :: (content ++ (b.delimiter ++ after))) = false :=
      isPrefixOf_false (Delimiter.none_begins b.delimiter_once clear)
    have noPart : (c :: (content ++ (b.delimiter ++ after))).isPrefixOf b.delimiter = false :=
      isPrefixOf_false (Delimiter.none_contains b.delimiter_once)
    rw [List.cons_append,scanUntil,none,noPart,ih later]
    rfl

theorem scanUntil_boundary {after : GoString} (closes : matchAfterPrefix after = true) :
    scanUntil b.delimiter (b.delimiter ++ after) = ([],b.delimiter ++ after,true) := by
  have starts : b.delimiter.isPrefixOf (b.delimiter ++ after) = true :=
    List.isPrefixOf_iff_prefix.mpr (List.prefix_append _ _)
  have split : b.delimiter ++ after = 0x0D :: (0x0A :: b.dash ++ after) := rfl
  rw [split] at starts ⊢
  rw [scanUntil,starts,← split,List.drop_left,closes]
  rfl

theorem scanUntil_within {s : GoString} (within : 0x0D ∉ s) :
    scanUntil b.delimiter s = (s,[],false) := by
  induction s with
  | nil => rfl
  | cons c s ih =>
    rw [List.mem_cons,not_or] at within
    have none : b.delimiter.isPrefixOf (c :: s) = false :=
      isPrefixOf_false fun starts => within.1 (List.cons_prefix_cons.mp starts).1
    have noPart : (c :: s).isPrefixOf b.delimiter = false :=
      isPrefixOf_false fun part => within.1 (List.cons_prefix_cons.mp part).1.symm
    rw [scanUntil,none,noPart,ih within.2]
    rfl

theorem scanUntil_lost {s : GoString} (clear : ¬b.delimiter <:+: s) :
    ∃ content held, scanUntil b.delimiter s = (content,held,false) ∧ held <+: b.delimiter := by
  induction s with
  | nil => exact ⟨[],[],rfl,List.nil_prefix⟩
  | cons c s ih =>
    have none : b.delimiter.isPrefixOf (c :: s) = false :=
      isPrefixOf_false fun starts => clear starts.isInfix
    obtain ⟨content,held,scanned,begins⟩ :=
      ih fun found => clear (found.trans (List.suffix_cons c s).isInfix)
    by_cases part : (c :: s).isPrefixOf b.delimiter = true
    · refine ⟨[],c :: s,?_,List.isPrefixOf_iff_prefix.mp part⟩
      rw [scanUntil,none,if_neg (by simp),if_pos part]
    · refine ⟨c :: content,held,?_,begins⟩
      rw [scanUntil,none,if_neg (by simp),if_neg part,scanned]

/-- Behind the first line end the boundary is a delimiter. -/
theorem infix_of_dash {s : GoString} (starts : b.dash <+: s) : b.delimiter <:+: crlf ++ s :=
  ((List.prefix_append_right_inj crlf).mpr starts).isInfix

theorem scanContent_behind {content : GoString} (clear : ¬b.delimiter <:+: crlf ++ content)
    (after : GoString) :
    scanContent b.bytes crlf (content ++ (b.delimiter ++ after)) =
      (content ++ (scanUntil b.delimiter (b.delimiter ++ after)).1,
        (scanUntil b.delimiter (b.delimiter ++ after)).2) := by
  have none : (dashBoundary b.bytes).isPrefixOf (content ++ (b.delimiter ++ after)) = false := by
    apply isPrefixOf_false
    intro starts
    exact clear (infix_of_dash b (Delimiter.prefix_before b.dash_within.1 starts))
  have noPart : (content ++ (b.delimiter ++ after)).isPrefixOf (dashBoundary b.bytes) = false := by
    apply isPrefixOf_false
    intro part
    exact b.dash_within.1 (part.subset (by simp [Boundary.delimiter,crlf]))
  have inside : ¬b.delimiter <:+: content :=
    fun found => clear (found.trans (List.suffix_append crlf content).isInfix)
  rw [scanContent]
  simp only [none,noPart,Bool.false_and]
  exact scanUntil_content b inside after

/-- A content ends at its boundary. -/
theorem scanContent_found {content after : GoString} (clear : ¬b.delimiter <:+: crlf ++ content)
    (closes : matchAfterPrefix after = true) :
    scanContent b.bytes crlf (content ++ (b.delimiter ++ after)) =
      (content,b.delimiter ++ after,true) := by
  rw [scanContent_behind b clear,scanUntil_boundary b closes,List.append_nil]

/-- No boundary is found: what may begin one is held back. -/
def Lost (s : GoString) : Prop :=
  ∃ content held, scanContent b.bytes crlf s = (content,held,false) ∧
    (held <+: b.delimiter ∨ held <+: b.dash)

theorem lost_of_clear {s : GoString} (clear : ¬b.delimiter <:+: crlf ++ s) : Lost b s := by
  have none : (dashBoundary b.bytes).isPrefixOf s = false :=
    isPrefixOf_false fun starts => clear (infix_of_dash b starts)
  by_cases part : s.isPrefixOf (dashBoundary b.bytes) = true
  · refine ⟨[],s,?_,.inr (List.isPrefixOf_iff_prefix.mp part)⟩
    simp only [scanContent,none,part,Bool.false_and]
    rfl
  · obtain ⟨content,held,scanned,begins⟩ := scanUntil_lost b (s := s)
      fun found => clear (found.trans (List.suffix_append crlf s).isInfix)
    refine ⟨content,held,?_,.inl begins⟩
    simp only [scanContent,none,part,Bool.false_and]
    exact scanned

/-- Part of a content, or of the delimiter behind it. -/
theorem lost_content {content : GoString} (clear : ¬b.delimiter <:+: crlf ++ content)
    (after : GoString) {k : Nat} (cut : k < content.length + b.delimiter.length) :
    Lost b ((content ++ (b.delimiter ++ after)).take k) := by
  apply lost_of_clear
  by_cases inside : k ≤ content.length
  · rw [List.take_append_of_le_length inside]
    intro found
    have part : crlf ++ content.take k <+: crlf ++ content :=
      (List.prefix_append_right_inj crlf).mpr (List.take_prefix k content)
    exact clear (found.trans part.isInfix)
  · obtain ⟨more,rfl⟩ := Nat.exists_eq_add_of_le (Nat.le_of_not_le inside)
    have short : more < b.delimiter.length := by omega
    rw [List.take_length_add_append,List.take_append_of_le_length (Nat.le_of_lt short),
      ← List.append_assoc]
    refine Delimiter.clear_append b.delimiter_once (List.take_prefix more _) ?_ clear
    intro whole
    have length := congrArg List.length whole
    rw [List.length_take] at length
    have full : b.delimiter.length = (0x0D :: 0x0A :: b.dash).length := rfl
    omega

/-- A single dash behind a boundary makes it none. -/
theorem lost_dangling {content : GoString} (clear : ¬b.delimiter <:+: crlf ++ content) :
    Lost b (content ++ (b.delimiter ++ [0x2D])) := by
  have scanned : (scanUntil b.delimiter (b.delimiter ++ [0x2D])).2 = ([],false) := by
    have split : b.delimiter ++ [0x2D] = 0x0D :: (0x0A :: b.dash ++ [0x2D]) := rfl
    have noPart : (b.delimiter ++ [0x2D]).isPrefixOf b.delimiter = false := by
      apply isPrefixOf_false
      intro part
      have longer := part.length_le
      rw [List.length_append,List.length_singleton] at longer
      omega
    have within : 0x0D ∉ 0x0A :: b.dash ++ [0x2D] := by simp [b.dash_within.1]
    rw [split] at noPart ⊢
    rw [scanUntil,← split,List.drop_left,split,noPart,scanUntil_within b within]
    simp [matchAfterPrefix,isLWSPChar]
  have found := scanContent_behind b clear [0x2D]
  rw [scanned] at found
  exact ⟨_,[],found,.inr List.nil_prefix⟩

/-- What is held back is no line of its own. -/
theorem nextPart_held (err : ParseError) {held : GoString}
    (begins : held <+: b.delimiter ∨ held <+: b.dash) :
    nextPart b.bytes (some err) crlf false false held = .error (some err) := by
  obtain part | part := begins
  · obtain rfl | ⟨more,rfl,second⟩ := List.prefix_cons_iff.mp part
    · exact nextPart_torn _ _ _ _ _ (by simp)
    · obtain rfl | ⟨rest,rfl,third⟩ := List.prefix_cons_iff.mp second
      · exact nextPart_torn _ _ _ _ _ (by decide)
      · have next : nextPart b.bytes (some err) crlf false false (0x0D :: 0x0A :: rest) = _ :=
          nextPart_crlf b (some err) rest
        rw [next]
        exact nextPart_torn _ _ _ _ _ fun member => b.dash_within.2 (third.subset member)
  · exact nextPart_torn _ _ _ _ _ fun member => b.dash_within.2 (part.subset member)

/-! ### The parts -/

variable (lib : Library) (form : MultipartForm)

/-- The line end before a boundary, which the first one does without. -/
def lead (first : Bool) : GoString := if first then [] else crlf

theorem nextPart_lead (s : GoString) :
    nextPart b.bytes failure crlf first false (lead first ++ s) =
      nextPart b.bytes failure crlf first (!first) s := by
  cases first with
  | true => rfl
  | false => exact nextPart_crlf b failure s

theorem readParts_done (boundary : GoString) {nl s : GoString}
    (next : nextPart boundary failure nl first false s = .error none) :
    readParts boundary lib failure nl first form s = .ok form := by
  rw [readParts]
  split
  · rfl
  · next failed => rw [next] at failed; cases failed
  · next part => rw [next] at part; contradiction

theorem readParts_failed (boundary : GoString) {nl s : GoString} {err : ParseError}
    (next : nextPart boundary failure nl first false s = .error (some err)) :
    readParts boundary lib failure nl first form s = .error err := by
  rw [readParts]
  split
  · next done => rw [next] at done; cases done
  · next failed =>
    rw [next] at failed
    cases failed
    rfl
  · next part => rw [next] at part; contradiction

theorem readParts_next (boundary : GoString) {nl nl' s body content rest : GoString}
    {header : List GoString} {closed : Bool}
    (next : nextPart boundary failure nl first false s = .ok (nl',header,body))
    (scan : scanContent boundary nl' body = (content,rest,closed)) :
    readParts boundary lib failure nl first form s =
      if lib.formName header = [] then readParts boundary lib failure nl' false form rest
      else
        let stop := if closed then none else some (failure.getD errUnexpectedEOF)
        let part := lib.decode header ⟨content,stop⟩
        match part.failure with
        | some err => .error err
        | none =>
          readParts boundary lib failure nl' false (addPart lib form header part.content) rest := by
  rw [readParts]
  split
  · next done => rw [next] at done; contradiction
  · next failed => rw [next] at failed; contradiction
  · next part =>
    rw [next] at part
    cases part
    split
    next same =>
      rw [scan] at same
      cases same
      rfl

/-- No transfer encoding is undone. -/
def Plain (part : Part) : Prop := ∀ raw, lib.decode part.kept raw = raw

/-- The line of a boundary and the header behind it. -/
theorem nextPart_header (part : Part) (s : GoString) :
    nextPart b.bytes failure crlf first false
        (lead first ++ (b.dash ++ (crlf ++ (headerText part.header ++ s)))) =
      .ok (crlf,part.kept,s) := by
  rw [nextPart_lead,nextPart_dash,readMIMEHeader_block]
  rfl

/-- A whole part. -/
theorem readParts_part {part : Part} {after : GoString} (plain : Plain lib part)
    (clear : ¬b.delimiter <:+: crlf ++ part.content) (closes : matchAfterPrefix after = true) :
    readParts b.bytes lib failure crlf first form (lead first ++ (b.dash ++
        (crlf ++ (headerText part.header ++ (part.content ++ (b.delimiter ++ after)))))) =
      readParts b.bytes lib failure crlf false (addPart lib form part.kept part.content)
        (lead false ++ (b.dash ++ after)) := by
  have next := nextPart_header b failure first part (part.content ++ (b.delimiter ++ after))
  have ahead : b.delimiter ++ after = lead false ++ (b.dash ++ after) := by
    simp [Boundary.delimiter,lead]
  rw [readParts_next failure first lib form b.bytes next (scanContent_found b clear closes),ahead]
  split
  · next unnamed =>
    simp only [addPart,if_pos unnamed]
  · have undone : ∀ raw, lib.decode part.kept raw = raw := plain
    simp only [undone,if_true]

/-- A part whose boundary is not found before the body ends. -/
theorem readParts_lost (err : ParseError) {part : Part} {s : GoString} (plain : Plain lib part)
    (lost : Lost b s) :
    readParts b.bytes lib (some err) crlf first form
        (lead first ++ (b.dash ++ (crlf ++ (headerText part.header ++ s)))) = .error err := by
  obtain ⟨content,held,scan,begins⟩ := lost
  rw [readParts_next _ first lib form b.bytes (nextPart_header b (some err) first part s) scan]
  split
  · exact readParts_failed _ false lib form b.bytes (nextPart_held b err begins)
  · have undone : ∀ raw, lib.decode part.kept raw = raw := plain
    simp only [undone]
    rfl

/-! ### Whole messages and cut ones -/

variable (parts : List Part)

theorem behind_part (part : Part) (ending : GoString) :
    behind b (part :: parts) ++ ending =
      crlf ++ (headerText part.header ++
        (part.content ++ (b.delimiter ++ (behind b parts ++ ending)))) := by
  simp [behind]

theorem matchAfterPrefix_behind (ending : GoString) :
    matchAfterPrefix (behind b parts ++ ending) = true := by
  cases parts with
  | nil => rfl
  | cons part parts => rfl

/-- What is cut off behind a boundary leaves one, if more than a single dash is there. -/
theorem matchAfterPrefix_cut (k : Nat) :
    matchAfterPrefix ((behind b parts ++ crlf).take k) = true ∨ parts = [] ∧ k = 1 := by
  match parts,k with
  | _,0 => exact .inl rfl
  | [],1 => exact .inr ⟨rfl,rfl⟩
  | [],k + 2 => exact .inl rfl
  | part :: parts,k + 1 => exact .inl rfl

theorem tornBehind_zero : tornBehind b parts 0 = false := by
  cases parts with
  | nil => rfl
  | cons part parts => simp [tornBehind,crlf]

/-- All parts of a message come into the form. -/
theorem readParts_whole {parts : List Part} (ending : GoString)
    (plain : ∀ part ∈ parts, Plain lib part)
    (clear : ∀ part ∈ parts, ¬b.delimiter <:+: crlf ++ part.content)
    (last : ∀ first, nextPart b.bytes failure crlf first (!first) (b.dash ++ (dashes ++ ending)) =
      .error none) :
    readParts b.bytes lib failure crlf first form
        (lead first ++ (b.dash ++ (behind b parts ++ ending))) = .ok (formOf lib form parts) := by
  induction parts generalizing first form with
  | nil =>
    apply readParts_done
    rw [nextPart_lead]
    exact last first
  | cons part parts ih =>
    have here := readParts_part b failure first lib form (plain part List.mem_cons_self)
      (clear part List.mem_cons_self) (matchAfterPrefix_behind b parts ending)
    rw [behind_part,here]
    exact ih false (addPart lib form part.kept part.content)
      (fun later member => plain later (List.mem_cons_of_mem _ member))
      (fun later member => clear later (List.mem_cons_of_mem _ member))

/-- A line at a boundary that is cut off. -/
theorem nextPart_cut (err : ParseError) {line : GoString} (within : 0x0A ∉ line) (k : Nat) :
    nextPart b.bytes (some err) crlf first expectNewPart (b.dash ++ line.take k) =
      .error (some err) := by
  apply nextPart_torn
  intro member
  obtain inDash | inLine := List.mem_append.mp member
  · exact b.dash_within.2 inDash
  · exact within (List.mem_of_mem_take inLine)

/-! Where a cut behind a boundary falls. -/

section

variable {b} {parts} (part : Part) {k : Nat}

theorem tornBehind_line (inLine : k < crlf.length) : tornBehind b (part :: parts) k = false := by
  simp only [tornBehind]
  rw [if_pos (by omega),Bool.and_eq_false_iff]
  left
  simpa using inLine

theorem tornBehind_header (inHeader : k < (headerText part.header).length) :
    tornBehind b (part :: parts) (crlf.length + k) = tornHeader part.header k := by
  simp only [tornBehind]
  rw [if_pos (by omega),Nat.add_sub_cancel_left]
  simp

theorem tornBehind_content (inContent : k < part.content.length + b.delimiter.length) :
    tornBehind b (part :: parts) (crlf.length + ((headerText part.header).length + k)) = false := by
  simp only [tornBehind]
  rw [if_neg (by omega),Nat.sub_eq_zero_of_le (by omega)]
  exact tornBehind_zero b parts

theorem tornBehind_later :
    tornBehind b (part :: parts) (crlf.length + ((headerText part.header).length +
      (part.content.length + (b.delimiter.length + k)))) = tornBehind b parts k := by
  simp only [tornBehind]
  rw [if_neg (by omega)]
  congr 1
  omega

end

/-- A message cut off before the end of its last line: the error of the cut is reported, or the
line that it tears. -/
theorem readParts_cut (err : ParseError) {parts : List Part} {k : Nat}
    (plain : ∀ part ∈ parts, Plain lib part)
    (clear : ∀ part ∈ parts, ¬b.delimiter <:+: crlf ++ part.content)
    (cut : k < (behind b parts).length + crlf.length) :
    readParts b.bytes lib (some err) crlf first form
        (lead first ++ (b.dash ++ (behind b parts ++ crlf).take k)) =
      .error (if tornBehind b parts k then errMalformedHeader else err) := by
  induction parts generalizing first form k with
  | nil =>
    have short : k ≤ (dashes ++ [0x0D]).length := Nat.le_of_lt_succ cut
    have line : (behind b [] ++ crlf).take k = (dashes ++ [0x0D]).take k :=
      @List.take_append_of_le_length _ (dashes ++ [0x0D]) [0x0A] k short
    apply readParts_failed
    rw [nextPart_lead,line]
    exact nextPart_cut b first (!first) err (by decide) k
  | cons part parts ih =>
    have plainHere := plain part List.mem_cons_self
    have clearHere := clear part List.mem_cons_self
    rw [behind] at cut
    simp only [List.length_append] at cut
    rw [behind_part]
    by_cases inLine : k < crlf.length
    · have line : crlf.take k = ([0x0D] : GoString).take k :=
        @List.take_append_of_le_length _ [0x0D] [0x0A] k (Nat.le_of_lt_succ inLine)
      apply readParts_failed
      rw [nextPart_lead,tornBehind_line part inLine,
        List.take_append_of_le_length (Nat.le_of_lt inLine),line]
      exact nextPart_cut b first (!first) err (by decide) k
    obtain ⟨k,rfl⟩ := Nat.exists_eq_add_of_le (Nat.le_of_not_lt inLine)
    rw [List.take_length_add_append]
    by_cases inHeader : k < (headerText part.header).length
    · apply readParts_failed
      rw [nextPart_lead,List.take_append_of_le_length (Nat.le_of_lt inHeader),nextPart_dash,
        readMIMEHeader_cut err [] part.header inHeader,tornBehind_header part inHeader]
    obtain ⟨k,rfl⟩ := Nat.exists_eq_add_of_le (Nat.le_of_not_lt inHeader)
    rw [List.take_length_add_append]
    by_cases inContent : k < part.content.length + b.delimiter.length
    · rw [tornBehind_content part inContent]
      exact readParts_lost b first lib form err plainHere (lost_content b clearHere _ inContent)
    obtain ⟨k,rfl⟩ := Nat.exists_eq_add_of_le (Nat.le_of_not_lt inContent)
    rw [Nat.add_assoc,List.take_length_add_append,List.take_length_add_append,tornBehind_later]
    obtain closes | ⟨rfl,rfl⟩ := matchAfterPrefix_cut b parts k
    · rw [readParts_part b _ first lib form plainHere clearHere closes]
      apply ih
      · exact fun later member => plain later (List.mem_cons_of_mem _ member)
      · exact fun later member => clear later (List.mem_cons_of_mem _ member)
      · omega
    · exact readParts_lost b first lib form err plainHere (lost_dangling b clearHere)

namespace Message

variable (m : Message)

theorem text_length :
    m.text.length = m.boundary.dash.length + ((behind m.boundary m.parts).length + m.ending.length) := by
  simp [text]

/-- The beginning of a message, as far as the line that closes it. -/
theorem take_behind {k : Nat} (cut : m.boundary.dash.length + k < m.closed) :
    k < (behind m.boundary m.parts).length + crlf.length ∧
      m.text.take (m.boundary.dash.length + k) =
        m.boundary.dash ++ (behind m.boundary m.parts ++ crlf).take k := by
  have length := m.text_length
  rw [closed] at cut
  rw [text,List.take_length_add_append]
  unfold ending at length ⊢
  cases none : m.epilogue with
  | none =>
    rw [none] at cut length
    simp only [Option.getD_none,List.length_nil] at cut length
    have short : k ≤ (behind m.boundary m.parts).length := by omega
    refine ⟨by omega,?_⟩
    simp only
    rw [List.append_nil,List.take_append_of_le_length short]
  | some epilogue =>
    rw [none] at cut length
    simp only [Option.getD_some,List.length_append] at cut length
    have short : k ≤ (behind m.boundary m.parts ++ crlf).length := by
      rw [List.length_append]
      omega
    refine ⟨by omega,?_⟩
    simp only
    rw [← List.append_assoc,List.take_append_of_le_length short]

/-- The beginning of a message, with the line that closes it. -/
theorem take_closed {n : Nat} (enough : m.closed ≤ n) (cut : n < m.text.length) :
    ∃ rest, m.text.take n = m.boundary.dash ++ (behind m.boundary m.parts ++ (crlf ++ rest)) := by
  have length := m.text_length
  rw [closed] at enough
  unfold ending at length
  cases none : m.epilogue with
  | none =>
    rw [none] at enough
    simp only [Option.getD_none,List.length_nil] at enough
    omega
  | some epilogue =>
    rw [none] at enough length
    simp only [Option.getD_some,List.length_append] at enough length
    obtain ⟨k,rfl⟩ : ∃ k, n = m.boundary.dash.length +
        ((behind m.boundary m.parts).length + (crlf.length + k)) :=
      ⟨n - m.boundary.dash.length - (behind m.boundary m.parts).length - crlf.length,by omega⟩
    refine ⟨epilogue.take k,?_⟩
    rw [text,ending,none,List.take_length_add_append,List.take_length_add_append,
      List.take_length_add_append]

end Message

/-- A form is read out of a message that is delivered as far as the line that closes it; the
limit of the body is reported where it cuts off less, unless it tears a line of a header. -/
theorem readForm_message (m : Message) (maxMemory limit : Int64)
    (plain : ∀ part ∈ m.parts, Plain lib part) :
    readForm m.boundary.bytes lib maxMemory (maxBytesReader limit ⟨m.text,none⟩) =
      if lib.tooLarge maxMemory m.boundary.bytes (maxBytesReader limit ⟨m.text,none⟩) then
        .error errMessageTooLarge
      else if limit.toNatClampNeg < m.closed then
        .error (if m.torn limit.toNatClampNeg then errMalformedHeader else .maxBytes)
      else .ok (m.form lib) := by
  unfold readForm
  split
  · rfl
  rw [if_neg m.boundary.nonempty]
  have within : m.closed ≤ m.text.length := Nat.sub_le _ _
  unfold maxBytesReader
  generalize limit.toNatClampNeg = n
  by_cases cut : n < m.text.length
  · rw [if_pos cut]
    by_cases early : n < m.closed
    · rw [if_pos early]
      by_cases inDash : n < m.boundary.dash.length
      · have intact : m.torn n = false := by
          rw [Message.torn,Nat.sub_eq_zero_of_le (Nat.le_of_lt inDash)]
          exact tornBehind_zero _ _
        rw [intact]
        apply readParts_failed
        apply nextPart_torn
        rw [Message.text,List.take_append_of_le_length (Nat.le_of_lt inDash)]
        exact fun member => m.boundary.dash_within.2 (List.mem_of_mem_take member)
      · obtain ⟨k,rfl⟩ := Nat.exists_eq_add_of_le (Nat.le_of_not_lt inDash)
        obtain ⟨short,begins⟩ := m.take_behind early
        rw [begins,Message.torn,Nat.add_sub_cancel_left]
        exact readParts_cut m.boundary true lib ⟨[],[]⟩ .maxBytes plain m.clear short
    · rw [if_neg early]
      obtain ⟨rest,begins⟩ := m.take_closed (Nat.le_of_not_lt early) cut
      rw [begins]
      exact readParts_whole m.boundary (some .maxBytes) true lib ⟨[],[]⟩ (crlf ++ rest) plain m.clear
        fun first => nextPart_final m.boundary _ first (!first) rest
  · rw [if_neg cut,if_neg (by omega)]
    refine readParts_whole m.boundary none true lib ⟨[],[]⟩ m.ending plain m.clear fun first => ?_
    unfold Message.ending
    cases m.epilogue with
    | none =>
      rw [List.append_nil]
      exact nextPart_last m.boundary first (!first)
    | some epilogue => exact nextPart_final m.boundary none first (!first) epilogue

end GophProfile.Multipart
