import GophProfile.Form
import GophProfile.Library.Delimiter
import Mathlib.Data.List.DropRight

/-! The standard library's `multipart` reader over a body that may be cut off: the lines at
the boundaries, the header of a part and its content up to the next boundary; and the
messages that are sent to it. -/
namespace GophProfile.Multipart

open Form

/-- What the reader of a form makes of a part's header, and the limits of its own. -/
structure Library where
  /-- `Part.FormName`, by the lines of the header. -/
  formName : List GoString → GoString
  /-- `Part.FileName` -/
  fileName : List GoString → GoString
  /-- The content as `Part.Read` delivers it: a transfer encoding is undone. -/
  decode : List GoString → Reader → Reader
  /-- For a memory limit, a boundary and a body: `ReadForm` gives up because of too many
  parts or headers or of what they take in memory. -/
  tooLarge : Int64 → GoString → Reader → Bool

def crlf : GoString := [0x0D,0x0A]
def dashes : GoString := [0x2D,0x2D]
def dashBoundary (boundary : GoString) : GoString := dashes ++ boundary

def errUnexpectedEOF : ParseError := .other "unexpected EOF"
def errMessageTooLarge : ParseError := .other "multipart: message too large"
def errMalformedHeader : ParseError := .other "malformed MIME header"

/-! ### Lines -/

/-- A line without its line feed, and what follows it. -/
def cutLine : GoString → Option (GoString × GoString)
  | [] => none
  | c :: rest =>
    if c = 0x0A then some ([],rest) else (cutLine rest).map fun cut => (c :: cut.1,cut.2)

theorem cutLine_length {s line rest : GoString} (cut : cutLine s = some (line,rest)) :
    rest.length < s.length := by
  induction s generalizing line with
  | nil => contradiction
  | cons c s ih =>
    unfold cutLine at cut
    split at cut
    · cases cut
      apply Nat.lt_succ_self
    · obtain ⟨⟨line',rest'⟩,later,same⟩ := Option.map_eq_some_iff.mp cut
      cases same
      exact Nat.lt_succ_of_lt (ih later)

def isLWSPChar (c : UInt8) : Bool := c == 0x20 || c == 0x09

def trim (s : GoString) : GoString := (s.dropWhile isLWSPChar).rdropWhile isLWSPChar

def dropCR (line : GoString) : GoString :=
  if line.getLast? = some 0x0D then line.dropLast else line

/-- `bufio.Reader.ReadLine`: at the end of the bytes what is left of a line is one. -/
def readLine (s : GoString) : Option (GoString × GoString) :=
  match cutLine s with
  | some (line,rest) => some (dropCR line,rest)
  | none => if s = [] then none else some (s,[])

theorem readLine_length {s line rest : GoString} (read : readLine s = some (line,rest)) :
    rest.length < s.length := by
  unfold readLine at read
  split at read
  · next cut =>
    cases read
    exact cutLine_length cut
  · split at read
    · contradiction
    · next nonempty =>
      cases read
      exact List.length_pos_iff.mpr nonempty

/-! ### The header of a part -/

/-- `textproto.Reader.readContinuedLineSlice` after the first line: a line that starts with
a blank goes on with the one before. -/
def readContinued (kv s : GoString) : GoString × GoString :=
  let after := s.dropWhile isLWSPChar
  if _blank : after.length < s.length then
    match _read : readLine after with
    | none => (kv ++ [0x20],after)
    | some (line,rest) => readContinued (kv ++ [0x20] ++ trim line) rest
  else (kv,s)
termination_by s.length
decreasing_by
  have shorter := readLine_length _read
  omega

theorem readContinued_length (kv s : GoString) : (readContinued kv s).2.length ≤ s.length := by
  fun_induction readContinued kv s with
  | case1 kv s after blank read =>
    simp only
    omega
  | case2 kv s after blank line rest read ih =>
    have shorter := readLine_length read
    omega
  | case3 kv s after full => exact Nat.le_refl _

def validHeaderFieldByte (c : UInt8) : Bool :=
  (0x30 ≤ c && c ≤ 0x39) || (0x41 ≤ c && c ≤ 0x5A) || (0x61 ≤ c && c ≤ 0x7A) ||
    (lit "!#$%&'*+-.^_|~").contains c || c == 0x60

def validHeaderValueByte (c : UInt8) : Bool := (0x20 ≤ c && c ≤ 0x7E) || c == 0x09 || 0x80 ≤ c

/-- A key and a value with a colon between them. -/
def validHeader (kv : GoString) : Bool :=
  let key := kv.takeWhile (· != 0x3A)
  let value := kv.drop (key.length + 1)
  key != [] && key.all (fun c => validHeaderFieldByte c || c == 0x20) &&
    value.all validHeaderValueByte

/-- `textproto.readMIMEHeader`, after the lines before; an error of none is `io.EOF`. -/
def readMIMEHeader (failure : Option ParseError) (lines : List GoString) (s : GoString) :
    Except (Option ParseError) (List GoString × GoString) :=
  match _read : readLine s with
  | none => .error failure
  | some (line,rest) =>
    if line = [] then .ok (lines,rest)
    else if line.head?.any isLWSPChar || !line.contains 0x3A then .error (some errMalformedHeader)
    else
      let continued := readContinued (trim line) rest
      if validHeader continued.1 then readMIMEHeader failure (lines ++ [continued.1]) continued.2
      else .error (some errMalformedHeader)
termination_by s.length
decreasing_by
  have shorter := readLine_length _read
  have after := readContinued_length (trim line) rest
  omega

theorem readMIMEHeader_length {failure : Option ParseError} {lines header : List GoString}
    {s rest : GoString} (read : readMIMEHeader failure lines s = .ok (header,rest)) :
    rest.length < s.length := by
  fun_induction readMIMEHeader failure lines s with
  | case1 => contradiction
  | case2 lines s rest' line =>
    cases read
    exact readLine_length line
  | case3 => contradiction
  | case4 lines s line rest' one _ _ continued _ ih =>
    have first := readLine_length one
    have after := readContinued_length (trim line) rest'
    have later := ih read
    simp only [continued] at later
    omega
  | case5 => contradiction

/-! ### The lines between the parts -/

variable (boundary : GoString)

/-- `Reader.isBoundaryDelimiterLine` -/
def isBoundaryDelimiterLine (nl line : GoString) : Bool :=
  (dashBoundary boundary).isPrefixOf line &&
    (line.drop (dashBoundary boundary).length).dropWhile isLWSPChar == nl

/-- `Reader.isFinalBoundary` -/
def isFinalBoundary (nl line : GoString) : Bool :=
  let dashBoundaryDash := dashBoundary boundary ++ dashes
  let rest := (line.drop dashBoundaryDash.length).dropWhile isLWSPChar
  dashBoundaryDash.isPrefixOf line && (rest == [] || rest == nl)

/-- The end of a line: from the first boundary on a bare line feed, if that has one. -/
def lineEnd (nl line : GoString) (first : Bool) : GoString :=
  if first && isBoundaryDelimiterLine boundary [0x0A] line then [0x0A] else nl

/-- `Reader.nextPart`: the end of a line, the header of the part and what follows it. An
error of none is `io.EOF`, the end of the parts. -/
def nextPart (failure : Option ParseError) (nl : GoString) (first expectNewPart : Bool)
    (s : GoString) : Except (Option ParseError) (GoString × List GoString × GoString) :=
  match _cut : cutLine s with
  | none =>
    if failure.isNone && isFinalBoundary boundary nl s then .error none
    else .error (some (failure.getD (.other "multipart: NextPart: EOF")))
  | some (text,rest) =>
    let line := text ++ [0x0A]
    let nl := lineEnd boundary nl line first
    if isBoundaryDelimiterLine boundary nl line then
      match readMIMEHeader failure [] rest with
      | .error err => .error err
      | .ok (header,body) => .ok (nl,header,body)
    else if isFinalBoundary boundary nl line then .error none
    else if expectNewPart then .error (some (.other "multipart: expecting a new Part"))
    else if first then nextPart failure nl true false rest
    else if line = nl then nextPart failure nl false true rest
    else .error (some (.other "multipart: unexpected line in Next()"))
termination_by s.length
decreasing_by
  · exact cutLine_length _cut
  · exact cutLine_length _cut

theorem nextPart_length {failure : Option ParseError} {nl nl' s body : GoString}
    {first expectNewPart : Bool} {header : List GoString}
    (next : nextPart boundary failure nl first expectNewPart s = .ok (nl',header,body)) :
    body.length < s.length := by
  fun_induction nextPart boundary failure nl first expectNewPart s
  all_goals try contradiction
  case case4 text rest cut _ _ _ _ _ read =>
    cases (Prod.mk.inj (Prod.mk.inj (Except.ok.inj next)).2).2
    exact Nat.lt_trans (readMIMEHeader_length read) (cutLine_length cut)
  case case7 text rest cut _ _ _ _ _ ih =>
    exact Nat.lt_trans (ih next) (cutLine_length cut)
  case case8 text rest cut _ _ _ _ _ _ _ ih =>
    exact Nat.lt_trans (ih next) (cutLine_length cut)

/-! ### The content of a part -/

/-- `matchAfterPrefix`: with this behind it, or with nothing, a boundary is one. -/
def matchAfterPrefix : GoString → Bool
  | [] => true
  | c :: rest =>
    isLWSPChar c || c == 0x0D || c == 0x0A || (c == 0x2D && rest.head? == some 0x2D)

/-- `scanUntilBoundary` past the beginning: the content, what stays behind it, and whether
that is a boundary. The beginning of one is held back. -/
def scanUntil (nlDashBoundary : GoString) : GoString → GoString × GoString × Bool
  | [] => ([],[],false)
  | c :: rest =>
    if nlDashBoundary.isPrefixOf (c :: rest) &&
        matchAfterPrefix ((c :: rest).drop nlDashBoundary.length) then ([],c :: rest,true)
    else if (c :: rest).isPrefixOf nlDashBoundary then ([],c :: rest,false)
    else
      let (content,after) := scanUntil nlDashBoundary rest
      (c :: content,after)

/-- At the beginning the boundary needs no line end before it. -/
def scanContent (nl s : GoString) : GoString × GoString × Bool :=
  let dash := dashBoundary boundary
  if dash.isPrefixOf s && matchAfterPrefix (s.drop dash.length) then ([],s,true)
  else if s.isPrefixOf dash then ([],s,false)
  else scanUntil (nl ++ dash) s

theorem scanUntil_length (sep s : GoString) : (scanUntil sep s).2.1.length ≤ s.length := by
  induction s with
  | nil => exact Nat.le_refl _
  | cons c s ih =>
    unfold scanUntil
    split
    · exact Nat.le_refl _
    · split
      · exact Nat.le_refl _
      · exact Nat.le_succ_of_le ih

theorem scanContent_length (nl s : GoString) :
    (scanContent boundary nl s).2.1.length ≤ s.length := by
  unfold scanContent
  simp only
  split
  · exact Nat.le_refl _
  · split
    · exact Nat.le_refl _
    · exact scanUntil_length _ s

/-! ### The form -/

variable (lib : Library)

def addFile (files : List (GoString × List FileHeader)) (name : GoString) (header : FileHeader) :
    List (GoString × List FileHeader) :=
  match List.lookup name files with
  | none => files ++ [(name,[header])]
  | some old => files.map fun entry => if entry.1 = name then (name,old ++ [header]) else entry

/-- A part without a name is left out, and one without a file name is a value. -/
def addPart (form : MultipartForm) (header : List GoString) (content : GoString) : MultipartForm :=
  let name := lib.formName header
  let filename := lib.fileName header
  if name = [] then form
  else if filename = [] then { form with value := form.value.append name [content] }
  else
    let header : FileHeader := ⟨filename,Int64.ofNat content.length,content⟩
    { form with file := addFile form.file name header }

/-- `Reader.readForm`, with the parts before in the form. -/
def readParts (failure : Option ParseError) (nl : GoString) (first : Bool) (form : MultipartForm)
    (s : GoString) : Except ParseError MultipartForm :=
  match _next : nextPart boundary failure nl first false s with
  | .error none => .ok form
  | .error (some err) => .error err
  | .ok (nl,header,body) =>
    match _scan : scanContent boundary nl body with
    | (content,rest,closed) =>
      if lib.formName header = [] then readParts failure nl false form rest
      else
        let stop := if closed then none else some (failure.getD errUnexpectedEOF)
        let part := lib.decode header ⟨content,stop⟩
        match part.failure with
        | some err => .error err
        | none => readParts failure nl false (addPart lib form header part.content) rest
termination_by s.length
decreasing_by
  all_goals
    have shorter := nextPart_length boundary _next
    have after := scanContent_length boundary nl body
    rw [_scan] at after
    exact Nat.lt_of_le_of_lt after shorter

/-- `Reader.ReadForm` -/
def readForm (maxMemory : Int64) (body : Reader) : Except ParseError MultipartForm :=
  if lib.tooLarge maxMemory boundary body then .error errMessageTooLarge
  else if boundary = [] then .error (.other "multipart: boundary is empty")
  else readParts boundary lib body.failure crlf true ⟨[],[]⟩ body.content

end GophProfile.Multipart
