import GophProfile.Response
import GophProfile.ImageProc

/-! The `form` package over the forms of `net/http`: an image is taken out of a request
whose body may be anything. -/
namespace GophProfile.Form

open Domain

def fieldFile : GoString := lit "file"
def fieldImage : GoString := lit "image"
def maxFileNameRunes : Nat := 255

/-! ### Requests -/

/-- An error of the standard library's parsers: the body is cut off by its limit, or the
text of any other one. -/
inductive ParseError where
  | maxBytes
  | other (text : String)
  deriving DecidableEq

def ParseError.toErr : ParseError → Err
  | .maxBytes => .maxBytes
  | .other text => .new text []

/-- The bytes a body delivers, and the error that ends them before their end. -/
structure Reader where
  content : GoString
  failure : Option ParseError
  deriving DecidableEq

/-- `http.MaxBytesReader` -/
def maxBytesReader (limit : Int64) (body : Reader) : Reader :=
  if limit.toNatClampNeg < body.content.length then
    ⟨body.content.take limit.toNatClampNeg,some .maxBytes⟩
  else body

/-- `url.Values` -/
abbrev Values := List (GoString × List GoString)

def Values.append (values : Values) (key : GoString) (added : List GoString) : Values :=
  match List.lookup key values with
  | none => values ++ [(key,added)]
  | some old =>
    values.map fun entry => if entry.1 = key then (key,old ++ added) else entry

def Values.appendAll (values added : Values) : Values :=
  added.foldl (fun values entry => values.append entry.1 entry.2) values

/-- `multipart.FileHeader`, with the content that `Open` reads. -/
structure FileHeader where
  filename : GoString
  size : Int64
  content : GoString
  deriving DecidableEq

structure MultipartForm where
  value : Values
  file : List (GoString × List FileHeader)
  deriving DecidableEq

/-- An `http.Request` of the method POST; the three forms are nil until they are parsed. -/
structure Incoming where
  /-- The header `X-User-ID`. -/
  userID : GoString
  contentType : GoString
  rawQuery : GoString
  body : Reader
  form : Option Values
  postForm : Option Values
  multipartForm : Option MultipartForm

/-- The parsers of the standard library. -/
structure Parsers where
  /-- `mime.ParseMediaType`; the type may come with an error about its parameters. -/
  parseMediaType : GoString → GoString × List (GoString × GoString) × Option ParseError
  /-- `url.ParseQuery`, with the values read in spite of an error. -/
  parseQuery : GoString → Values × Option ParseError
  /-- `multipart.Reader.ReadForm` for a memory limit and a boundary. -/
  readForm : Int64 → GoString → Reader → Except ParseError MultipartForm
  /-- `http.DetectContentType` -/
  detectContentType : GoString → GoString

def defaultMaxMemory : Int64 := 33554432
def multipartFormData : GoString := lit "multipart/form-data"
def errNotMultipart : ParseError := .other "request Content-Type isn't multipart/form-data"
def errMissingBoundary : ParseError := .other "no multipart boundary param in Content-Type"

variable (F : Parsers)

namespace Incoming

variable (r : Incoming)

/-- A body that is not `application/x-www-form-urlencoded` is left alone. -/
def parsePostForm : Option Values × Option ParseError :=
  let contentType :=
    if r.contentType = [] then lit "application/octet-stream" else r.contentType
  let (mediaType,_,err) := F.parseMediaType contentType
  if mediaType = lit "application/x-www-form-urlencoded" then
    match r.body.failure with
    | some failure => (none,err <|> some failure)
    | none =>
      let (values,queryErr) := F.parseQuery r.body.content
      (some values,err <|> queryErr)
  else (none,err)

def parseForm : Incoming × Option ParseError :=
  let (posted,postErr) := if r.postForm.isNone then parsePostForm F r else (r.postForm,none)
  let postForm := posted.getD []
  if r.form.isNone then
    let (query,queryErr) := F.parseQuery r.rawQuery
    ({ r with postForm := some postForm, form := some (postForm.appendAll query) },
      postErr <|> queryErr)
  else ({ r with postForm := some postForm },postErr)

/-- The boundary between the parts of the body. -/
def multipartReader : Except ParseError GoString :=
  if r.contentType = [] then .error errNotMultipart
  else
    let (mediaType,params,err) := F.parseMediaType r.contentType
    if err.isSome ∨ mediaType ≠ multipartFormData then .error errNotMultipart
    else match List.lookup (lit "boundary") params with
      | none => .error errMissingBoundary
      | some boundary => .ok boundary

/-- The error of the query or of a plain form is only returned at the end. -/
def parseMultipartForm (maxMemory : Int64) : Incoming × Except ParseError Unit :=
  let start := if r.form.isNone then parseForm F r else (r,none)
  let r := start.1
  if r.multipartForm.isSome then (r,.ok ())
  else match multipartReader F r with
    | .error err => (r,.error err)
    | .ok boundary =>
      match F.readForm maxMemory boundary r.body with
      | .error err => (r,.error err)
      | .ok form =>
        ({ r with
            form := some ((r.form.getD []).appendAll form.value)
            postForm := some ((r.postForm.getD []).appendAll form.value)
            multipartForm := some form },
          match start.2 with
          | some err => .error err
          | none => .ok ())

def postFormValue (key : GoString) : GoString :=
  let r := if r.postForm.isNone then (parseMultipartForm F r defaultMaxMemory).1 else r
  match List.lookup key (r.postForm.getD []) with
  | some (first :: _) => first
  | _ => []

def parsed : Incoming × Except ParseError Unit :=
  if r.multipartForm.isNone then parseMultipartForm F r defaultMaxMemory else (r,.ok ())

def fileOf (key : GoString) : Except Err FileHeader :=
  match r.multipartForm.bind fun form => List.lookup key form.file with
  | some (header :: _) => .ok header
  | _ => .error .missingFile

def formFile (key : GoString) : Incoming × Except Err FileHeader :=
  let start := parsed F r
  match start.2 with
  | .error err => (start.1,.error err.toErr)
  | .ok () => (start.1,start.1.fileOf key)

end Incoming

/-! ### The image -/

def isMissingFile (err : Err) : Bool := err.is .missingFile

def openUploadedFile (r : Incoming) : Except Err FileHeader :=
  let first := r.formFile F fieldFile
  match first.2 with
  | .ok header => .ok header
  | .error err =>
    -- other errors than a missing field are for the caller
    if isMissingFile err then (first.1.formFile F fieldImage).2 else .error err

def sniffLen : Nat := 512

/-- `imageproc.Detect`, for a reader that delivers all of the content. -/
def detect (content : GoString) : GoString := F.detectContentType (content.take sniffLen)

/-- `imageproc.ValidateMIME` -/
def validateMIME (mime : GoString) (allowed : List GoString) : Except Err Unit :=
  if allowed.contains mime then .ok () else .error (.errorf "%w: %s" [mime] .invalidFormat)

/-! ### The name of the file -/

/-- What `utf8.DecodeRune` cuts off the head of a string: a rune, or one invalid byte. -/
structure Rune where
  bytes : GoString
  valid : Bool
  deriving DecidableEq

def runeError : GoString := [0xEF,0xBF,0xBD]

def isTail (b : UInt8) : Bool := 0x80 ≤ b && b ≤ 0xBF

/-- The bytes that may follow the first one of a rune of three or four bytes. -/
def isSecond (first b : UInt8) : Bool :=
  if first = 0xE0 then 0xA0 ≤ b && b ≤ 0xBF
  else if first = 0xED then 0x80 ≤ b && b ≤ 0x9F
  else if first = 0xF0 then 0x90 ≤ b && b ≤ 0xBF
  else if first = 0xF4 then 0x80 ≤ b && b ≤ 0x8F
  else isTail b

def isPair (a b : UInt8) : Bool := (0xC2 ≤ a && a ≤ 0xDF) && isTail b
def isTriple (a b c : UInt8) : Bool := (0xE0 ≤ a && a ≤ 0xEF) && isSecond a b && isTail c
def isQuadruple (a b c d : UInt8) : Bool :=
  (0xF0 ≤ a && a ≤ 0xF4) && isSecond a b && isTail c && isTail d

/-- The bytes of the rune at the head, if they are one; a byte that is not there is no
part of any rune. -/
def runeWidth (s : GoString) : Option Nat :=
  let byte (i : Nat) := s.getD i 0
  if byte 0 < 0x80 then some 1
  else if isPair (byte 0) (byte 1) then some 2
  else if isTriple (byte 0) (byte 1) (byte 2) then some 3
  else if isQuadruple (byte 0) (byte 1) (byte 2) (byte 3) then some 4
  else none

/-- The runes after so many bytes that belong to the one before. -/
def runesAfter : Nat → GoString → List Rune
  | _, [] => []
  | n + 1, _ :: rest => runesAfter n rest
  | 0, a :: rest =>
    match runeWidth (a :: rest) with
    | some width => ⟨(a :: rest).take width,true⟩ :: runesAfter (width - 1) rest
    | none => ⟨[a],false⟩ :: runesAfter 0 rest

def runes (s : GoString) : List Rune := runesAfter 0 s

/-- A rune as `string` encodes it. -/
def Rune.text (r : Rune) : GoString := if r.valid then r.bytes else runeError

/-- `strings.ToValidUTF8`: one replacement for a run of invalid bytes; `invalid` says that
the byte before was one. -/
def replaceInvalid (invalid : Bool) : List Rune → GoString
  | [] => []
  | r :: rest =>
    if r.valid then r.bytes ++ replaceInvalid false rest
    else (if invalid then [] else runeError) ++ replaceInvalid true rest

def toValidUTF8 (s : GoString) : GoString := replaceInvalid false (runes s)

/-- `unicode.IsControl` -/
def Rune.isControl (r : Rune) : Bool :=
  match r.bytes with
  | [a] => r.valid && (a < 0x20 || a == 0x7F)
  | [a,b] => a == 0xC2 && b < 0xA0
  | _ => false

def withoutControls (s : GoString) : GoString :=
  ((runes s).filter fun r => !r.isControl).flatMap Rune.text

def cleanFileName (name : GoString) : GoString :=
  let name := withoutControls (toValidUTF8 name)
  if maxFileNameRunes < (runes name).length then
    ((runes name).take maxFileNameRunes).flatMap Rune.text
  else name

/-- The format is decided by the content: name and type are what the client makes of them. -/
def readImage (r : Incoming) (allowedMIME : List GoString) : Except Err FormImage :=
  match openUploadedFile F r with
  | .error err => .error err
  | .ok header =>
    match validateMIME (detect F header.content) allowedMIME with
    | .error err => .error err
    | .ok () =>
      .ok ⟨cleanFileName header.filename,header.size,detect F header.content,header.content⟩

example : cleanFileName [0x61,0xFF,0xFE,0x00,0xC2,0x85,0x62] = [0x61,0xEF,0xBF,0xBD,0x62] := by
  decide

end GophProfile.Form
