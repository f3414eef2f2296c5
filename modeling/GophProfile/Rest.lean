import GophProfile.Response
import GophProfile.Service

/-! The `rest` package: the handlers of the public API over the avatar service. -/
namespace GophProfile.Rest

open Domain

/-! ### Conditional requests -/

def isASCIISpace (b : UInt8) : Bool := b == 32 || b == 9 || b == 10 || b == 13

/-- `textproto.TrimString` -/
def trimString (s : GoString) : GoString :=
  ((s.dropWhile isASCIISpace).reverse.dropWhile isASCIISpace).reverse

/-- A byte that may stand between the quotes of a tag. -/
def isETagByte (c : UInt8) : Bool := c == 0x21 || (0x23 ≤ c && c ≤ 0x7E) || 0x80 ≤ c

/-- The loop of `scanETag`: `seen` is what lies before the position. -/
def scanFrom (seen : GoString) : GoString → GoString × GoString
  | [] => ([],[])
  | c :: rest =>
    if isETagByte c then scanFrom (seen ++ [c]) rest
    else if c = 0x22 then (seen ++ [c],rest)
    else ([],[])

/-- The first tag and what follows it; an empty tag means a damaged header. -/
def scanETag (s : GoString) : GoString × GoString :=
  let s := trimString s
  let start := if (lit "W/").isPrefixOf s then 2 else 0
  if (s.drop start).length < 2 ∨ (s.drop start).head? ≠ some 0x22 then ([],[])
  else scanFrom (s.take (start + 1)) (s.drop (start + 1))

def trimWeak (s : GoString) : GoString := if (lit "W/").isPrefixOf s then s.drop 2 else s

def weakMatch (a b : GoString) : Bool := trimWeak a == trimWeak b

theorem trimString_length (s : GoString) : (trimString s).length ≤ s.length := by
  have one := (List.dropWhile_sublist (l := s) isASCIISpace).length_le
  have two := (List.dropWhile_sublist (l := (s.dropWhile isASCIISpace).reverse)
    isASCIISpace).length_le
  simp only [trimString,List.length_reverse] at *
  omega

theorem scanFrom_length (seen rest : GoString) (found : (scanFrom seen rest).1 ≠ []) :
    (scanFrom seen rest).2.length < rest.length := by
  induction rest generalizing seen with
  | nil => simp [scanFrom] at found
  | cons c rest ih =>
    simp only [scanFrom] at found ⊢
    split at found
    · next inside =>
      rw [if_pos inside]
      have := ih _ found
      simp only [List.length_cons]
      omega
    · next outside =>
      rw [if_neg outside]
      split at found
      · next quote => rw [if_pos quote]; simp
      · contradiction

theorem scanETag_length (s : GoString) (found : (scanETag s).1 ≠ []) :
    (scanETag s).2.length < s.length := by
  unfold scanETag at found ⊢
  simp only at found ⊢
  generalize (if (lit "W/").isPrefixOf (trimString s) = true then 2 else 0) = start at found ⊢
  split at found
  · contradiction
  · next quoted =>
    rw [if_neg quoted]
    have shorter := scanFrom_length _ _ found
    have trimmed := trimString_length s
    rw [List.length_drop] at shorter
    omega

/-- The loop of `matchesIfNoneMatch` over what is left of the header. -/
def matchList (etag buf : GoString) : Bool :=
  match _trimmed : trimString buf with
  | [] => false
  | c :: rest =>
    if c = 0x2C then matchList etag rest
    else if c = 0x2A then true
    else if (scanETag (c :: rest)).1 = [] then false
    else if weakMatch (scanETag (c :: rest)).1 etag then true
    else matchList etag (scanETag (c :: rest)).2
termination_by buf.length
decreasing_by
  all_goals
    have shorter := trimString_length buf
    simp only [_trimmed,List.length_cons] at shorter
  · omega
  · next found _ =>
    have remain := scanETag_length (c :: rest) found
    simp only [List.length_cons] at remain
    omega

def matchesIfNoneMatch (header etag : GoString) : Bool :=
  if header = [] then false else matchList etag header

/-! ### The handlers -/

def cacheMaxAge : String := "max-age=86400"
def allowedSizes : List GoString := [sizeOriginal,thumbnailSmall,thumbnailLarge]

/-- The path and query parameters and the header of a request for content. -/
structure ContentRequest where
  avatarID : GoString
  userID : GoString
  size : GoString
  format : GoString
  ifNoneMatch : GoString
  deriving DecidableEq

variable (P : Packages) (cfg : Config)

def contentETag (a : Avatar) (size : GoString) : GoString :=
  lit "\"" ++ P.sum256 (a.id.string ++ lit "|" ++ size ++ lit "|" ++ P.utcString a.updatedAt) ++
    lit "\""

def writeUnavailable : Response :=
  { Response.error 503 "Service temporarily unavailable" (.text "") with
    retryAfter := some (wholeSeconds cfg.openTimeout) }

def writeUploadError (err : Err) : Response :=
  if err.is .maxBytes ∨ err.is .tooLarge then .json 413 (.tooLarge cfg.maxUploadBytes)
  else if err.is .missingFile then
    .error 400 "File is required" (.text "Send the image in form field \"file\" or \"image\"")
  else if err.is .invalidFormat then
    .error 400 "Invalid file format" (.fields "Supported formats: %v" cfg.allowedMIME)
  else if err.is .invalidUserID then .error 400 "Invalid request" (.err err)
  else if err.is .unavailable then writeUnavailable cfg
  else .error 500 "Internal error" (.text "")

def writeReadError (err : Err) : Response :=
  if err.is .avatarNotFound ∨ err.is .objectNotFound then .error 404 "Avatar not found" (.text "")
  else if err.is .forbidden then
    .error 403 "Forbidden" (.text "You can only delete your own avatars")
  else if err.is .invalidUserID then .error 400 "Invalid user id" (.err err)
  else if err.is .unavailable then writeUnavailable cfg
  else .error 500 "Internal error" (.text "")

def writeFallback : Response :=
  { Response.plain 200 (.bytes P.defaultAvatar) with
    contentType := some (lit "image/png")
    cacheControl := some "no-cache"
    fallback := true }

def parseID (avatarID : GoString) : Except Response UUID :=
  match P.uuidParse avatarID with
  | .error _ => .error (.error 400 "Invalid avatar id" (.text "Expected UUID"))
  | .ok id => .ok id

def parseSize (r : ContentRequest) : Except Response GoString :=
  if r.format ≠ [] then
    .error (.error 400 "Unsupported parameter"
      (.text "Format conversion is not supported; the stored format is always returned"))
  else if r.size = [] then .ok sizeOriginal
  else if r.size ∈ allowedSizes then .ok r.size
  else .error (.error 400 "Invalid size" (.fields "Supported sizes: %v" allowedSizes))

def thumbnailURL (a : Avatar) (size : GoString) : GoString :=
  lit "/api/v1/avatars/" ++ a.id.string ++ lit "?size=" ++ size

def toMetadata (a : Avatar) : MetadataResponse where
  id := a.id.string
  userID := a.userID
  fileName := a.fileName
  mimeType := a.mimeType
  size := a.sizeBytes
  dimensions := match a.width, a.height with
    | some width, some height => some (width,height)
    | _, _ => none
  thumbnails := [thumbnailSmall,thumbnailLarge].filterMap fun size =>
    (List.lookup size a.thumbnailS3Keys).map fun _ => (size,thumbnailURL a size)
  processingStatus := a.processingStatus
  createdAt := a.createdAt
  updatedAt := a.updatedAt

def notModified (etag : GoString) : Response :=
  { Response.plain 304 .empty with etag := some etag, cacheControl := some cacheMaxAge }

def content (avatar : Avatar) (etag : GoString) (object : Object) : Response :=
  { Response.plain 200 (.bytes object.body) with
    contentType := some (if object.contentType = [] then avatar.mimeType else object.contentType)
    etag := some etag
    cacheControl := some cacheMaxAge }

variable (s : AvatarService)

/-- The tag is made from the metadata, so a matching one needs no storage request. -/
def serveContent (avatar : Avatar) (size ifNoneMatch : GoString) : Prog Response :=
  let etag := contentETag P avatar size
  if matchesIfNoneMatch ifNoneMatch etag then return notModified etag
  else do
    match ← s.openContent avatar size with
    | .error err => return writeReadError cfg err
    | .ok object => return content avatar etag object

/-- `image` is what `form.ReadImage` makes of the request. -/
def upload (userID : GoString) (image : Except Err FormImage) : Prog Response :=
  match validateUserID userID with
  | .error err => return .error 400 "Invalid user id" (.err err)
  | .ok () =>
    match image with
    | .error err => return writeUploadError cfg err
    | .ok image => do
      match ← s.upload ⟨userID,image.name,image.mime,image.size,image.body⟩ with
      | .error err => return writeUploadError cfg err
      | .ok avatar =>
        return .json 201 (.uploaded avatar.id.string avatar.userID
          (lit "/api/v1/avatars/" ++ avatar.id.string) "processing" avatar.createdAt)

def get (r : ContentRequest) : Prog Response :=
  match parseID P r.avatarID with
  | .error response => return response
  | .ok id =>
    match parseSize r with
    | .error response => return response
    | .ok size => do
      match ← s.metadata id with
      | .error err => return writeReadError cfg err
      | .ok avatar => serveContent P cfg s avatar size r.ifNoneMatch

def getCurrent (r : ContentRequest) : Prog Response :=
  match parseSize r with
  | .error response => return response
  | .ok size => do
    match ← s.currentMetadata r.userID with
    | .error err =>
      if err.is .avatarNotFound ∨ err.is .invalidUserID then return writeFallback P
      else return writeReadError cfg err
    | .ok avatar => serveContent P cfg s avatar size r.ifNoneMatch

def metadata (avatarID : GoString) : Prog Response :=
  match parseID P avatarID with
  | .error response => return response
  | .ok id => do
    match ← s.metadata id with
    | .error err => return writeReadError cfg err
    | .ok avatar => return .json 200 (.metadata (toMetadata avatar))

def list (userID : GoString) : Prog Response := do
  match ← s.list userID with
  | .error err => return writeReadError cfg err
  | .ok avatars => return .json 200 (.list userID avatars.length (avatars.map toMetadata))

def delete (userID avatarID : GoString) : Prog Response :=
  match validateUserID userID with
  | .error err => return .error 400 "Invalid user id" (.err err)
  | .ok () =>
    match parseID P avatarID with
    | .error response => return response
    | .ok id => do
      match ← s.delete id userID with
      | .error err => return writeReadError cfg err
      | .ok () => return .plain 204 .empty

def deleteCurrent (userID pathUser : GoString) : Prog Response :=
  match validateUserID userID with
  | .error err => return .error 400 "Invalid user id" (.err err)
  | .ok () =>
    if pathUser ≠ userID then
      return .error 403 "Forbidden" (.text "You can only delete your own avatars")
    else do
      match ← s.deleteCurrent userID with
      | .error err => return writeReadError cfg err
      | .ok () => return .plain 204 .empty

end GophProfile.Rest
