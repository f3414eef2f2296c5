import GophProfile.Response
import GophProfile.Service

/-! The `web` package: the pages of the server-side interface over the avatar service. -/
namespace GophProfile.Web

open Domain

def unavailableMessage : String := "Сервис временно недоступен, попробуйте через минуту"

def hexDigit (n : UInt8) : UInt8 := if n < 10 then 48 + n else 55 + n

/-- Bytes that `url.PathEscape` leaves as they are. -/
def pathByte (b : UInt8) : Bool :=
  (65 ≤ b && b ≤ 90) || (97 ≤ b && b ≤ 122) || (48 ≤ b && b ≤ 57) ||
    b ∈ [45,95,46,126,36,38,43,58,61,64]

def pathEscape (s : GoString) : GoString :=
  s.flatMap fun b => if pathByte b then [b] else [37,hexDigit (b / 16),hexDigit (b % 16)]

def galleryPath (userID : GoString) : GoString := lit "/web/gallery/" ++ pathEscape userID

def processingBadge : ProcessingStatus → String × String
  | .completed => ("миниатюры готовы","bg-green-500/20 text-green-200")
  | .failed => ("ошибка обработки","bg-red-500/20 text-red-200")
  | .processing => ("обрабатывается","bg-blue-500/20 text-blue-200")
  | .pending => ("в очереди","bg-yellow-500/20 text-yellow-200")

def toGalleryItem (a : Avatar) : GalleryItem where
  id := a.id.string
  fileName := if a.fileName = [] then lit "без имени" else a.fileName
  thumbnailURL := lit "/api/v1/avatars/" ++ a.id.string ++ lit "?size=" ++ thumbnailSmall
  originalURL := lit "/api/v1/avatars/" ++ a.id.string
  created := a.createdAt
  statusLabel := (processingBadge a.processingStatus).1
  statusClass := (processingBadge a.processingStatus).2

variable (P : Packages) (cfg : Config)

def bytesInMB : Int64 := 1048576

def uploadForm (status : Nat) (userID : GoString) (message : Details) : Response :=
  .html status (.uploadPage userID (cfg.maxUploadBytes / bytesInMB) message)

def renderError (status : Nat) (message : String) (details : Details) : Response :=
  .html status (.errorPage status message details)

def withRetryAfter (r : Response) : Response :=
  { r with retryAfter := some (wholeSeconds cfg.openTimeout) }

def renderUploadError (userID : GoString) (err : Err) : Response :=
  if err.is .maxBytes ∨ err.is .tooLarge then
    uploadForm cfg 413 userID (.fields "Файл больше %d МБ" [decimal (cfg.maxUploadBytes / bytesInMB)])
  else if err.is .missingFile then
    uploadForm cfg 400 userID (.text "Выберите файл изображения")
  else if err.is .invalidUserID then
    uploadForm cfg 400 userID (.err (.errorf "Некорректный User ID: " [] err))
  else if err.is .invalidFormat then
    uploadForm cfg 400 userID (.fields "Неподдерживаемый формат. Разрешены: %v" cfg.allowedMIME)
  else if err.is .unavailable then
    withRetryAfter cfg (uploadForm cfg 503 userID (.text unavailableMessage))
  else uploadForm cfg 500 userID (.text "Не удалось загрузить аватарку, попробуйте ещё раз")

def renderListError (err : Err) : Response :=
  if err.is .invalidUserID then .html 400 (.galleryPage [] 0 [] (.err err))
  else if err.is .unavailable then
    withRetryAfter cfg (renderError 503 unavailableMessage (.text ""))
  else renderError 500 "Не удалось загрузить галерею" (.text "")

def renderDeleteError (err : Err) : Response :=
  if err.is .avatarNotFound then renderError 404 "Аватарка не найдена" (.text "")
  else if err.is .forbidden then renderError 403 "Чужую аватарку удалить нельзя" (.text "")
  else if err.is .unavailable then
    withRetryAfter cfg (renderError 503 unavailableMessage (.text ""))
  else renderError 500 "Не удалось удалить аватарку" (.text "")

/-- `form.ReadImage` is only called once the form has parsed and the user id is valid. -/
structure UploadForm where
  parsed : Except Err Unit
  userID : GoString
  image : Except Err FormImage

variable (s : AvatarService)

def upload (form : UploadForm) : Prog Response :=
  match form.parsed with
  | .error err => return renderUploadError cfg [] err
  | .ok () =>
    match validateUserID form.userID with
    | .error err => return renderUploadError cfg form.userID err
    | .ok () =>
      match form.image with
      | .error err => return renderUploadError cfg form.userID err
      | .ok image => do
        match ← s.upload ⟨form.userID,image.name,image.mime,image.size,image.body⟩ with
        | .error err => return renderUploadError cfg form.userID err
        | .ok _ => return .seeOther (galleryPath form.userID)

def galleryLookup (userID : GoString) : Response :=
  if userID = [] then .html 200 (.galleryPage [] 0 [] (.text ""))
  else match validateUserID userID with
    | .error err => .html 400 (.galleryPage [] 0 [] (.err err))
    | .ok () => .seeOther (galleryPath userID)

def gallery (userID : GoString) : Prog Response := do
  match ← s.list userID with
  | .error err => return renderListError cfg err
  | .ok avatars =>
    return .html 200 (.galleryPage userID avatars.length (avatars.map toGalleryItem) (.text ""))

def delete (userID avatarID : GoString) : Prog Response :=
  match validateUserID userID with
  | .error err => return renderError 400 "Некорректный User ID" (.err err)
  | .ok () =>
    match P.uuidParse avatarID with
    | .error _ =>
      return renderError 400 "Некорректный идентификатор аватарки" (.text "Ожидается UUID")
    | .ok id => do
      match ← s.delete id userID with
      | .error err => return renderDeleteError cfg err
      | .ok () => return .seeOther (galleryPath userID)

end GophProfile.Web
