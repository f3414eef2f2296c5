import GophProfile.Postgres
import GophProfile.S3
import GophProfile.Publisher

/-! The `services` package. Errors it only logs are dropped here. -/
namespace GophProfile

open Domain

structure UploadInput where
  userID : GoString
  fileName : GoString
  mimeType : GoString
  size : Int64
  body : GoString

structure AvatarService where
  repo : Postgres.AvatarRepository
  storage : S3.Storage
  publisher : RabbitMQ.Publisher

namespace AvatarService

variable (s : AvatarService)

/-- The metadata of a new upload, before the database has set its times. -/
def newAvatar (input : UploadInput) (avatarID : UUID) : Avatar where
  id := avatarID
  userID := input.userID
  fileName := input.fileName
  mimeType := input.mimeType
  sizeBytes := input.size
  width := none
  height := none
  s3Key := originalObjectKey input.userID avatarID
  thumbnailS3Keys := []
  uploadStatus := .uploaded
  processingStatus := .pending
  createdAt := 0
  updatedAt := 0
  deletedAt := none

def uploadEvent (a : Avatar) : AvatarUploadEvent := ⟨a.id.string,a.userID,a.s3Key⟩

def deleteEvent (id : UUID) (keys : List GoString) : AvatarDeleteEvent := ⟨id.string,keys⟩

def uploadFailed (err : Err) : Err := .errorf "upload avatar: %w" [] err

/-- The object of an upload whose metadata were not written. -/
def removeOrphan (key : GoString) : Prog Unit := do
  let _ ← s.storage.delete key
  return ()

def upload (input : UploadInput) : Prog (Except Err Avatar) :=
  match validateUserID input.userID with
  | .error err => return .error err
  | .ok () => do
    let avatarID ← ask .newUUID
    let key := originalObjectKey input.userID avatarID
    match ← s.storage.put key ⟨input.body,input.mimeType⟩ with
    | .error err => return .error (uploadFailed err)
    | .ok () =>
      match ← s.repo.create (newAvatar input avatarID) with
      | .error err =>
        s.removeOrphan key
        return .error (uploadFailed err)
      | .ok avatar =>
        -- an event that did not get out is published again by the reconciler
        let _ ← s.publisher.publishUpload (uploadEvent avatar)
        return .ok avatar

/-- The key a size is served from; a size without a thumbnail is served from the original. -/
def contentKey (avatar : Avatar) (size : GoString) : GoString :=
  if size ≠ [] ∧ size ≠ sizeOriginal then
    match avatar.thumbnailKey size with
    | some thumbKey => thumbKey
    | none => avatar.s3Key
  else avatar.s3Key

def openFailed (avatar : Avatar) (err : Err) : Err :=
  .errorf "get avatar content %s: %w" [avatar.id.string] err

/-- `Open` after its first read: a missing thumbnail is replaced by the original. -/
def openOr (avatar : Avatar) (size : GoString) (first : Except Err Object) :
    Prog (Except Err Object) :=
  match first with
  | .ok object => return .ok object
  | .error err =>
    if err.is .objectNotFound ∧ contentKey avatar size ≠ avatar.s3Key then do
      match ← s.storage.get avatar.s3Key with
      | .error err => return .error (openFailed avatar err)
      | .ok object => return .ok object
    else return .error (openFailed avatar err)

def openContent (avatar : Avatar) (size : GoString) : Prog (Except Err Object) := do
  s.openOr avatar size (← s.storage.get (contentKey avatar size))

def metadata (id : UUID) : Prog (Except Err Avatar) := s.repo.getByID id

def currentMetadata (userID : GoString) : Prog (Except Err Avatar) :=
  match validateUserID userID with
  | .error err => return .error err
  | .ok () => s.repo.getCurrentByUserID userID

def list (userID : GoString) : Prog (Except Err (List Avatar)) :=
  match validateUserID userID with
  | .error err => return .error err
  | .ok () => s.repo.listByUserID userID

def delete (id : UUID) (userID : GoString) : Prog (Except Err Unit) :=
  match validateUserID userID with
  | .error err => return .error err
  | .ok () => do
    match ← s.repo.softDelete id userID with
    | .error err => return .error err
    | .ok keys =>
      let _ ← s.publisher.publishDelete (deleteEvent id keys)
      return .ok ()

def deleteCurrent (userID : GoString) : Prog (Except Err Unit) := do
  match ← s.currentMetadata userID with
  | .error err => return .error err
  | .ok avatar => s.delete avatar.id userID

end AvatarService

end GophProfile
