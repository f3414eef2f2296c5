import GophProfile.Postgres
import GophProfile.S3
import GophProfile.Publisher
import GophProfile.ImageProc
import GophProfile.Service

/-! The `worker` package: the handlers of the two queues and the reconciler. -/
namespace GophProfile.Worker

open Domain

/-- `thumbnailSizes`: the side of every thumbnail, by its name. -/
def thumbnailSizes : List (GoString × Int64) := [(thumbnailSmall,100),(thumbnailLarge,300)]

def thumbnailSide (name : GoString) : Int64 := (List.lookup name thumbnailSizes).getD 0

structure Processor where
  repo : Postgres.AvatarRepository
  storage : S3.Storage
  maxPixels : Int64

variable (P : Packages)

def encodeThumbnail (img : P.Image) (side : Int64) : Except Err GoString :=
  ImageProc.encodeJPEG P (ImageProc.thumbnail P img side)

/-- The thumbnails still to be stored, in the order of the map's iteration, and those
already stored. -/
def uploadEach (p : Processor) (avatar : Avatar) (img : P.Image) :
    List GoString → GoMap → Prog (Except Err GoMap)
  | [], thumbnails => return .ok thumbnails
  | name :: rest, thumbnails =>
    match encodeThumbnail P img (thumbnailSide name) with
    | .error err => return .error err
    | .ok buf => do
      let key := thumbnailObjectKey avatar.userID avatar.id name
      match ← p.storage.put key ⟨buf,ImageProc.thumbnailMIME⟩ with
      | .error err => return .error err
      | .ok () => uploadEach p avatar img rest (thumbnails ++ [(name,key)])

def uploadThumbnails (p : Processor) (avatar : Avatar) (img : P.Image) : Prog (Except Err GoMap) := do
  let order ← ask (.iterate (thumbnailSizes.map Prod.fst))
  uploadEach P p avatar img order.val []

/-- `HandleUpload` from the event on. -/
def processUpload (p : Processor) (event : AvatarUploadEvent) : Prog (Except Err Unit) :=
  match P.uuidParse event.avatarID with
  | .error err => return .error (.errorf "parse avatar id %q: %w" [event.avatarID] err)
  | .ok avatarID => do
    match ← p.repo.getByID avatarID with
    | .error err =>
      -- deleted before it was processed: the event is done with
      if err.is .avatarNotFound then return .ok () else return .error err
    | .ok avatar =>
      if avatar.isProcessed then return .ok ()
      else match ← p.storage.get avatar.s3Key with
        | .error err => return .error err
        | .ok object =>
          match ImageProc.decode P object.body p.maxPixels with
          | .error _ =>
            -- a retry would not help: the failure is recorded and the event confirmed
            match ← p.repo.setProcessingStatus avatarID .failed with
            | .error statusErr => return .error statusErr
            | .ok () => return .ok ()
          | .ok img =>
            match ← uploadThumbnails P p avatar img with
            | .error err => return .error err
            | .ok thumbnails =>
              let (width,height) := ImageProc.dimensions P img
              match ← p.repo.updateProcessingResult avatarID thumbnails width height with
              | .error err => return .error err
              | .ok _ => return .ok ()

def handleUpload (p : Processor) (body : GoString) : Prog (Except Err Unit) :=
  match P.unmarshalUpload body with
  | .error err => return .error (.errorf "unmarshal event: %w" [] err)
  | .ok event => processUpload P p event

/-- `HandleDelete` from the event on. -/
def processDelete (p : Processor) (event : AvatarDeleteEvent) : Prog (Except Err Unit) :=
  p.storage.deleteMany event.s3Keys

def handleDelete (p : Processor) (body : GoString) : Prog (Except Err Unit) :=
  match P.unmarshalDelete body with
  | .error err => return .error (.errorf "unmarshal event: %w" [] err)
  | .ok event => processDelete p event

def reconcileBatch : Nat := 100

structure Reconciler where
  repo : Postgres.AvatarRepository
  publisher : RabbitMQ.Publisher
  age : Nat

def republish (r : Reconciler) : List Avatar → Prog Unit
  | [] => return ()
  | avatar :: rest => do
    let _ ← r.publisher.publishUpload (AvatarService.uploadEvent avatar)
    republish r rest

def reconcile (r : Reconciler) : Prog Unit := do
  match ← r.repo.listPendingOlderThan r.age reconcileBatch with
  | .error _ => return ()
  | .ok stuck =>
    -- the backlog is measured by a query of its own, and only reported
    let _ ← r.repo.countPendingOlderThan r.age
    republish r stuck

/-- One pass for every tick of the ticker. -/
def passes (r : Reconciler) : Nat → Prog Unit
  | 0 => return ()
  | n + 1 => do
    reconcile r
    passes r n

structure Panic where
  message : String

/-- `time.NewTicker` -/
def newTicker (d : Int64) : Except Panic Int64 :=
  if d ≤ 0 then .error ⟨"non-positive interval for NewTicker"⟩ else .ok d

/-- `Run`, for a context that ends after so many ticks. -/
def Reconciler.run (r : Reconciler) (interval : Int64) (ticks : Nat) :
    Except Panic (Prog Unit) := do
  let _ ← newTicker interval
  return passes r ticks

end GophProfile.Worker
