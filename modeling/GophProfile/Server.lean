import GophProfile.Rest
import GophProfile.Web
import GophProfile.World

/-! The server process: the requests of all clients interleave, and each of the three
dependencies is called through a breaker of its own. -/
namespace GophProfile

open Domain Effect

/-- A request as its handler reads it: header, form field and path values as they were
sent, and what `form.ReadImage` makes of the body. -/
inductive Request where
  | upload (userID : GoString) (image : Except Err FormImage)
  | get (r : Rest.ContentRequest)
  | getCurrent (r : Rest.ContentRequest)
  | metadata (avatarID : GoString)
  | list (userID : GoString)
  | delete (userID avatarID : GoString)
  | deleteCurrent (userID pathUser : GoString)
  | webUpload (form : Web.UploadForm)
  | webGalleryLookup (userID : GoString)
  | webGallery (userID : GoString)
  | webDelete (userID avatarID : GoString)

/-- The service that the server's `main` builds. -/
def guardedService : AvatarService where
  repo := ⟨some ⟨.postgres,some Postgres.isDataError⟩⟩
  storage := ⟨some ⟨.s3,none⟩⟩
  publisher := ⟨some ⟨.rabbitmq,none⟩⟩

variable (P : Packages) (cfg : Config)

def Request.handle : Request → Prog Response
  | .upload userID image => Rest.upload cfg guardedService userID image
  | .get r => Rest.get P cfg guardedService r
  | .getCurrent r => Rest.getCurrent P cfg guardedService r
  | .metadata avatarID => Rest.metadata P cfg guardedService avatarID
  | .list userID => Rest.list cfg guardedService userID
  | .delete userID avatarID => Rest.delete P cfg guardedService userID avatarID
  | .deleteCurrent userID pathUser => Rest.deleteCurrent cfg guardedService userID pathUser
  | .webUpload form => Web.upload cfg guardedService form
  | .webGalleryLookup userID => return Web.galleryLookup userID
  | .webGallery userID => Web.gallery cfg guardedService userID
  | .webDelete userID avatarID => Web.delete P cfg guardedService userID avatarID

/-! ### What the rest of the system does meanwhile -/

def keyAccepted (key : GoString) : Bool := (S3.validateKey key).isOk

def thumbnailsReadable (thumbs : Json) : Bool :=
  match Postgres.unmarshalThumbnails thumbs with
  | .error _ => false
  | .ok m => m.all fun entry => keyAccepted entry.2

/-- The metadata decode, and the storage takes every key in them. -/
def Row.readable (r : Row) : Bool := keyAccepted r.s3Key && thumbnailsReadable r.thumbnailS3Keys

/-- Statements that leave every row readable. -/
def Call.keepsReadable : Call → Bool
  | .insertAvatar a thumbs => keyAccepted a.s3Key && thumbnailsReadable thumbs
  | .updateResult _ thumbs _ _ => thumbnailsReadable thumbs
  | _ => true

/-- Breakers are not shared between processes. -/
def Call.onBreaker : Call → Bool
  | .allow _ | .report _ _ | .breakerRejected _ _ => true
  | _ => false

inductive Outside where
  | event (e : World.Event)
  /-- A call of a worker or of another server. -/
  | call (c : Call) (choice : Choice)

def Outside.happen : Outside → World → Option World
  | .event e, w => World.environment e w
  | .call c choice, w =>
    if c.keepsReadable && !c.onBreaker then (World.perform c choice w).map Prod.snd else none

def server : Machine Call Call.Answer Response (Prog Response) World Request Choice Outside where
  view := Prog.view
  start := Request.handle P cfg
  perform := World.perform
  environment := Outside.happen

abbrev Server := Pool Call Call.Answer (Prog Response) World

/-! ### Healthy dependencies -/

def Call.onPostgres : Call → Bool
  | .insertAvatar _ _ | .selectByID _ | .selectCurrent _ | .selectByUser _ | .updateDeleted _ _
  | .selectOwner _ | .updateResult _ _ _ _ | .updateStatus _ _ | .selectPending _ _
  | .countPending _ => true
  | _ => false

/-- The calls that the server makes through a breaker. -/
def Call.guarded : Call → Bool
  | .putObject _ _ | .getObject _ | .removeObject _ | .publishUpload _ => true
  | c => c.onPostgres

/-- The dependency does what it is asked and says so, or that something is not there, or
the database rejects the data, or the client has gone or the time of its request is up
before the answer. -/
def Choice.healthyFor (c : Call) : Choice → Bool
  | .ok (.confirmation (.waitFailed err) _) => err == .canceled || err == .deadlineExceeded
  | .ok (.confirmation confirmation _) => confirmation == .acked
  | .ok _ => true
  | .fail _ _ .canceled => true
  | .fail _ _ .deadlineExceeded => true
  | .fail _ _ (.pgError code) => c.onPostgres && Postgres.isDataError (.pgError code)
  | .fail _ _ _ => false

/-- The deadline of the context passes before the answer. -/
def Choice.late : Choice → Bool
  | .ok (.confirmation (.waitFailed err) _) => err == .deadlineExceeded
  | .fail _ _ err => err == .deadlineExceeded
  | _ => false

/-- Every call that the step answers is answered by a healthy dependency. -/
def Server.healthy (s : Server) : Action Request Choice Outside → Bool
  | .advance slot choice =>
    match s.procs slot with
    | some (.call c _) => choice.healthyFor c
    | _ => true
  | _ => true

/-- No call of a request that goes through a breaker outlasts the deadline of the request. -/
def Server.timely (s : Server) : Action Request Choice Outside → Bool
  | .advance slot choice =>
    match s.procs slot with
    | some (.call c _) => !(c.guarded && choice.late)
    | _ => true
  | _ => true

/-- The user for whom a request stores an image: an upload whose body has been read and
whose user id has passed `ValidateUserID`. -/
def Request.uploader : Request → Option GoString
  | .upload userID (.ok _) => if (validateUserID userID).isOk then some userID else none
  | .webUpload ⟨.ok (),userID,.ok _⟩ =>
    if (validateUserID userID).isOk then some userID else none
  | _ => none

end GophProfile
