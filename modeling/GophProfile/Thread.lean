import GophProfile.Rest
import GophProfile.Worker
import GophProfile.World

/-! The running operations of servers and workers, by the point they have reached. Each
control point waits for one call; what it carries are the locals of the handler. The
handlers themselves are shown to go through exactly these points. -/
namespace GophProfile

open Domain Effect

/-- What can be started: the requests of clients, the deliveries of the two queues, and
the pass of the reconciler. -/
inductive Command where
  | upload (input : UploadInput)
  | delete (id : UUID) (userID : GoString)
  | deleteCurrent (userID : GoString)
  | get (r : Rest.ContentRequest)
  | getCurrent (r : Rest.ContentRequest)
  | handleUpload (maxPixels : Int64)
  | handleDelete
  | reconcile (age : Nat)

inductive Reply where
  | uploaded (result : Except Err Avatar)
  | deleted (userID : GoString) (result : Except Err Unit)
  | responded (response : Response)
  | processed (event : AvatarUploadEvent) (result : Except Err Unit)
  | cleaned (event : AvatarDeleteEvent) (result : Except Err Unit)
  | reconciled

/-- The services of the model have no breakers: a rejection by one is an error of a
call that took no effect. -/
def service : AvatarService := ⟨⟨none⟩,⟨none⟩,⟨none⟩⟩

def isOk (result : Except Err Unit) : Bool :=
  match result with
  | .ok () => true
  | .error _ => false

variable (P : Packages) (cfg : Config)

/-- The whole run of a command as the code's own program; a consumer takes a message,
handles it and settles it. -/
def Command.program : Command → Prog Reply
  | .upload input => do return .uploaded (← service.upload input)
  | .delete id userID => do return .deleted userID (← service.delete id userID)
  | .deleteCurrent userID => do return .deleted userID (← service.deleteCurrent userID)
  | .get r => do return .responded (← Rest.get P cfg service r)
  | .getCurrent r => do return .responded (← Rest.getCurrent P cfg service r)
  | .handleUpload maxPixels => do
    let event ← ask .receiveUpload
    let result ← Worker.processUpload P ⟨⟨none⟩,⟨none⟩,maxPixels⟩ event
    let _ ← ask (.settleUpload event (isOk result))
    return .processed event result
  | .handleDelete => do
    let event ← ask .receiveDelete
    let result ← Worker.processDelete ⟨⟨none⟩,⟨none⟩,0⟩ event
    let _ ← ask (.settleDelete event (isOk result))
    return .cleaned event result
  | .reconcile age => do
    Worker.reconcile ⟨⟨none⟩,⟨none⟩,age⟩
    return .reconciled

inductive Thread where
  | done (reply : Reply)
  | uploadID (input : UploadInput)
  | uploadPut (input : UploadInput) (id : UUID)
  | uploadCreate (input : UploadInput) (id : UUID)
  | uploadRemove (input : UploadInput) (id : UUID) (err : Err)
  | uploadPublish (avatar : Avatar)
  | currentSelect (userID : GoString)
  | deleteUpdate (id : UUID) (userID : GoString)
  | deleteOwner (id : UUID) (userID : GoString)
  | deleteIterate (id : UUID) (userID s3Key : GoString) (keys : GoMap)
  | deletePublish (id : UUID) (userID : GoString) (keys : List GoString)
  | deleteDone (id : UUID) (userID : GoString) (result : Except Err Unit)
  | readSelect (r : Rest.ContentRequest) (id : UUID) (size : GoString)
  | readCurrent (r : Rest.ContentRequest) (size : GoString)
  | readObject (avatar : Avatar) (size : GoString)
  | readOriginal (avatar : Avatar) (size : GoString)
  | processReceive (maxPixels : Int64)
  | processSelect (maxPixels : Int64) (event : AvatarUploadEvent) (id : UUID)
  | processDownload (maxPixels : Int64) (event : AvatarUploadEvent) (id : UUID) (avatar : Avatar)
  | processIterate (event : AvatarUploadEvent) (id : UUID) (avatar : Avatar) (img : P.Image)
  | processPut (event : AvatarUploadEvent) (id : UUID) (avatar : Avatar) (img : P.Image)
      (name buf : GoString) (rest : List GoString) (thumbnails : GoMap)
  | processUpdate (event : AvatarUploadEvent) (id : UUID) (img : P.Image) (thumbnails : GoMap)
  | processStatus (event : AvatarUploadEvent) (id : UUID)
  | processSettle (event : AvatarUploadEvent) (result : Except Err Unit)
  | cleanReceive
  | cleanIterate (event : AvatarDeleteEvent)
  | cleanRemove (event : AvatarDeleteEvent) (key : GoString) (rest : List GoString) (errs : List Err)
  | cleanSettle (event : AvatarDeleteEvent) (result : Except Err Unit)
  | reconcileSelect (age : Nat)
  | reconcileCount (age : Nat) (stuck : List Avatar)
  | reconcilePublish (avatar : Avatar) (rest : List Avatar)

namespace Thread

variable {P}

/-! ### From one point to the next -/

def originalObject (input : UploadInput) : Object := ⟨input.body,input.mimeType⟩

def startUpload (input : UploadInput) : Thread P :=
  match validateUserID input.userID with
  | .error err => .done (.uploaded (.error err))
  | .ok () => .uploadID input

def uploadRefused (err : Err) : Thread P :=
  .done (.uploaded (.error (AvatarService.uploadFailed err)))

def afterID (input : UploadInput) (id : UUID) : Thread P :=
  match S3.validateKey (originalObjectKey input.userID id) with
  | .error err => uploadRefused err
  | .ok () => .uploadPut input id

def afterPut (input : UploadInput) (id : UUID) (answer : Except Err Unit) : Thread P :=
  match S3.putResult (originalObjectKey input.userID id) answer with
  | .error err => uploadRefused err
  | .ok () => .uploadCreate input id

def afterCreate (input : UploadInput) (id : UUID) (answer : Except Err (Time × Time)) : Thread P :=
  match Postgres.createResult (AvatarService.newAvatar input id) answer with
  | .error err =>
    match S3.validateKey (originalObjectKey input.userID id) with
    | .error _ => uploadRefused err
    | .ok () => .uploadRemove input id err
  | .ok avatar => .uploadPublish avatar

def startDelete (id : UUID) (userID : GoString) : Thread P :=
  match validateUserID userID with
  | .error err => .deleteDone id userID (.error err)
  | .ok () => .deleteUpdate id userID

def deleteFailed (id : UUID) (err : Err) : Err := .errorf "delete avatar %s: %w" [id.string] err

def afterUpdate (id : UUID) (userID : GoString) (answer : Except Err (GoString × Json)) : Thread P :=
  match answer with
  | .error err =>
    if err.is .noRows then .deleteOwner id userID
    else .deleteDone id userID (.error (deleteFailed id err))
  | .ok (s3Key,thumbs) =>
    match Postgres.unmarshalThumbnails thumbs with
    | .error err => .deleteDone id userID (.error (deleteFailed id err))
    | .ok keys => .deleteIterate id userID s3Key keys

def startDeleteCurrent (userID : GoString) : Thread P :=
  match validateUserID userID with
  | .error err => .done (.deleted userID (.error err))
  | .ok () => .currentSelect userID

def afterCurrent (userID : GoString) (answer : Except Err Row) : Thread P :=
  match Postgres.getCurrentResult userID answer with
  | .error err => .done (.deleted userID (.error err))
  | .ok avatar => startDelete avatar.id userID

def respond (response : Response) : Thread P := .done (.responded response)

def afterOriginal (avatar : Avatar) (size : GoString) (result : Except Err Object) : Thread P :=
  match result with
  | .ok object => respond (Rest.content avatar (Rest.contentETag P avatar size) object)
  | .error err => respond (Rest.writeReadError cfg (AvatarService.openFailed avatar err))

def afterObject (avatar : Avatar) (size : GoString) (result : Except Err Object) : Thread P :=
  match result with
  | .ok object => respond (Rest.content avatar (Rest.contentETag P avatar size) object)
  | .error err =>
    if err.is .objectNotFound ∧ AvatarService.contentKey avatar size ≠ avatar.s3Key then
      match S3.validateKey avatar.s3Key with
      | .error err => afterOriginal cfg avatar size (.error err)
      | .ok () => .readOriginal avatar size
    else respond (Rest.writeReadError cfg (AvatarService.openFailed avatar err))

def serve (avatar : Avatar) (size ifNoneMatch : GoString) : Thread P :=
  if Rest.matchesIfNoneMatch ifNoneMatch (Rest.contentETag P avatar size) then
    respond (Rest.notModified (Rest.contentETag P avatar size))
  else match S3.validateKey (AvatarService.contentKey avatar size) with
    | .error err => afterObject cfg avatar size (.error err)
    | .ok () => .readObject avatar size

def startGet (r : Rest.ContentRequest) : Thread P :=
  match Rest.parseID P r.avatarID with
  | .error response => respond response
  | .ok id =>
    match Rest.parseSize r with
    | .error response => respond response
    | .ok size => .readSelect r id size

def afterSelect (r : Rest.ContentRequest) (id : UUID) (size : GoString) (answer : Except Err Row) :
    Thread P :=
  match Postgres.getByIDResult id answer with
  | .error err => respond (Rest.writeReadError cfg err)
  | .ok avatar => serve cfg avatar size r.ifNoneMatch

def startGetCurrent (r : Rest.ContentRequest) : Thread P :=
  match Rest.parseSize r with
  | .error response => respond response
  | .ok size =>
    match validateUserID r.userID with
    | .error _ => respond (Rest.writeFallback P)
    | .ok () => .readCurrent r size

def afterReadCurrent (r : Rest.ContentRequest) (size : GoString) (answer : Except Err Row) :
    Thread P :=
  match Postgres.getCurrentResult r.userID answer with
  | .error err =>
    if err.is .avatarNotFound ∨ err.is .invalidUserID then respond (Rest.writeFallback P)
    else respond (Rest.writeReadError cfg err)
  | .ok avatar => serve cfg avatar size r.ifNoneMatch

def startProcess (maxPixels : Int64) (event : AvatarUploadEvent) : Thread P :=
  match P.uuidParse event.avatarID with
  | .error err => .processSettle event (.error (.errorf "parse avatar id %q: %w" [event.avatarID] err))
  | .ok id => .processSelect maxPixels event id

def afterProcessSelect (maxPixels : Int64) (event : AvatarUploadEvent) (id : UUID)
    (answer : Except Err Row) : Thread P :=
  match Postgres.getByIDResult id answer with
  | .error err =>
    if err.is .avatarNotFound then .processSettle event (.ok ()) else .processSettle event (.error err)
  | .ok avatar =>
    if avatar.isProcessed then .processSettle event (.ok ())
    else match S3.validateKey avatar.s3Key with
      | .error err => .processSettle event (.error err)
      | .ok () => .processDownload maxPixels event id avatar

def afterDownload (maxPixels : Int64) (event : AvatarUploadEvent) (id : UUID) (avatar : Avatar)
    (answer : Except Err Object) : Thread P :=
  match S3.getResult avatar.s3Key answer with
  | .error err => .processSettle event (.error err)
  | .ok object =>
    match ImageProc.decode P object.body maxPixels with
    | .error _ => .processStatus event id
    | .ok img => .processIterate event id avatar img

def nextThumbnail (event : AvatarUploadEvent) (id : UUID) (avatar : Avatar) (img : P.Image)
    (names : List GoString) (thumbnails : GoMap) : Thread P :=
  match names with
  | [] => .processUpdate event id img thumbnails
  | name :: rest =>
    match Worker.encodeThumbnail P img (Worker.thumbnailSide name) with
    | .error err => .processSettle event (.error err)
    | .ok buf =>
      match S3.validateKey (thumbnailObjectKey avatar.userID avatar.id name) with
      | .error err => .processSettle event (.error err)
      | .ok () => .processPut event id avatar img name buf rest thumbnails

def afterThumbnail (event : AvatarUploadEvent) (id : UUID) (avatar : Avatar) (img : P.Image)
    (name : GoString) (rest : List GoString) (thumbnails : GoMap) (answer : Except Err Unit) :
    Thread P :=
  let key := thumbnailObjectKey avatar.userID avatar.id name
  match S3.putResult key answer with
  | .error err => .processSettle event (.error err)
  | .ok () => nextThumbnail event id avatar img rest (thumbnails ++ [(name,key)])

def afterResult (event : AvatarUploadEvent) (id : UUID) (answer : Except Err Nat) : Thread P :=
  match Postgres.processingResult id answer with
  | .error err => .processSettle event (.error err)
  | .ok _ => .processSettle event (.ok ())

def startClean (event : AvatarDeleteEvent) : Thread P :=
  if event.s3Keys = [] then .cleanSettle event (.ok ())
  else match S3.validateKeys event.s3Keys with
    | .error err => .cleanSettle event (.error err)
    | .ok () => .cleanIterate event

def nextRemoval (event : AvatarDeleteEvent) (keys : List GoString) (errs : List Err) : Thread P :=
  match keys with
  | [] => .cleanSettle event (Err.joinAll errs)
  | key :: rest => .cleanRemove event key rest errs

def afterRemoval (event : AvatarDeleteEvent) (key : GoString) (rest : List GoString)
    (errs : List Err) (answer : Except Err Unit) : Thread P :=
  match S3.removeResult key answer with
  | .error err => nextRemoval event rest (errs ++ [err])
  | .ok () => nextRemoval event rest errs

def nextRepublish (avatars : List Avatar) : Thread P :=
  match avatars with
  | [] => .done .reconciled
  | avatar :: rest => .reconcilePublish avatar rest

def afterPending (age : Nat) (answer : Except Err (List Row)) : Thread P :=
  match Postgres.pendingResult answer with
  | .error _ => .done .reconciled
  | .ok stuck => .reconcileCount age stuck

def start : Command → Thread P
  | .upload input => startUpload input
  | .delete id userID => startDelete id userID
  | .deleteCurrent userID => startDeleteCurrent userID
  | .get r => startGet r
  | .getCurrent r => startGetCurrent r
  | .handleUpload maxPixels => .processReceive maxPixels
  | .handleDelete => .cleanReceive
  | .reconcile age => .reconcileSelect age

def view : Thread P → View Call Call.Answer Reply (Thread P)
  | .done reply => .done reply
  | .deleteDone _ userID result => .done (.deleted userID result)
  | .uploadID input => .call .newUUID (afterID input)
  | .uploadPut input id =>
    .call (.putObject (originalObjectKey input.userID id) (originalObject input)) (afterPut input id)
  | .uploadCreate input id =>
    .call (.insertAvatar (AvatarService.newAvatar input id) (Postgres.marshalThumbnails []))
      (afterCreate input id)
  | .uploadRemove input id err =>
    .call (.removeObject (originalObjectKey input.userID id)) fun _ => uploadRefused err
  | .uploadPublish avatar =>
    .call (.publishUpload (AvatarService.uploadEvent avatar)) fun _ => .done (.uploaded (.ok avatar))
  | .currentSelect userID => .call (.selectCurrent userID) (afterCurrent userID)
  | .deleteUpdate id userID => .call (.updateDeleted id userID) (afterUpdate id userID)
  | .deleteOwner id userID =>
    .call (.selectOwner id) fun answer =>
      .deleteDone id userID (.error (Postgres.conflictError id userID answer))
  | .deleteIterate id userID s3Key keys =>
    .call (.iterate (keys.map Prod.fst)) fun order =>
      .deletePublish id userID (allS3Keys s3Key keys order.val)
  | .deletePublish id userID keys =>
    .call (.publishDelete (AvatarService.deleteEvent id keys)) fun _ =>
      .deleteDone id userID (.ok ())
  | .readSelect r id size => .call (.selectByID id) (afterSelect cfg r id size)
  | .readCurrent r size => .call (.selectCurrent r.userID) (afterReadCurrent cfg r size)
  | .readObject avatar size =>
    .call (.getObject (AvatarService.contentKey avatar size)) fun answer =>
      afterObject cfg avatar size (S3.getResult (AvatarService.contentKey avatar size) answer)
  | .readOriginal avatar size =>
    .call (.getObject avatar.s3Key) fun answer =>
      afterOriginal cfg avatar size (S3.getResult avatar.s3Key answer)
  | .processReceive maxPixels => .call .receiveUpload (startProcess maxPixels)
  | .processSelect maxPixels event id =>
    .call (.selectByID id) (afterProcessSelect maxPixels event id)
  | .processDownload maxPixels event id avatar =>
    .call (.getObject avatar.s3Key) (afterDownload maxPixels event id avatar)
  | .processIterate event id avatar img =>
    .call (.iterate (Worker.thumbnailSizes.map Prod.fst)) fun order =>
      nextThumbnail event id avatar img order.val []
  | .processPut event id avatar img name buf rest thumbnails =>
    .call (.putObject (thumbnailObjectKey avatar.userID avatar.id name) ⟨buf,ImageProc.thumbnailMIME⟩)
      (afterThumbnail event id avatar img name rest thumbnails)
  | .processUpdate event id img thumbnails =>
    .call (.updateResult id (Postgres.marshalThumbnails thumbnails) (ImageProc.dimensions P img).1
      (ImageProc.dimensions P img).2) (afterResult event id)
  | .processStatus event id =>
    .call (.updateStatus id .failed) fun answer =>
      .processSettle event (Postgres.statusResult id answer)
  | .processSettle event result =>
    .call (.settleUpload event (isOk result)) fun _ => .done (.processed event result)
  | .cleanReceive => .call .receiveDelete startClean
  | .cleanIterate event =>
    .call (.iterate event.s3Keys) fun order => nextRemoval event order.val []
  | .cleanRemove event key rest errs =>
    .call (.removeObject key) (afterRemoval event key rest errs)
  | .cleanSettle event result =>
    .call (.settleDelete event (isOk result)) fun _ => .done (.cleaned event result)
  | .reconcileSelect age => .call (.selectPending age Worker.reconcileBatch) (afterPending age)
  | .reconcileCount age stuck => .call (.countPending age) fun _ => nextRepublish stuck
  | .reconcilePublish avatar rest =>
    .call (.publishUpload (AvatarService.uploadEvent avatar)) fun _ => nextRepublish rest

end Thread

/-! ### The two machines -/

abbrev Act := Action Command Choice World.Event

/-- Servers and workers by their control points. -/
def system : Machine Call Call.Answer Reply (Thread P) World Command Choice World.Event where
  view := Thread.view cfg
  start := Thread.start
  perform := World.perform
  environment := World.environment

/-- The same with the handlers' own programs. -/
def programs : Machine Call Call.Answer Reply (Prog Reply) World Command Choice World.Event where
  view := Prog.view
  start := Command.program P cfg
  perform := World.perform
  environment := World.environment

abbrev State := Pool Call Call.Answer (Thread P) World

/-! ### Commands carried out without a fault -/

namespace Schedule

def idle : State Packages.sample := Pool.initial (World.initial fun _ => .fresh 5)

def other : UUID := ⟨lit "11111111-2222-3333-4444-555555555555",by decide,by decide⟩

def input (userID : GoString) : UploadInput :=
  ⟨userID,lit "me.png",lit "image/png",69,Packages.samplePicture⟩

def event (userID : GoString) (id : UUID) : AvatarUploadEvent :=
  ⟨id.string,userID,originalObjectKey userID id⟩

def answer (slot : Nat) (pick : Pick) : Act := .advance slot (.ok pick)

def upload (slot : Nat) (input : UploadInput) (id : UUID) : List Act :=
  [.start slot (.upload input),answer slot (.id id),answer slot .none,answer slot .none,
    answer slot (.confirmation .acked true)]

/-- A worker up to the point where it holds the decoded picture. -/
def receive (slot : Nat) (maxPixels : Int64) (event : AvatarUploadEvent) : List Act :=
  [.start slot (.handleUpload maxPixels),answer slot (.upload event),answer slot .none,
    answer slot .none]

/-- The rest of its run: both thumbnails, the row, the acknowledgement. -/
def complete (slot : Nat) : List Act :=
  [answer slot (.order [thumbnailSmall,thumbnailLarge]),answer slot .none,answer slot .none,
    answer slot .none,answer slot (.requeue false)]

def get (id : UUID) (size : GoString) : Command := .get ⟨id.string,[],size,[],[]⟩

def delete (slot : Nat) (id : UUID) (userID : GoString) (names : List GoString) : List Act :=
  [.start slot (.delete id userID),answer slot .none,answer slot (.order names),
    answer slot (.confirmation .acked true)]

/-- The event of a processed avatar. -/
def deletion (userID : GoString) (id : UUID) : AvatarDeleteEvent :=
  ⟨id.string,originalObjectKey userID id :: (thumbnailKeys userID id).map Prod.snd⟩

/-- A worker on a delete event, up to its first removal. -/
def takeDelete (slot : Nat) (event : AvatarDeleteEvent) (order : List GoString) : List Act :=
  [.start slot .handleDelete,answer slot (.delete event),answer slot (.order order)]

def clean (slot : Nat) (event : AvatarDeleteEvent) : List Act :=
  takeDelete slot event event.s3Keys ++ event.s3Keys.map (fun _ => answer slot .none) ++
    [answer slot (.requeue false)]

end Schedule

end GophProfile
