import GophProfile.Breaker
import Mathlib.Data.List.Sort

/-! The `postgres` package: the avatar repository over the table's SQL statements. -/
namespace GophProfile.Postgres

open Domain

/-- SQLSTATE classes in which the database refused the data of a request. -/
def sqlStateDataException : GoString := lit "22"
def sqlStateIntegrityConstraint : GoString := lit "23"

def isDataError (err : Err) : Bool :=
  match err.asPgError with
  | none => false
  | some code =>
    if code.length < 2 then false
    else code.take 2 == sqlStateDataException || code.take 2 == sqlStateIntegrityConstraint

/-- Go's order of strings, byte by byte. -/
def bytesLE : GoString → GoString → Bool
  | [], _ => true
  | _ :: _, [] => false
  | a :: s, b :: t => decide (a < b) || (a == b && bytesLE s t)

def sortedByKey (m : GoMap) : GoMap := m.insertionSort fun a b => bytesLE a.1 b.1 = true

theorem sortedByKey_perm (m : GoMap) : (sortedByKey m).Perm m := List.perm_insertionSort _ m

/-- `json.Marshal` writes a map in the order of its keys; one of strings does not fail. -/
def marshalThumbnails (m : GoMap) : Json :=
  .obj ((sortedByKey m).map fun entry => (entry.1,.str entry.2))

/-- One field of an object that is decoded into a string: `null` leaves the zero value. -/
def decodeField : GoString × Json → Except Err (GoString × GoString)
  | (name,.str text) => .ok (name,text)
  | (name,.null) => .ok (name,[])
  | _ => .error (.new "json: cannot unmarshal value into Go value of type string" [])

def decodeFields : List (GoString × Json) → Except Err GoMap
  | [] => .ok []
  | field :: rest =>
    match decodeField field, decodeFields rest with
    | .ok entry, .ok entries => .ok (entry :: entries)
    | .error err, _ => .error err
    | _, .error err => .error err

def unmarshalThumbnails : Json → Except Err GoMap
  | .obj fields =>
    match decodeFields fields with
    | .ok m => .ok m
    | .error err => .error (.errorf "unmarshal thumbnails: %w" [] err)
  | .null => .ok []
  | _ => .error (.errorf "unmarshal thumbnails: %w" []
      (.new "json: cannot unmarshal value into Go value of type map[string]string" []))

/-- What the code has written itself it can always read back. -/
theorem unmarshal_marshal (m : GoMap) :
    unmarshalThumbnails (marshalThumbnails m) = .ok (sortedByKey m) := by
  have fields : ∀ m : GoMap, decodeFields (m.map fun entry => (entry.1,.str entry.2)) = .ok m := by
    intro m
    induction m with
    | nil => rfl
    | cons entry rest ih => simp only [List.map_cons,decodeFields,decodeField,ih]
  simp only [unmarshalThumbnails,marshalThumbnails,fields]

def toAvatar (r : Row) (thumbnails : GoMap) : Avatar where
  id := r.id
  userID := r.userID
  fileName := r.fileName
  mimeType := r.mimeType
  sizeBytes := r.sizeBytes
  width := r.width
  height := r.height
  s3Key := r.s3Key
  thumbnailS3Keys := thumbnails
  uploadStatus := r.uploadStatus
  processingStatus := r.processingStatus
  createdAt := r.createdAt
  updatedAt := r.updatedAt
  deletedAt := r.deletedAt

def scanAvatar (row : Except Err Row) : Except Err Avatar :=
  match row with
  | .error err => if err.is .noRows then .error .avatarNotFound else .error err
  | .ok r =>
    match unmarshalThumbnails r.thumbnailS3Keys with
    | .error err => .error err
    | .ok thumbnails => .ok (toAvatar r thumbnails)

theorem scanAvatar_ok {row : Except Err Row} {a : Avatar} (scanned : scanAvatar row = .ok a) :
    ∃ r thumbnails, row = .ok r ∧ unmarshalThumbnails r.thumbnailS3Keys = .ok thumbnails ∧
      a = toAvatar r thumbnails := by
  unfold scanAvatar at scanned
  cases row with
  | error err =>
    simp only at scanned
    split at scanned <;> cases scanned
  | ok r =>
    simp only at scanned
    split at scanned
    · cases scanned
    · next thumbnails decoded =>
      cases scanned
      exact ⟨r,thumbnails,rfl,decoded,rfl⟩

theorem scanAvatar_updatedAt {r : Row} {a : Avatar} (scanned : scanAvatar (.ok r) = .ok a) :
    a.updatedAt = r.updatedAt := by
  obtain ⟨r',thumbnails,same,_,rfl⟩ := scanAvatar_ok scanned
  cases same
  rfl

/-- The rows of a result scanned one by one, up to the first that does not scan. -/
def scanAvatars : List Row → Except Err (List Avatar)
  | [] => .ok []
  | r :: rest =>
    match scanAvatar (.ok r) with
    | .error err => .error err
    | .ok a =>
      match scanAvatars rest with
      | .error err => .error err
      | .ok avatars => .ok (a :: avatars)

/-- Every scanned avatar comes from one of the rows. -/
theorem scanAvatars_ok {rows : List Row} {avatars : List Avatar}
    (scanned : scanAvatars rows = .ok avatars) {a : Avatar} (member : a ∈ avatars) :
    ∃ r ∈ rows, scanAvatar (.ok r) = .ok a := by
  induction rows generalizing avatars with
  | nil =>
    cases scanned
    contradiction
  | cons r rest ih =>
    simp only [scanAvatars] at scanned
    split at scanned
    · cases scanned
    · next first here =>
      split at scanned
      · cases scanned
      · next later rest_ok =>
        cases scanned
        rcases List.mem_cons.mp member with rfl | inside
        · exact ⟨r,List.mem_cons_self,here⟩
        · obtain ⟨r',member',found⟩ := ih rest_ok inside
          exact ⟨r',List.mem_cons_of_mem _ member',found⟩

structure AvatarRepository where
  breaker : Option Breaker

/-! What each statement's answer is turned into, and the operations that send them. -/

def createResult (a : Avatar) : Except Err (Time × Time) → Except Err Avatar
  | .error err => .error (.errorf "create avatar %s: %w" [a.id.string] err)
  | .ok (createdAt,updatedAt) => .ok { a with createdAt := createdAt, updatedAt := updatedAt }

theorem createResult_ok {a a' : Avatar} {answer : Except Err (Time × Time)}
    (created : createResult a answer = .ok a') :
    ∃ createdAt updatedAt, answer = .ok (createdAt,updatedAt) ∧
      a' = { a with createdAt := createdAt, updatedAt := updatedAt } := by
  rcases answer with err | ⟨createdAt,updatedAt⟩
  · cases created
  · cases created
    exact ⟨createdAt,updatedAt,rfl,rfl⟩

def create (a : Avatar) : Prog (Except Err Avatar) := do
  return createResult a (← ask (.insertAvatar a (marshalThumbnails a.thumbnailS3Keys)))

def getByIDResult (id : UUID) (row : Except Err Row) : Except Err Avatar :=
  match scanAvatar row with
  | .error err => .error (.errorf "get avatar %s: %w" [id.string] err)
  | .ok a => .ok a

theorem getByIDResult_ok {id : UUID} {row : Except Err Row} {a : Avatar}
    (read : getByIDResult id row = .ok a) : scanAvatar row = .ok a := by
  unfold getByIDResult at read
  split at read
  · cases read
  · next scanned => cases read; exact scanned

theorem getByIDResult_error (id : UUID) (err : Err) :
    ∃ err', getByIDResult id (.error err) = .error err' := by
  cases read : getByIDResult id (.error err) with
  | error err' => exact ⟨err',rfl⟩
  | ok avatar =>
    obtain ⟨r,_,impossible,_⟩ := scanAvatar_ok (getByIDResult_ok read)
    contradiction

def getByID (id : UUID) : Prog (Except Err Avatar) := do
  return getByIDResult id (← ask (.selectByID id))

def getCurrentResult (userID : GoString) (row : Except Err Row) : Except Err Avatar :=
  match scanAvatar row with
  | .error err => .error (.errorf "get current avatar of %s: %w" [userID] err)
  | .ok a => .ok a

theorem getCurrentResult_ok {userID : GoString} {row : Except Err Row} {a : Avatar}
    (read : getCurrentResult userID row = .ok a) : scanAvatar row = .ok a := by
  unfold getCurrentResult at read
  split at read
  · cases read
  · next scanned => cases read; exact scanned

def getCurrentByUserID (userID : GoString) : Prog (Except Err Avatar) := do
  return getCurrentResult userID (← ask (.selectCurrent userID))

def listResult (userID : GoString) : Except Err (List Row) → Except Err (List Avatar)
  | .error err => .error (.errorf "list avatars of %s: %w" [userID] err)
  | .ok rows =>
    match scanAvatars rows with
    | .error err => .error (.errorf "list avatars of %s: %w" [userID] err)
    | .ok avatars => .ok avatars

def listByUserID (userID : GoString) : Prog (Except Err (List Avatar)) := do
  return listResult userID (← ask (.selectByUser userID))

/-- Why a deletion matched no row: there is no such avatar, or it is somebody else's. -/
def conflictError (id : UUID) (userID : GoString) : Except Err GoString → Err
  | .error err =>
    if err.is .noRows then .errorf "delete avatar %s: %w" [id.string] .avatarNotFound
    else .errorf "delete avatar %s: %w" [id.string] err
  | .ok owner =>
    if owner ≠ userID then .errorf "delete avatar %s by %s: %w" [id.string,userID] .forbidden
    else .errorf "delete avatar %s: %w" [id.string] .avatarNotFound

def deleteConflict (id : UUID) (userID : GoString) : Prog Err := do
  return conflictError id userID (← ask (.selectOwner id))

def softDelete (id : UUID) (userID : GoString) : Prog (Except Err (List GoString)) := do
  match ← ask (.updateDeleted id userID) with
  | .error err =>
    if err.is .noRows then return .error (← deleteConflict id userID)
    else return .error (.errorf "delete avatar %s: %w" [id.string] err)
  | .ok (s3Key,thumbs) =>
    match unmarshalThumbnails thumbs with
    | .error err => return .error (.errorf "delete avatar %s: %w" [id.string] err)
    | .ok keys =>
      let order ← ask (.iterate (keys.map Prod.fst))
      return .ok (allS3Keys s3Key keys order.val)

def processingResult (id : UUID) : Except Err Nat → Except Err Bool
  | .error err => .error (.errorf "update processing result %s: %w" [id.string] err)
  | .ok affected => .ok (affected > 0)

def updateProcessingResult (id : UUID) (thumbnails : GoMap) (width height : Int64) :
    Prog (Except Err Bool) := do
  return processingResult id (← ask (.updateResult id (marshalThumbnails thumbnails) width height))

def statusResult (id : UUID) : Except Err Unit → Except Err Unit
  | .error err => .error (.errorf "set processing status %s: %w" [id.string] err)
  | .ok () => .ok ()

def setProcessingStatus (id : UUID) (status : ProcessingStatus) : Prog (Except Err Unit) := do
  return statusResult id (← ask (.updateStatus id status))

def pendingResult : Except Err (List Row) → Except Err (List Avatar)
  | .error err => .error (.errorf "list pending avatars: %w" [] err)
  | .ok rows =>
    match scanAvatars rows with
    | .error err => .error (.errorf "list pending avatars: %w" [] err)
    | .ok avatars => .ok avatars

theorem pendingResult_ok {rows : Except Err (List Row)} {avatars : List Avatar}
    (read : pendingResult rows = .ok avatars) : ∃ found, rows = .ok found ∧ scanAvatars found = .ok avatars := by
  unfold pendingResult at read
  split at read
  · cases read
  · next found =>
    split at read
    · cases read
    · next scanned => cases read; exact ⟨found,rfl,scanned⟩

def listPendingOlderThan (age limit : Nat) : Prog (Except Err (List Avatar)) := do
  return pendingResult (← ask (.selectPending age limit))

def countResult : Except Err Nat → Except Err Nat
  | .error err => .error (.errorf "count pending avatars: %w" [] err)
  | .ok count => .ok count

def countPendingOlderThan (age : Nat) : Prog (Except Err Nat) := do
  return countResult (← ask (.countPending age))

namespace AvatarRepository

variable (r : AvatarRepository)

def create (a : Avatar) : Prog (Except Err Avatar) := Breaker.call r.breaker (Postgres.create a)

def getByID (id : UUID) : Prog (Except Err Avatar) := Breaker.call r.breaker (Postgres.getByID id)

def getCurrentByUserID (userID : GoString) : Prog (Except Err Avatar) :=
  Breaker.call r.breaker (Postgres.getCurrentByUserID userID)

def listByUserID (userID : GoString) : Prog (Except Err (List Avatar)) :=
  Breaker.call r.breaker (Postgres.listByUserID userID)

def softDelete (id : UUID) (userID : GoString) : Prog (Except Err (List GoString)) :=
  Breaker.call r.breaker (Postgres.softDelete id userID)

def updateProcessingResult (id : UUID) (thumbnails : GoMap) (width height : Int64) :
    Prog (Except Err Bool) :=
  Breaker.call r.breaker (Postgres.updateProcessingResult id thumbnails width height)

def setProcessingStatus (id : UUID) (status : ProcessingStatus) : Prog (Except Err Unit) :=
  Breaker.call r.breaker (Postgres.setProcessingStatus id status)

def listPendingOlderThan (age limit : Nat) : Prog (Except Err (List Avatar)) :=
  Breaker.call r.breaker (Postgres.listPendingOlderThan age limit)

def countPendingOlderThan (age : Nat) : Prog (Except Err Nat) :=
  Breaker.call r.breaker (Postgres.countPendingOlderThan age)

end AvatarRepository

end GophProfile.Postgres
