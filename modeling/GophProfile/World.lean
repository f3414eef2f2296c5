import GophProfile.Calls
import GophProfile.Library.Pool
import GophProfile.Library.Table
import Mathlib.Data.List.Sort

/-! The dependencies the code runs against: the table `avatars`, the bucket, the two
work queues and the breakers, with one atomic effect for every call. Lists of what was
ever written or sent are kept beside the state they produced. -/
namespace GophProfile

open Domain

/-- `gobreaker` with the settings of `New`, up to the end of its timeout. -/
structure BreakerState where
  failureThreshold : Nat
  consecutiveFailures : Nat
  opened : Bool
  deriving DecidableEq

def BreakerState.fresh (threshold : Nat) : BreakerState := ⟨threshold,0,false⟩

def BreakerState.afterRequest (b : BreakerState) : Outcome → BreakerState
  | .success => { b with consecutiveFailures := 0 }
  | .failure =>
    { b with
      consecutiveFailures := b.consecutiveFailures + 1
      opened := b.opened || decide (b.consecutiveFailures + 1 ≥ b.failureThreshold) }
  | .excluded => b

structure World where
  avatars : Table Row.id
  objects : GoString → Option Object
  uploads : List AvatarUploadEvent
  deletes : List AvatarDeleteEvent
  breakers : Dependency → BreakerState
  now : Time
  issued : List UUID
  /-- Every version of every row, and every object, ever stored. -/
  written : List Row
  stored : List (GoString × Object)
  sentUploads : List AvatarUploadEvent
  sentDeletes : List AvatarDeleteEvent

/-- How the world resolves what the code leaves open. -/
inductive Pick where
  | none
  | id (id : UUID)
  | order (keys : List GoString)
  | upload (event : AvatarUploadEvent)
  | delete (event : AvatarDeleteEvent)
  | confirmation (confirmation : Confirmation) (queued : Bool)
  | requeue (again : Bool)
  deriving DecidableEq

/-- A call that fails has taken effect or not; the caller cannot tell. -/
inductive Choice where
  | ok (pick : Pick)
  | fail (took : Bool) (pick : Pick) (err : Err)
  deriving DecidableEq

/-- Nothing goes wrong: the call is answered, and a message confirmed. -/
def Choice.healthy : Choice → Bool
  | .ok (.confirmation confirmation _) => confirmation == .acked
  | .ok _ => true
  | .fail _ _ _ => false

/-- Whether a call reaches the database, the storage or the broker. -/
def Choice.took : Choice → Bool
  | .ok _ => true
  | .fail took _ _ => took

/-- An error of the infrastructure, which never means that something is absent. -/
def Err.isFault : Err → Bool
  | .canceled | .deadlineExceeded | .pgError _ | .new _ _ => true
  | .s3Error code => code ≠ lit "NoSuchKey"
  | _ => false

def Row.ofInsert (a : Avatar) (thumbs : Json) (now : Time) : Row where
  id := a.id
  userID := a.userID
  fileName := a.fileName
  mimeType := a.mimeType
  sizeBytes := a.sizeBytes
  width := a.width
  height := a.height
  s3Key := a.s3Key
  thumbnailS3Keys := thumbs
  uploadStatus := a.uploadStatus
  processingStatus := a.processingStatus
  createdAt := now
  updatedAt := now
  deletedAt := none

def Row.deleted (r : Row) (now : Time) : Row := { r with deletedAt := some now, updatedAt := now }

def Row.completed (r : Row) (thumbs : Json) (width height : Int64) (now : Time) : Row :=
  { r with
    thumbnailS3Keys := thumbs
    width := some width
    height := some height
    processingStatus := .completed
    updatedAt := now }

def Row.withStatus (r : Row) (status : ProcessingStatus) (now : Time) : Row :=
  { r with processingStatus := status, updatedAt := now }

def uniqueViolation : GoString := lit "23505"

namespace World

def initial (breakers : Dependency → BreakerState) : World where
  avatars := Table.empty
  objects := fun _ => none
  uploads := []
  deletes := []
  breakers := breakers
  now := 0
  issued := []
  written := []
  stored := []
  sentUploads := []
  sentDeletes := []

/-- One UPDATE of one row; every writing statement has an instant of its own. -/
def write (w : World) (r : Row) : World :=
  { w with avatars := w.avatars.replace r, written := r :: w.written, now := w.now + 1 }

def put (w : World) (key : GoString) (object : Object) : World :=
  { w with
    objects := Function.update w.objects key (some object)
    stored := (key,object) :: w.stored }

def remove (w : World) (key : GoString) : World :=
  { w with objects := Function.update w.objects key none }

def inserted (w : World) (avatars : Table Row.id) (r : Row) : World :=
  { w with avatars := avatars, written := r :: w.written, now := w.now + 1 }

def queueUpload (w : World) (event : AvatarUploadEvent) : World :=
  { w with uploads := event :: w.uploads, sentUploads := event :: w.sentUploads }

def queueDelete (w : World) (event : AvatarDeleteEvent) : World :=
  { w with deletes := event :: w.deletes, sentDeletes := event :: w.sentDeletes }

/-- The live row of an id. -/
def live (w : World) (id : UUID) : Option Row := (w.avatars.find id).filter Row.live

/-- `ORDER BY created_at DESC` -/
def liveOf (w : World) (userID : GoString) : List Row :=
  (w.avatars.rows.filter fun r => r.live && r.userID == userID).insertionSort
    fun a b => b.createdAt ≤ a.createdAt

/-- `ORDER BY created_at` -/
def pendingBefore (w : World) (age : Nat) : List Row :=
  (w.avatars.rows.filter fun r =>
      r.processingStatus == .pending && r.live && decide (r.createdAt + age < w.now)).insertionSort
    fun a b => a.createdAt ≤ b.createdAt

def rowOr (row : Option Row) : Except Err Row :=
  match row with
  | some r => .ok r
  | none => .error .noRows

/-- The effect of a call that reaches a working dependency. -/
def effect : (c : Call) → Pick → World → Option (c.Answer × World)
  | .newUUID, .id id, w =>
    if id ∈ w.issued then none else some (id,{ w with issued := id :: w.issued })
  | .iterate keys, .order order, w => if h : order.Perm keys then some (⟨order,h⟩,w) else none
  | .insertAvatar a thumbs, .none, w =>
    match w.avatars.insert (Row.ofInsert a thumbs w.now) with
    | none => some (.error (.pgError uniqueViolation),w)
    | some avatars => some (.ok (w.now,w.now),w.inserted avatars (Row.ofInsert a thumbs w.now))
  | .selectByID id, .none, w => some (rowOr (w.live id),w)
  | .selectCurrent userID, .none, w => some (rowOr (w.liveOf userID).head?,w)
  | .selectByUser userID, .none, w => some (.ok (w.liveOf userID),w)
  | .updateDeleted id userID, .none, w =>
    match w.live id with
    | some r =>
      if r.userID = userID then some (.ok (r.s3Key,r.thumbnailS3Keys),w.write (r.deleted w.now))
      else some (.error .noRows,w)
    | none => some (.error .noRows,w)
  | .selectOwner id, .none, w => some ((rowOr (w.live id)).map Row.userID,w)
  | .updateResult id thumbs width height, .none, w =>
    match w.avatars.find id with
    | some r =>
      if r.processingStatus = .completed then some (.ok 0,w)
      else some (.ok 1,w.write (r.completed thumbs width height w.now))
    | none => some (.ok 0,w)
  | .updateStatus id status, .none, w =>
    match w.avatars.find id with
    | some r => some (.ok (),w.write (r.withStatus status w.now))
    | none => some (.ok (),w)
  | .selectPending age limit, .none, w => some (.ok ((w.pendingBefore age).take limit),w)
  | .countPending age, .none, w => some (.ok (w.pendingBefore age).length,w)
  | .putObject key object, .none, w => some (.ok (),w.put key object)
  | .getObject key, .none, w =>
    match w.objects key with
    | some object => some (.ok object,w)
    | none => some (.error (.s3Error (lit "NoSuchKey")),w)
  | .removeObject key, .none, w => some (.ok (),w.remove key)
  | .publishUpload event, .confirmation confirmation queued, w =>
    if confirmation = .acked ∧ queued = false then none
    else some (.ok confirmation,if queued then w.queueUpload event else w)
  | .publishDelete event, .confirmation confirmation queued, w =>
    if confirmation = .acked ∧ queued = false then none
    else some (.ok confirmation,if queued then w.queueDelete event else w)
  | .receiveUpload, .upload event, w =>
    if event ∈ w.uploads then some (event,{ w with uploads := w.uploads.erase event }) else none
  | .receiveDelete, .delete event, w =>
    if event ∈ w.deletes then some (event,{ w with deletes := w.deletes.erase event }) else none
  -- a rejected message comes back from its retry queue, or ends in the dead one
  | .settleUpload event ack, .requeue again, w =>
    some (.ok (),if !ack && again then { w with uploads := event :: w.uploads } else w)
  | .settleDelete event ack, .requeue again, w =>
    some (.ok (),if !ack && again then { w with deletes := event :: w.deletes } else w)
  | .allow dependency, .none, w =>
    some (if (w.breakers dependency).opened then .error .openState else .ok (),w)
  | .report dependency outcome, .none, w =>
    some ((),{ w with
      breakers := Function.update w.breakers dependency
        ((w.breakers dependency).afterRequest outcome) })
  | .breakerRejected _ _, .none, w => some ((),w)
  | _, _, _ => none

/-- A failing call as its caller sees it; some calls cannot fail. -/
def failed : (c : Call) → Err → Option c.Answer
  | .insertAvatar _ _, err => some (.error err)
  | .selectByID _, err => some (.error err)
  | .selectCurrent _, err => some (.error err)
  | .selectByUser _, err => some (.error err)
  | .updateDeleted _ _, err => some (.error err)
  | .selectOwner _, err => some (.error err)
  | .updateResult _ _ _ _, err => some (.error err)
  | .updateStatus _ _, err => some (.error err)
  | .selectPending _ _, err => some (.error err)
  | .countPending _, err => some (.error err)
  | .putObject _ _, err => some (.error err)
  | .getObject _, err => some (.error err)
  | .removeObject _, err => some (.error err)
  | .publishUpload _, err => some (.error err)
  | .publishDelete _, err => some (.error err)
  | .settleUpload _ _, err => some (.error err)
  | .settleDelete _ _, err => some (.error err)
  | _, _ => none

def perform (c : Call) : Choice → World → Option (c.Answer × World)
  | .ok pick, w => effect c pick w
  | .fail took pick err, w =>
    if err.isFault then
      (failed c err).bind fun answer =>
        if took then (effect c pick w).map fun result => (answer,result.2) else some (answer,w)
    else none

/-- What happens without a call: time passes, and the broker delivers again. -/
inductive Event where
  | tick
  | redeliverUpload (event : AvatarUploadEvent)
  | redeliverDelete (event : AvatarDeleteEvent)
  deriving DecidableEq

def environment : Event → World → Option World
  | .tick, w => some { w with now := w.now + 1 }
  | .redeliverUpload event, w =>
    if event ∈ w.sentUploads then some { w with uploads := event :: w.uploads } else none
  | .redeliverDelete event, w =>
    if event ∈ w.sentDeletes then some { w with deletes := event :: w.deletes } else none

/-! ### What a call can change -/

attribute [local simp] effect failed

/-- Every way a call can change the world. -/
inductive Changed (w : World) : Call → World → Prop where
  | nothing (c : Call) : Changed w c w
  | issued (id : UUID) (fresh : id ∉ w.issued) :
      Changed w .newUUID { w with issued := id :: w.issued }
  | inserted (a : Avatar) (thumbs : Json) (avatars : Table Row.id)
      (done : w.avatars.insert (Row.ofInsert a thumbs w.now) = some avatars) :
      Changed w (.insertAvatar a thumbs) (w.inserted avatars (Row.ofInsert a thumbs w.now))
  | deleted (r : Row) (found : w.avatars.find r.id = some r) (live : r.deletedAt = none) :
      Changed w (.updateDeleted r.id r.userID) (w.write (r.deleted w.now))
  | completed (r : Row) (thumbs : Json) (width height : Int64)
      (found : w.avatars.find r.id = some r) (open_ : r.processingStatus ≠ .completed) :
      Changed w (.updateResult r.id thumbs width height)
        (w.write (r.completed thumbs width height w.now))
  | status (r : Row) (status : ProcessingStatus) (found : w.avatars.find r.id = some r) :
      Changed w (.updateStatus r.id status) (w.write (r.withStatus status w.now))
  | put (key : GoString) (object : Object) : Changed w (.putObject key object) (w.put key object)
  | removed (key : GoString) : Changed w (.removeObject key) (w.remove key)
  | queuedUpload (event : AvatarUploadEvent) : Changed w (.publishUpload event) (w.queueUpload event)
  | queuedDelete (event : AvatarDeleteEvent) : Changed w (.publishDelete event) (w.queueDelete event)
  | receivedUpload (event : AvatarUploadEvent) (queued : event ∈ w.uploads) :
      Changed w .receiveUpload { w with uploads := w.uploads.erase event }
  | receivedDelete (event : AvatarDeleteEvent) (queued : event ∈ w.deletes) :
      Changed w .receiveDelete { w with deletes := w.deletes.erase event }
  | requeuedUpload (event : AvatarUploadEvent) :
      Changed w (.settleUpload event false) { w with uploads := event :: w.uploads }
  | requeuedDelete (event : AvatarDeleteEvent) :
      Changed w (.settleDelete event false) { w with deletes := event :: w.deletes }
  | reported (dependency : Dependency) (outcome : Outcome) :
      Changed w (.report dependency outcome)
        { w with
          breakers := Function.update w.breakers dependency
            ((w.breakers dependency).afterRequest outcome) }

theorem live_iff {w : World} {id : UUID} {r : Row} :
    w.live id = some r ↔ w.avatars.find id = some r ∧ r.deletedAt = none := by
  simp [live,Row.live,Option.filter_eq_some_iff]

/-- The effect of a call is one of its changes. -/
theorem effect_changed {w w' : World} {c : Call} {pick : Pick} {answer : c.Answer}
    (done : effect c pick w = some (answer,w')) : Changed w c w' := by
  cases c
  case newUUID =>
    cases pick <;> simp only [effect,reduceCtorEq] at done
    split at done
    · cases done
    · next fresh => cases done; exact .issued _ fresh
  case insertAvatar a thumbs =>
    cases pick <;> simp only [effect,reduceCtorEq] at done
    split at done
    · cases done; exact .nothing _
    · next avatars inserted => cases done; exact .inserted a thumbs avatars inserted
  case updateDeleted id userID =>
    cases pick <;> simp only [effect,reduceCtorEq] at done
    split at done
    · next r found =>
      obtain ⟨found,live⟩ := live_iff.mp found
      obtain rfl := Table.find_key found
      split at done
      · next owner => cases done; subst owner; exact .deleted r found live
      · cases done; exact .nothing _
    · cases done; exact .nothing _
  case updateResult id thumbs width height =>
    cases pick <;> simp only [effect,reduceCtorEq] at done
    split at done
    · next r found =>
      obtain rfl := Table.find_key found
      split at done
      · cases done; exact .nothing _
      · next unfinished => cases done; exact .completed r thumbs width height found unfinished
    · cases done; exact .nothing _
  case updateStatus id status =>
    cases pick <;> simp only [effect,reduceCtorEq] at done
    split at done
    · next r found =>
      obtain rfl := Table.find_key found
      cases done
      exact .status r status found
    · cases done; exact .nothing _
  case putObject key object =>
    cases pick <;> simp only [effect,reduceCtorEq] at done
    cases done
    exact .put key object
  case removeObject key =>
    cases pick <;> simp only [effect,reduceCtorEq] at done
    cases done
    exact .removed key
  case publishUpload event =>
    cases pick <;> simp only [effect,reduceCtorEq] at done
    split at done
    · cases done
    · cases done
      split
      · exact .queuedUpload event
      · exact .nothing _
  case publishDelete event =>
    cases pick <;> simp only [effect,reduceCtorEq] at done
    split at done
    · cases done
    · cases done
      split
      · exact .queuedDelete event
      · exact .nothing _
  case receiveUpload =>
    cases pick <;> simp only [effect,reduceCtorEq] at done
    split at done
    · next queued => cases done; exact .receivedUpload _ queued
    · cases done
  case receiveDelete =>
    cases pick <;> simp only [effect,reduceCtorEq] at done
    split at done
    · next queued => cases done; exact .receivedDelete _ queued
    · cases done
  case settleUpload event ack =>
    cases pick <;> simp only [effect,reduceCtorEq] at done
    cases done
    split
    · next again =>
      simp only [Bool.and_eq_true,Bool.not_eq_true'] at again
      rw [again.1]
      exact .requeuedUpload event
    · exact .nothing _
  case settleDelete event ack =>
    cases pick <;> simp only [effect,reduceCtorEq] at done
    cases done
    split
    · next again =>
      simp only [Bool.and_eq_true,Bool.not_eq_true'] at again
      rw [again.1]
      exact .requeuedDelete event
    · exact .nothing _
  case report dependency outcome =>
    cases pick <;> simp only [effect,reduceCtorEq] at done
    cases done
    exact .reported dependency outcome
  case iterate keys =>
    cases pick <;> simp only [effect,reduceCtorEq] at done
    split at done
    · cases done; exact .nothing _
    · cases done
  case getObject key =>
    cases pick <;> simp only [effect,reduceCtorEq] at done
    split at done <;> cases done <;> exact .nothing _
  all_goals
    cases pick <;> simp only [effect,reduceCtorEq] at done
    cases done
    exact .nothing _

theorem perform_changed {w w' : World} {c : Call} {choice : Choice} {answer : c.Answer}
    (done : perform c choice w = some (answer,w')) : Changed w c w' := by
  cases choice with
  | ok pick => exact effect_changed done
  | fail took pick err =>
    simp only [perform] at done
    split at done
    · obtain ⟨refusal,_,rest⟩ := Option.bind_eq_some_iff.mp done
      cases took with
      | true =>
        obtain ⟨result,effected,equal⟩ := Option.map_eq_some_iff.mp rest
        cases equal
        exact effect_changed effected
      | false => cases rest; exact .nothing _
    · cases done

/-- A call that does not get through changes nothing. -/
theorem perform_lost {w w' : World} {c : Call} {choice : Choice} {answer : c.Answer}
    (lost : choice.took = false) (done : perform c choice w = some (answer,w')) : w' = w := by
  cases choice with
  | ok pick => contradiction
  | fail took pick err =>
    have untaken : took = false := lost
    subst untaken
    simp only [perform] at done
    split at done
    · obtain ⟨refusal,_,rest⟩ := Option.bind_eq_some_iff.mp done
      cases rest
      rfl
    · contradiction

/-- A call that gets through has its effect, whatever its caller is told. -/
theorem perform_took {w w' : World} {c : Call} {choice : Choice} {answer : c.Answer}
    (took : choice.took = true) (done : perform c choice w = some (answer,w')) :
    ∃ pick answer', effect c pick w = some (answer',w') := by
  cases choice with
  | ok pick => exact ⟨pick,answer,done⟩
  | fail took' pick err =>
    have taken : took' = true := took
    subst taken
    simp only [perform] at done
    split at done
    · obtain ⟨refusal,_,rest⟩ := Option.bind_eq_some_iff.mp done
      obtain ⟨result,effected,equal⟩ := Option.map_eq_some_iff.mp rest
      cases equal
      exact ⟨pick,result.1,effected⟩
    · contradiction

/-- A good answer comes from the effect itself. -/
theorem perform_effect {w w' : World} {c : Call} {choice : Choice} {answer : c.Answer}
    (done : perform c choice w = some (answer,w'))
    (good : ∀ err : Err, err.isFault = true → failed c err ≠ some answer) :
    ∃ pick, choice = .ok pick ∧ effect c pick w = some (answer,w') := by
  cases choice with
  | ok pick => exact ⟨pick,rfl,done⟩
  | fail took pick err =>
    simp only [perform] at done
    split at done
    · next fault =>
      obtain ⟨refusal,refused,rest⟩ := Option.bind_eq_some_iff.mp done
      cases took with
      | true =>
        obtain ⟨result,_,equal⟩ := Option.map_eq_some_iff.mp rest
        cases equal
        exact absurd refused (good err fault)
      | false => cases rest; exact absurd refused (good err fault)
    · cases done

/-! ### What an answer says -/

variable {w w' : World} {choice : Choice}

theorem perform_newUUID {id : UUID} (done : perform .newUUID choice w = some (id,w')) :
    id ∉ w.issued ∧ id ∈ w'.issued := by
  obtain ⟨pick,-,effected⟩ := perform_effect done (by simp)
  cases pick <;> simp only [effect,reduceCtorEq] at effected
  split at effected
  · cases effected
  · next fresh => cases effected; exact ⟨fresh,List.mem_cons_self⟩

theorem perform_insertAvatar {a : Avatar} {thumbs : Json} {times : Time × Time}
    (done : perform (.insertAvatar a thumbs) choice w = some (.ok times,w')) :
    w'.avatars.find a.id = some (Row.ofInsert a thumbs w.now) := by
  obtain ⟨pick,-,effected⟩ := perform_effect done (by simp)
  cases pick <;> simp only [effect,reduceCtorEq] at effected
  split at effected
  · cases effected
  · next avatars inserted =>
    cases effected
    exact (Table.find_insert inserted a.id).trans (if_pos rfl)

theorem perform_selectByID {id : UUID} {r : Row}
    (done : perform (.selectByID id) choice w = some (.ok r,w')) : w.live id = some r ∧ w' = w := by
  obtain ⟨pick,-,effected⟩ := perform_effect done (by simp)
  cases pick <;> simp only [effect,reduceCtorEq] at effected
  cases found : w.live id <;> simp only [found,rowOr] at effected <;> cases effected
  exact ⟨rfl,rfl⟩

theorem perform_selectCurrent {userID : GoString} {r : Row}
    (done : perform (.selectCurrent userID) choice w = some (.ok r,w')) :
    w.live r.id = some r ∧ r.userID = userID ∧ w' = w := by
  obtain ⟨pick,-,effected⟩ := perform_effect done (by simp)
  cases pick <;> simp only [effect,reduceCtorEq] at effected
  cases first : (w.liveOf userID).head? <;> simp only [first,rowOr] at effected <;> cases effected
  have member := List.mem_of_head? first
  rw [liveOf,List.mem_insertionSort] at member
  simp only [List.mem_filter,Bool.and_eq_true,beq_iff_eq,Row.live,Option.isNone_iff_eq_none] at member
  exact ⟨live_iff.mpr ⟨Table.mem_iff_find.mp member.1,member.2.1⟩,member.2.2,rfl⟩

theorem perform_selectPending {age limit : Nat} {rows : List Row}
    (done : perform (.selectPending age limit) choice w = some (.ok rows,w')) :
    (∀ r ∈ rows, w.live r.id = some r) ∧ w' = w := by
  obtain ⟨pick,-,effected⟩ := perform_effect done (by simp)
  cases pick <;> simp only [effect,reduceCtorEq] at effected
  cases effected
  refine ⟨?_,rfl⟩
  intro r inside
  have member := List.mem_of_mem_take inside
  rw [pendingBefore,List.mem_insertionSort] at member
  simp only [List.mem_filter,Bool.and_eq_true,Row.live,Option.isNone_iff_eq_none] at member
  exact live_iff.mpr ⟨Table.mem_iff_find.mp member.1,member.2.1.2⟩

theorem perform_updateDeleted {id : UUID} {userID s3Key : GoString} {thumbs : Json}
    (done : perform (.updateDeleted id userID) choice w = some (.ok (s3Key,thumbs),w')) :
    ∃ r, w.live id = some r ∧ r.userID = userID ∧ s3Key = r.s3Key ∧ thumbs = r.thumbnailS3Keys ∧
      w' = w.write (r.deleted w.now) := by
  obtain ⟨pick,-,effected⟩ := perform_effect done (by simp)
  cases pick <;> simp only [effect,reduceCtorEq] at effected
  split at effected
  · next r found =>
    split at effected
    · next owner => cases effected; exact ⟨r,found,owner,rfl,rfl,rfl⟩
    · cases effected
  · cases effected

theorem perform_getObject {key : GoString} {object : Object}
    (done : perform (.getObject key) choice w = some (.ok object,w')) :
    w.objects key = some object ∧ w' = w := by
  obtain ⟨pick,-,effected⟩ := perform_effect done (by simp)
  cases pick <;> simp only [effect,reduceCtorEq] at effected
  split at effected
  · next found => cases effected; exact ⟨found,rfl⟩
  · cases effected

theorem perform_receiveUpload {event : AvatarUploadEvent}
    (done : perform .receiveUpload choice w = some (event,w')) : event ∈ w.uploads := by
  obtain ⟨pick,-,effected⟩ := perform_effect done (by simp)
  cases pick <;> simp only [effect,reduceCtorEq] at effected
  split at effected
  · next queued => cases effected; exact queued
  · cases effected

theorem perform_receiveDelete {event : AvatarDeleteEvent}
    (done : perform .receiveDelete choice w = some (event,w')) :
    event ∈ w.deletes ∧ w' = { w with deletes := w.deletes.erase event } := by
  obtain ⟨pick,-,effected⟩ := perform_effect done (by simp)
  cases pick <;> simp only [effect,reduceCtorEq] at effected
  split at effected
  · next queued => cases effected; exact ⟨queued,rfl⟩
  · cases effected

end World

end GophProfile
