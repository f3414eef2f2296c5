import GophProfile.Tokens

/-! The control points are the handlers: every command's program makes the calls of its
control points, in their order and with their answers, so both machines reach the same
worlds with the same calls. -/
namespace GophProfile

open Domain Effect Transition

variable {P : Packages} {cfg : Config}

abbrev Follows (cfg : Config) (p : Prog Reply) (t : Thread P) : Prop :=
  Prog.Followed (Thread.view cfg) p t

namespace Follows

theorem upload (input : UploadInput) :
    Follows cfg (Command.program P cfg (.upload input)) (Thread.startUpload (P := P) input) := by
  simp only [Command.program,AvatarService.upload,Thread.startUpload]
  cases validateUserID input.userID with
  | error err => exact rfl
  | ok _ =>
    apply Prog.Followed.call rfl
    intro id
    simp only [Thread.afterID,service,S3.Storage.put,Breaker.call_none,S3.put,bind_eq,done_bind]
    cases valid : S3.validateKey (originalObjectKey input.userID id) with
    | error err => exact rfl
    | ok _ =>
      apply Prog.Followed.call rfl
      intro put
      simp only [Thread.afterPut,bind_eq,done_bind,pure_eq]
      cases S3.putResult (originalObjectKey input.userID id) put with
      | error err => exact rfl
      | ok _ =>
        apply Prog.Followed.call rfl
        intro created
        simp only [Thread.afterCreate,bind_eq,done_bind,pure_eq]
        cases Postgres.createResult (AvatarService.newAvatar input id) created with
        | error err =>
          simp only [AvatarService.removeOrphan,S3.Storage.delete,Breaker.call_none,S3.delete,valid]
          apply Prog.Followed.call rfl
          intro removed
          exact rfl
        | ok avatar =>
          apply Prog.Followed.call rfl
          intro published
          exact rfl

/-- The part that `Delete` and `DeleteCurrent` share. -/
theorem delete (id : UUID) (userID : GoString) :
    Follows cfg (Command.program P cfg (.delete id userID)) (Thread.startDelete (P := P) id userID) := by
  simp only [Command.program,AvatarService.delete,Thread.startDelete]
  cases validateUserID userID with
  | error err => exact rfl
  | ok _ =>
    apply Prog.Followed.call rfl
    intro updated
    simp only [Thread.afterUpdate,bind_eq,done_bind]
    cases updated with
    | error err =>
      by_cases missed : err.is .noRows = true
      · simp only [missed,if_true]
        apply Prog.Followed.call rfl
        intro owner
        exact rfl
      · simp only [missed]
        exact rfl
    | ok row =>
      simp only
      cases Postgres.unmarshalThumbnails row.2 with
      | error err => exact rfl
      | ok keys =>
        apply Prog.Followed.call rfl
        intro order
        apply Prog.Followed.call rfl
        intro published
        exact rfl

theorem deleteCurrent (userID : GoString) :
    Follows cfg (Command.program P cfg (.deleteCurrent userID))
      (Thread.startDeleteCurrent (P := P) userID) := by
  simp only [Command.program,AvatarService.deleteCurrent,AvatarService.currentMetadata,
    Thread.startDeleteCurrent]
  cases validateUserID userID with
  | error err => exact rfl
  | ok _ =>
    apply Prog.Followed.call rfl
    intro current
    simp only [Thread.afterCurrent,bind_eq,done_bind,pure_eq]
    cases Postgres.getCurrentResult userID current with
    | error err => exact rfl
    | ok avatar => exact delete avatar.id userID

/-- The answer to a request once the first read has come back. -/
theorem reopened (avatar : Avatar) (size : GoString) (first : Except Err Object) :
    Follows cfg
      (do
        let response ← (do
          match ← service.openOr avatar size first with
          | .error err => return Rest.writeReadError cfg err
          | .ok object => return Rest.content avatar (Rest.contentETag P avatar size) object)
        return .responded response)
      (Thread.afterObject (P := P) cfg avatar size first) := by
  cases first with
  | ok object => exact rfl
  | error err =>
    simp only [AvatarService.openOr,Thread.afterObject]
    by_cases missing : err.is .objectNotFound = true ∧ AvatarService.contentKey avatar size ≠ avatar.s3Key
    · rw [if_pos missing,if_pos missing]
      simp only [service,S3.Storage.get,Breaker.call_none,S3.get]
      cases S3.validateKey avatar.s3Key with
      | error err => exact rfl
      | ok _ =>
        apply Prog.Followed.call rfl
        intro answer
        simp only [bind_eq,done_bind,pure_eq,Thread.afterOriginal]
        cases S3.getResult avatar.s3Key answer <;> exact rfl
    · rw [if_neg missing,if_neg missing]
      exact rfl

theorem serve (avatar : Avatar) (size ifNoneMatch : GoString) :
    Follows cfg (do return .responded (← Rest.serveContent P cfg service avatar size ifNoneMatch))
      (Thread.serve (P := P) cfg avatar size ifNoneMatch) := by
  simp only [Rest.serveContent,Thread.serve]
  by_cases fresh : Rest.matchesIfNoneMatch ifNoneMatch (Rest.contentETag P avatar size) = true
  · simp only [fresh,if_true]
    exact rfl
  · simp only [fresh]
    simp only [AvatarService.openContent,service,S3.Storage.get,Breaker.call_none,S3.get]
    cases S3.validateKey (AvatarService.contentKey avatar size) with
    | error err => exact reopened avatar size (.error err)
    | ok _ =>
      apply Prog.Followed.call rfl
      intro answer
      exact reopened avatar size (S3.getResult (AvatarService.contentKey avatar size) answer)

theorem get (r : Rest.ContentRequest) :
    Follows cfg (Command.program P cfg (.get r)) (Thread.startGet (P := P) r) := by
  simp only [Command.program,Rest.get,Thread.startGet]
  cases Rest.parseID P r.avatarID with
  | error response => exact rfl
  | ok id =>
    simp only
    cases Rest.parseSize r with
    | error response => exact rfl
    | ok size =>
      apply Prog.Followed.call rfl
      intro row
      simp only [Thread.afterSelect,bind_eq,done_bind,pure_eq]
      cases Postgres.getByIDResult id row with
      | error err => exact rfl
      | ok avatar => exact serve avatar size r.ifNoneMatch

theorem getCurrent (r : Rest.ContentRequest) :
    Follows cfg (Command.program P cfg (.getCurrent r)) (Thread.startGetCurrent (P := P) r) := by
  simp only [Command.program,Rest.getCurrent,Thread.startGetCurrent]
  cases Rest.parseSize r with
  | error response => exact rfl
  | ok size =>
    simp only [AvatarService.currentMetadata]
    cases checked : validateUserID r.userID with
    | error err =>
      have refused := validateUserID_error checked
      simp only [pure_eq,done_bind,refused,or_true,if_true]
      exact rfl
    | ok _ =>
      apply Prog.Followed.call rfl
      intro row
      simp only [Thread.afterReadCurrent,bind_eq,done_bind,pure_eq]
      cases Postgres.getCurrentResult r.userID row with
      | error err =>
        simp only
        split <;> exact rfl
      | ok avatar => exact serve avatar size r.ifNoneMatch

/-- A handler's result is settled with the broker, whatever it is. -/
theorem settled (event : AvatarUploadEvent) (result : Except Err Unit) :
    Follows cfg
      (do
        let _ ← ask (.settleUpload event (isOk result))
        return .processed event result)
      (Thread.processSettle (P := P) event result) := by
  apply Prog.Followed.call rfl
  intro answer
  exact rfl

/-- The loop over the thumbnails, by induction on those still to be stored. -/
theorem thumbnails (maxPixels : Int64) (event : AvatarUploadEvent) (id : UUID) (avatar : Avatar)
    (img : P.Image) (names : List GoString) (done : GoMap) :
    Follows cfg
      (do
        let result ← (do
          match ← Worker.uploadEach P ⟨⟨none⟩,⟨none⟩,maxPixels⟩ avatar img names done with
          | .error err => return .error err
          | .ok thumbnails =>
            let (width,height) := ImageProc.dimensions P img
            match ← Postgres.AvatarRepository.updateProcessingResult ⟨none⟩ id thumbnails width height with
            | .error err => return .error err
            | .ok _ => return .ok ())
        let _ ← ask (.settleUpload event (isOk result))
        return .processed event result)
      (Thread.nextThumbnail event id avatar img names done) := by
  induction names generalizing done with
  | nil =>
    apply Prog.Followed.call rfl
    intro answer
    simp only [Thread.afterResult,bind_eq,done_bind,pure_eq]
    cases Postgres.processingResult id answer <;> exact settled event _
  | cons name rest ih =>
    simp only [Worker.uploadEach,Thread.nextThumbnail]
    cases Worker.encodeThumbnail P img (Worker.thumbnailSide name) with
    | error err => exact settled event _
    | ok buf =>
      simp only [S3.Storage.put,Breaker.call_none,S3.put]
      cases S3.validateKey (thumbnailObjectKey avatar.userID avatar.id name) with
      | error err => exact settled event _
      | ok _ =>
        apply Prog.Followed.call rfl
        intro answer
        simp only [Thread.afterThumbnail,bind_eq,done_bind,pure_eq]
        cases S3.putResult (thumbnailObjectKey avatar.userID avatar.id name) answer with
        | error err => exact settled event _
        | ok _ => exact ih _

theorem handleUpload (maxPixels : Int64) :
    Follows cfg (Command.program P cfg (.handleUpload maxPixels))
      (Thread.processReceive (P := P) maxPixels) := by
  apply Prog.Followed.call rfl
  intro event
  simp only [Worker.processUpload,Thread.startProcess,bind_eq,done_bind]
  cases P.uuidParse event.avatarID with
  | error err => exact settled event _
  | ok id =>
    apply Prog.Followed.call rfl
    intro row
    simp only [Thread.afterProcessSelect,bind_eq,done_bind,pure_eq]
    cases Postgres.getByIDResult id row with
    | error err =>
      simp only
      split <;> exact settled event _
    | ok avatar =>
      simp only
      by_cases processed : avatar.isProcessed = true
      · simp only [processed,if_true]
        exact settled event _
      · simp only [processed]
        simp only [S3.Storage.get,Breaker.call_none,S3.get]
        cases S3.validateKey avatar.s3Key with
        | error err => exact settled event _
        | ok _ =>
          apply Prog.Followed.call rfl
          intro object
          simp only [Thread.afterDownload,bind_eq,done_bind,pure_eq]
          cases S3.getResult avatar.s3Key object with
          | error err => exact settled event _
          | ok object =>
            simp only
            cases ImageProc.decode P object.body maxPixels with
            | error err =>
              apply Prog.Followed.call rfl
              intro answer
              simp only [bind_eq,done_bind,pure_eq]
              cases Postgres.statusResult id answer <;> exact settled event _
            | ok img =>
              apply Prog.Followed.call rfl
              intro order
              exact thumbnails maxPixels event id avatar img order.val []

theorem cleaned (event : AvatarDeleteEvent) (result : Except Err Unit) :
    Follows cfg
      (do
        let _ ← ask (.settleDelete event (isOk result))
        return .cleaned event result)
      (Thread.cleanSettle (P := P) event result) := by
  apply Prog.Followed.call rfl
  intro answer
  exact rfl

/-- The loop over the keys, by induction on those still to be removed. -/
theorem removals (event : AvatarDeleteEvent) (keys : List GoString) (errs : List Err) :
    Follows cfg
      (do
        let result ← (do return Err.joinAll (← S3.removeObjects keys errs))
        let _ ← ask (.settleDelete event (isOk result))
        return .cleaned event result)
      (Thread.nextRemoval (P := P) event keys errs) := by
  induction keys generalizing errs with
  | nil => exact cleaned event _
  | cons key rest ih =>
    apply Prog.Followed.call rfl
    intro answer
    simp only [Thread.afterRemoval,bind_eq,done_bind,pure_eq]
    cases S3.removeResult key answer with
    | error err => exact ih _
    | ok _ => exact ih _

theorem handleDelete :
    Follows cfg (Command.program P cfg .handleDelete) (Thread.cleanReceive : Thread P) := by
  apply Prog.Followed.call rfl
  intro event
  simp only [Worker.processDelete,S3.Storage.deleteMany,Breaker.call_none,S3.deleteMany,
    Thread.startClean,bind_eq,done_bind]
  by_cases empty : event.s3Keys = []
  · rw [if_pos empty,if_pos empty]
    exact cleaned event _
  · rw [if_neg empty,if_neg empty]
    cases S3.validateKeys event.s3Keys with
    | error err => exact cleaned event _
    | ok _ =>
      apply Prog.Followed.call rfl
      intro order
      exact removals event order.val []

theorem republished (age : Nat) (stuck : List Avatar) :
    Follows cfg
      (do
        Worker.republish ⟨⟨none⟩,⟨none⟩,age⟩ stuck
        return .reconciled)
      (Thread.nextRepublish (P := P) stuck) := by
  induction stuck with
  | nil => exact rfl
  | cons avatar rest ih =>
    apply Prog.Followed.call rfl
    intro published
    exact ih

theorem reconcile (age : Nat) :
    Follows cfg (Command.program P cfg (.reconcile age)) (Thread.reconcileSelect (P := P) age) := by
  apply Prog.Followed.call rfl
  intro rows
  simp only [Thread.afterPending,bind_eq,done_bind,pure_eq]
  cases Postgres.pendingResult rows with
  | error err => exact rfl
  | ok stuck =>
    apply Prog.Followed.call rfl
    intro count
    exact republished age stuck

end Follows

/-- The machine of control points and the machine of programs behave alike. -/
theorem simulates : Effect.Simulates (programs P cfg) (system P cfg) (Follows cfg) where
  view := fun _ _ followed => Prog.Followed.alike followed
  start := by
    intro command
    cases command with
    | upload input => exact Follows.upload input
    | delete id userID => exact Follows.delete id userID
    | deleteCurrent userID => exact Follows.deleteCurrent userID
    | get r => exact Follows.get r
    | getCurrent r => exact Follows.getCurrent r
    | handleUpload maxPixels => exact Follows.handleUpload maxPixels
    | handleDelete => exact Follows.handleDelete
    | reconcile age => exact Follows.reconcile age
  perform := rfl
  environment := rfl

abbrev ProgramState := Pool Call Call.Answer (Prog Reply) World

/-- A step of the handlers' programs is allowed when it is for the control points. -/
def Permitted (cfg : Config) (allowed : State P → Act → Prop) (s : ProgramState) (a : Act) : Prop :=
  ∀ s', Effect.Simulates.Related (Follows cfg) s s' → allowed s' a

/-- Whatever the handlers' programs reach, with the calls they have made, the control
points reach with the same calls and in the same world. -/
theorem programs_reach {allowed : State P → Act → Prop} {breakers : Dependency → BreakerState}
    {s : ProgramState} (reached : Reachable (programs P cfg).step (Permitted cfg allowed)
      (Pool.initial (World.initial breakers)) s) :
    ∃ s', Reaches P cfg allowed breakers s' ∧ Effect.Simulates.Related (Follows cfg) s s' :=
  simulates.reachable (fun _ s' _ related permitted => permitted s' related) reached

/-- Every world the handlers' programs reach is sound, whatever fails on the way. -/
theorem programs_sound {breakers : Dependency → BreakerState} {s : ProgramState}
    (reached : Reachable (programs P cfg).step (fun _ _ => True)
      (Pool.initial (World.initial breakers)) s) : s.world.Sound := by
  have permitted : Reachable (programs P cfg).step (Permitted cfg fun (_ : State P) _ => True)
      (Pool.initial (World.initial breakers)) s :=
    reached.mono fun _ _ _ _ _ => trivial
  obtain ⟨s',reached',related⟩ := programs_reach permitted
  have holds : s'.world.Sound := (Reaches.holds reached').1
  exact related.world ▸ holds

end GophProfile
