import GophProfile.Ownership
import Mathlib.Data.List.Permutation

/-! The proof outline of the whole system: what every control point knows about the
world, and that every answer leads to a point that knows enough again. -/
namespace GophProfile

open Domain Effect

variable {P : Packages} {cfg : Config}

/-! ### The loop over the thumbnails -/

def sizes : List GoString := Worker.thumbnailSizes.map Prod.fst

def thumbnailEntry (userID : GoString) (id : UUID) (name : GoString) : GoString × GoString :=
  (name,thumbnailObjectKey userID id name)

theorem thumbnailKeys_eq (userID : GoString) (id : UUID) :
    thumbnailKeys userID id = sizes.map (thumbnailEntry userID id) := rfl

theorem sizes_perm {names : List GoString} (perm : names.Perm sizes) :
    names = sizes ∨ names = [thumbnailLarge,thumbnailSmall] := by
  have pair : names.Perm [thumbnailSmall,thumbnailLarge] := perm
  exact List.perm_pair.mp pair

/-- In whichever order the map was filled, the same document is written. -/
theorem marshal_thumbnails (userID : GoString) (id : UUID) {names : List GoString}
    (perm : names.Perm sizes) :
    Postgres.marshalThumbnails (names.map (thumbnailEntry userID id)) =
      Postgres.marshalThumbnails (thumbnailKeys userID id) := by
  rcases sizes_perm perm with rfl | rfl
  · rfl
  · have less : Postgres.bytesLE thumbnailLarge thumbnailSmall = false := by decide
    have more : Postgres.bytesLE thumbnailSmall thumbnailLarge = true := by decide
    simp [Postgres.marshalThumbnails,Postgres.sortedByKey,thumbnailKeys,thumbnailEntry,less,more]

/-- The sizes already stored and those still to come make up the whole map. -/
def Progress (avatar : Avatar) (names : List GoString) (thumbnails : GoMap) : Prop :=
  ∃ stored, (stored ++ names).Perm sizes ∧
    thumbnails = stored.map (thumbnailEntry avatar.userID avatar.id)

/-! ### What each point knows -/

/-- An upload past its user id check, with its id drawn and its key accepted. -/
def UploadInput.Ready (input : UploadInput) (w : World) (id : UUID) : Prop :=
  validateUserID input.userID = .ok () ∧ contains input.userID (lit "..") = false ∧ id ∈ w.issued

/-- A worker has read the row its event is about. -/
def World.Working (w : World) (event : AvatarUploadEvent) (id : UUID) (avatar : Avatar) : Prop :=
  w.Job event id ∧ avatar.id = id ∧ w.HasRow id avatar.userID avatar.s3Key

namespace Thread

def Sound (w : World) : Thread P → Prop
  | .uploadID input => validateUserID input.userID = .ok ()
  | .uploadPut input id => input.Ready w id
  | .uploadCreate input id => input.Ready w id
  | .uploadRemove input id _ => input.Ready w id
  | .uploadPublish avatar => w.HasRow avatar.id avatar.userID avatar.s3Key
  | .deleteIterate id userID s3Key keys =>
    w.HasDeleted id userID ∧ s3Key = originalObjectKey userID id ∧
      ∀ entry ∈ keys, entry ∈ thumbnailKeys userID id
  | .deletePublish id userID keys =>
    w.HasDeleted id userID ∧ ∀ key ∈ keys, key ∈ ownKeys userID id
  | .deleteDone id userID (.ok ()) => w.HasDeleted id userID
  | .processSelect _ event id => w.Job event id
  | .processDownload _ event id avatar => w.Working event id avatar
  | .processIterate event id avatar _ => w.Working event id avatar
  | .processPut event id avatar _ name _ rest thumbnails =>
    w.Working event id avatar ∧ Progress avatar (name :: rest) thumbnails
  | .processUpdate event id _ thumbnails =>
    w.Job event id ∧ ∃ userID s3Key, w.HasRow id userID s3Key ∧
      Postgres.marshalThumbnails thumbnails = Postgres.marshalThumbnails (thumbnailKeys userID id)
  | .processStatus event id => w.Job event id
  | .processSettle event _ => w.OwnUpload event
  | .cleanIterate event => w.OwnDelete event
  | .cleanRemove event key rest _ =>
    w.OwnDelete event ∧ ∀ k ∈ key :: rest, k ∈ event.s3Keys
  | .cleanSettle event _ => w.OwnDelete event
  | .reconcileCount _ stuck => ∀ avatar ∈ stuck, w.HasRow avatar.id avatar.userID avatar.s3Key
  | .reconcilePublish avatar rest =>
    ∀ a ∈ avatar :: rest, w.HasRow a.id a.userID a.s3Key
  | _ => True

theorem Sound.grows {w w' : World} (grows : World.Grows w w') {t : Thread P} (sound : t.Sound w) :
    t.Sound w' := by
  have ready : ∀ {input : UploadInput} {id : UUID}, input.Ready w id → input.Ready w' id :=
    fun r => ⟨r.1,r.2.1,grows.issued _ r.2.2⟩
  have working : ∀ {event : AvatarUploadEvent} {id : UUID} {avatar : Avatar},
      w.Working event id avatar → w'.Working event id avatar :=
    fun k => ⟨grows.job k.1,k.2.1,grows.hasRow k.2.2⟩
  cases t with
  | uploadID => exact sound
  | uploadPut => exact ready sound
  | uploadCreate => exact ready sound
  | uploadRemove => exact ready sound
  | uploadPublish => exact grows.hasRow sound
  | deleteIterate => exact ⟨grows.hasDeleted sound.1,sound.2⟩
  | deletePublish => exact ⟨grows.hasDeleted sound.1,sound.2⟩
  | deleteDone id userID result =>
    rcases result with err | _
    · trivial
    · exact grows.hasDeleted sound
  | processSelect => exact grows.job sound
  | processDownload => exact working sound
  | processIterate => exact working sound
  | processPut => exact ⟨working sound.1,sound.2⟩
  | processUpdate =>
    obtain ⟨job,userID,s3Key,has,same⟩ := sound
    exact ⟨grows.job job,userID,s3Key,grows.hasRow has,same⟩
  | processStatus => exact grows.job sound
  | processSettle => exact grows.ownUpload sound
  | cleanIterate => exact grows.ownDelete sound
  | cleanRemove => exact ⟨grows.ownDelete sound.1,sound.2⟩
  | cleanSettle => exact grows.ownDelete sound
  | reconcileCount => exact fun a member => grows.hasRow (sound a member)
  | reconcilePublish => exact fun a member => grows.hasRow (sound a member)
  | _ => trivial

/-! ### Where an answer leads -/

variable {w : World}

theorem sound_afterOriginal (avatar : Avatar) (size : GoString) (result : Except Err Object) :
    (afterOriginal cfg avatar size result : Thread P).Sound w := by
  unfold afterOriginal
  split <;> trivial

theorem sound_afterObject (avatar : Avatar) (size : GoString) (result : Except Err Object) :
    (afterObject cfg avatar size result : Thread P).Sound w := by
  unfold afterObject
  split
  · trivial
  · split
    · split
      · exact sound_afterOriginal avatar size _
      · trivial
    · trivial

theorem sound_serve (avatar : Avatar) (size ifNoneMatch : GoString) :
    (serve cfg avatar size ifNoneMatch : Thread P).Sound w := by
  unfold serve
  split
  · trivial
  · split
    · exact sound_afterObject avatar size _
    · trivial

theorem sound_startDelete (id : UUID) (userID : GoString) :
    (startDelete id userID : Thread P).Sound w := by
  unfold startDelete
  split <;> trivial

theorem sound_nextThumbnail {event : AvatarUploadEvent} {id : UUID} {avatar : Avatar}
    {img : P.Image} {names : List GoString} {thumbnails : GoMap} (working : w.Working event id avatar)
    (progress : Progress avatar names thumbnails) :
    (nextThumbnail event id avatar img names thumbnails).Sound w := by
  obtain ⟨job,rfl,has⟩ := working
  have settle : ∀ result, (processSettle event result : Thread P).Sound w := fun _ => ⟨_,job⟩
  cases names with
  | nil =>
    obtain ⟨stored,perm,rfl⟩ := progress
    rw [List.append_nil] at perm
    exact ⟨job,avatar.userID,avatar.s3Key,has,marshal_thumbnails avatar.userID avatar.id perm⟩
  | cons name rest =>
    simp only [nextThumbnail]
    split
    · exact settle _
    · split
      · exact settle _
      · exact ⟨⟨job,rfl,has⟩,progress⟩

theorem sound_afterThumbnail {event : AvatarUploadEvent} {id : UUID} {avatar : Avatar}
    {img : P.Image} {name : GoString} {rest : List GoString} {thumbnails : GoMap}
    (working : w.Working event id avatar) (progress : Progress avatar (name :: rest) thumbnails)
    (answer : Except Err Unit) :
    (afterThumbnail event id avatar img name rest thumbnails answer).Sound w := by
  simp only [afterThumbnail]
  split
  · exact ⟨_,working.1⟩
  · apply sound_nextThumbnail working
    obtain ⟨stored,perm,rfl⟩ := progress
    exact ⟨stored ++ [name],by simpa using perm,by simp [thumbnailEntry]⟩

theorem sound_nextRemoval {event : AvatarDeleteEvent} (own : w.OwnDelete event)
    {keys : List GoString} (inside : ∀ k ∈ keys, k ∈ event.s3Keys) (errs : List Err) :
    (nextRemoval event keys errs : Thread P).Sound w := by
  cases keys with
  | nil => exact own
  | cons key rest => exact ⟨own,inside⟩

theorem sound_nextRepublish {avatars : List Avatar}
    (rows : ∀ a ∈ avatars, w.HasRow a.id a.userID a.s3Key) :
    (nextRepublish avatars : Thread P).Sound w := by
  cases avatars with
  | nil => trivial
  | cons avatar rest => exact rows

theorem sound_start (command : Command) : (start command : Thread P).Sound w := by
  cases command with
  | upload input =>
    simp only [start,startUpload]
    split
    · trivial
    · next valid => exact valid
  | delete id userID => exact sound_startDelete id userID
  | deleteCurrent userID =>
    simp only [start,startDeleteCurrent]
    split <;> trivial
  | get r =>
    simp only [start,startGet]
    split
    · trivial
    · split <;> trivial
  | getCurrent r =>
    simp only [start,startGetCurrent]
    split
    · trivial
    · split <;> trivial
  | handleUpload | handleDelete | reconcile => trivial

/-! ### One call -/

variable {w' : World} {choice : Choice}

/-- Every point makes proper calls only. -/
theorem Sound.proper {t : Thread P} (sound : t.Sound w) {c : Call} {next : c.Answer → Thread P}
    (seen : t.view cfg = .call c next) : w.Proper c := by
  cases t <;> simp only [view,View.call.injEq,reduceCtorEq] at seen
  case uploadCreate input id =>
    obtain ⟨rfl,-⟩ := seen
    exact ⟨sound.1,sound.2.1,rfl,rfl,sound.2.2⟩
  case uploadPublish avatar =>
    obtain ⟨rfl,-⟩ := seen
    exact ⟨avatar.id,rfl,sound⟩
  case deletePublish id userID keys =>
    obtain ⟨rfl,-⟩ := seen
    exact ⟨id,userID,rfl,sound⟩
  case processUpdate event id img thumbnails =>
    obtain ⟨rfl,-⟩ := seen
    obtain ⟨-,userID,s3Key,⟨r,found,user,-⟩,same⟩ := sound
    have key := Table.find_key found
    exact ⟨r,found,by rw [same,user,key]⟩
  case processSettle event result =>
    obtain ⟨rfl,-⟩ := seen
    exact sound
  case cleanSettle event result =>
    obtain ⟨rfl,-⟩ := seen
    exact sound
  case reconcilePublish avatar rest =>
    obtain ⟨rfl,-⟩ := seen
    exact ⟨avatar.id,rfl,sound avatar List.mem_cons_self⟩
  all_goals
    obtain ⟨rfl,-⟩ := seen
    trivial

theorem hasRow_live {id : UUID} {r : Row} (found : w.live id = some r) :
    w.HasRow id r.userID r.s3Key := ⟨r,(World.live_iff.mp found).1,rfl,rfl⟩

theorem sound_afterCreate {input : UploadInput} {id : UUID} {answer : Except Err (Time × Time)}
    (ready : input.Ready w' id)
    (done : World.perform (.insertAvatar (AvatarService.newAvatar input id) (Postgres.marshalThumbnails []))
      choice w = some (answer,w')) : (afterCreate input id answer : Thread P).Sound w' := by
  simp only [afterCreate]
  split
  · split
    · trivial
    · exact ready
  · next avatar created =>
    obtain ⟨createdAt,updatedAt,rfl,rfl⟩ := Postgres.createResult_ok created
    have found := World.perform_insertAvatar done
    exact ⟨_,found,rfl,rfl⟩

theorem sound_afterUpdate {id : UUID} {userID : GoString} {answer : Except Err (GoString × Json)}
    (world : w.Sound) (done : World.perform (.updateDeleted id userID) choice w = some (answer,w')) :
    (afterUpdate id userID answer : Thread P).Sound w' := by
  rcases answer with err | ⟨s3Key,thumbs⟩
  · simp only [afterUpdate]
    split <;> trivial
  · obtain ⟨r,found,rfl,rfl,rfl,rfl⟩ := World.perform_updateDeleted done
    obtain ⟨found,-⟩ := World.live_iff.mp found
    obtain rfl := Table.find_key found
    have row := (world.rows r.id r found).1
    have deleted : (w.write (r.deleted w.now)).HasDeleted r.id r.userID := by
      refine ⟨r.deleted w.now,?_,rfl,by simp [Row.deleted]⟩
      rw [World.find_write]
      simp [Row.deleted,found]
    simp only [afterUpdate]
    split
    · trivial
    · next keys decoded => exact ⟨deleted,row.s3Key,fun entry member => row.entries decoded member⟩

/-- A deletion announces keys of its avatar only. -/
theorem sound_announced {id : UUID} {userID : GoString} {keys : GoMap}
    (entries : ∀ entry ∈ keys, entry ∈ thumbnailKeys userID id) (order : List GoString) :
    ∀ key ∈ allS3Keys (originalObjectKey userID id) keys order, key ∈ ownKeys userID id := by
  intro key member
  rcases List.mem_cons.mp member with rfl | inside
  · exact List.mem_cons_self
  · obtain ⟨size,-,lookup⟩ := List.mem_filterMap.mp inside
    have entry := entries _ (mem_of_lookup lookup)
    exact List.mem_cons_of_mem _ (List.mem_map_of_mem entry)

theorem sound_afterProcessSelect {maxPixels : Int64} {event : AvatarUploadEvent} {id : UUID}
    {answer : Except Err Row} (job : w'.Job event id)
    (done : World.perform (.selectByID id) choice w = some (answer,w')) :
    (afterProcessSelect maxPixels event id answer : Thread P).Sound w' := by
  simp only [afterProcessSelect]
  split
  · split <;> exact ⟨id,job⟩
  · next avatar read =>
    obtain ⟨r,thumbnails,rfl,-,rfl⟩ := Postgres.scanAvatar_ok (Postgres.getByIDResult_ok read)
    obtain ⟨found,rfl⟩ := World.perform_selectByID done
    split
    · exact ⟨id,job⟩
    · split
      · exact ⟨id,job⟩
      · have here : r.id = id := Table.find_key (World.live_iff.mp found).1
        exact ⟨job,here,hasRow_live found⟩

theorem sound_afterPending {age : Nat} {answer : Except Err (List Row)}
    (done : World.perform (.selectPending age Worker.reconcileBatch) choice w = some (answer,w')) :
    (afterPending age answer : Thread P).Sound w' := by
  simp only [afterPending]
  split
  · trivial
  · next stuck read =>
    obtain ⟨rows,rfl,scanned⟩ := Postgres.pendingResult_ok read
    obtain ⟨live,rfl⟩ := World.perform_selectPending done
    intro a member
    obtain ⟨r,inside,here⟩ := Postgres.scanAvatars_ok scanned member
    obtain ⟨r',thumbnails,same,-,rfl⟩ := Postgres.scanAvatar_ok here
    cases same
    exact hasRow_live (live r inside)

/-- Every answer leads to a point that knows what it must. -/
theorem Sound.answered {t : Thread P} (world : w.Sound) (sound : t.Sound w) {c : Call}
    {next : c.Answer → Thread P} {answer : c.Answer} (seen : t.view cfg = .call c next)
    (done : World.perform c choice w = some (answer,w')) : (next answer).Sound w' := by
  have grows := (World.perform_changed done).grows
  have later := Sound.grows grows sound
  cases t <;> simp only [view,reduceCtorEq] at seen
  case uploadID input =>
    cases seen
    have issued := (World.perform_newUUID done).2
    have valid : validateUserID input.userID = .ok () := later
    simp only [afterID]
    split
    · trivial
    · next accepted => exact ⟨valid,(validateKey_original answer valid).mp accepted,issued⟩
  case uploadPut input id =>
    cases seen
    simp only [afterPut]
    split
    · trivial
    · exact later
  case uploadCreate input id => cases seen; exact sound_afterCreate later done
  case uploadRemove => cases seen; trivial
  case uploadPublish => cases seen; trivial
  case currentSelect userID =>
    cases seen
    simp only [afterCurrent]
    split
    · trivial
    · exact sound_startDelete _ _
  case deleteUpdate id userID => cases seen; exact sound_afterUpdate world done
  case deleteOwner => cases seen; trivial
  case deleteIterate id userID s3Key keys =>
    cases seen
    obtain ⟨has,rfl,entries⟩ := later
    exact ⟨has,sound_announced entries answer.val⟩
  case deletePublish => cases seen; exact later.1
  case readSelect r id size =>
    cases seen
    simp only [afterSelect]
    split
    · trivial
    · exact sound_serve _ _ _
  case readCurrent r size =>
    cases seen
    simp only [afterReadCurrent]
    split
    · split <;> trivial
    · exact sound_serve _ _ _
  case readObject avatar size => cases seen; exact sound_afterObject _ _ _
  case readOriginal avatar size => cases seen; exact sound_afterOriginal _ _ _
  case processReceive maxPixels =>
    cases seen
    obtain ⟨id,text,has⟩ := grows.ownUpload (world.uploads answer (World.perform_receiveUpload done))
    simp only [startProcess,text,P.uuidParse_string]
    exact ⟨text,has⟩
  case processSelect maxPixels event id => cases seen; exact sound_afterProcessSelect later done
  case processDownload maxPixels event id avatar =>
    cases seen
    simp only [afterDownload]
    split
    · exact ⟨id,later.1⟩
    · split
      · exact later.1
      · exact later
  case processIterate event id avatar img =>
    cases seen
    exact sound_nextThumbnail later ⟨[],answer.property,rfl⟩
  case processPut event id avatar img name buf rest thumbnails =>
    cases seen
    exact sound_afterThumbnail later.1 later.2 answer
  case processUpdate event id img thumbnails =>
    cases seen
    simp only [afterResult]
    split <;> exact ⟨id,later.1⟩
  case processStatus event id => cases seen; exact ⟨id,later⟩
  case processSettle => cases seen; trivial
  case cleanReceive =>
    cases seen
    have own := grows.ownDelete (world.deletes answer (World.perform_receiveDelete done).1)
    simp only [startClean]
    split
    · exact own
    · split <;> exact own
  case cleanIterate event =>
    cases seen
    exact sound_nextRemoval later (fun k member => answer.property.mem_iff.mp member) []
  case cleanRemove event key rest errs =>
    cases seen
    have inside : ∀ k ∈ rest, k ∈ event.s3Keys := fun k member => later.2 k (List.mem_cons_of_mem _ member)
    simp only [afterRemoval]
    split <;> exact sound_nextRemoval later.1 inside _
  case cleanSettle => cases seen; trivial
  case reconcileSelect age => cases seen; exact sound_afterPending done
  case reconcileCount age stuck => cases seen; exact sound_nextRepublish later
  case reconcilePublish avatar rest =>
    cases seen
    exact sound_nextRepublish fun a member => later a (List.mem_cons_of_mem _ member)

end Thread

/-- The outline of the system, whatever its steps are. -/
def ownership (allowed : State P → Act → Prop) : (system P cfg).Outline allowed where
  invariant := World.Sound
  assertion := Thread.Sound
  grows := World.Grows
  refl := World.Grows.refl
  stable := fun grows sound => Thread.Sound.grows grows sound
  started := fun _ command _ => Thread.sound_start command
  answered := by
    intro s slot choice t c next answer w _ world threads running seen performed
    have sound := threads slot t running
    exact ⟨world.changed (sound.proper seen) (World.perform_changed performed),
      (World.perform_changed performed).grows,sound.answered world seen performed⟩
  moved := fun _ _ _ world moved => ⟨world.moved moved,World.environment_grows moved⟩

end GophProfile
