import GophProfile.Keys
import GophProfile.Thread

/-! Who owns what, in every reachable state: rows name their own objects, events and
running operations name rows that exist, and no row is ever lost, renamed or undeleted. -/
namespace GophProfile

open Domain Effect

/-! ### How the world grows -/

/-- What no statement changes about a row. -/
structure Row.Later (r r' : Row) : Prop where
  id : r'.id = r.id
  userID : r'.userID = r.userID
  s3Key : r'.s3Key = r.s3Key
  createdAt : r'.createdAt = r.createdAt
  deletedAt : r.deletedAt ≠ none → r'.deletedAt = r.deletedAt

theorem Row.Later.refl (r : Row) : r.Later r := ⟨rfl,rfl,rfl,rfl,fun _ => rfl⟩

namespace World

structure Grows (w w' : World) : Prop where
  rows : ∀ id r, w.avatars.find id = some r → ∃ r', w'.avatars.find id = some r' ∧ r.Later r'
  issued : ∀ id ∈ w.issued, id ∈ w'.issued
  written : ∀ r ∈ w.written, r ∈ w'.written
  stored : ∀ object ∈ w.stored, object ∈ w'.stored
  now : w.now ≤ w'.now

theorem Grows.same {w w' : World} (avatars : w'.avatars = w.avatars) (issued : w'.issued = w.issued)
    (written : w'.written = w.written) (stored : ∀ object ∈ w.stored, object ∈ w'.stored)
    (now : w.now ≤ w'.now) : Grows w w' where
  rows := fun _ r found => ⟨r,avatars ▸ found,.refl r⟩
  issued := fun _ member => issued ▸ member
  written := fun _ member => written ▸ member
  stored := stored
  now := now

theorem Grows.refl (w : World) : Grows w w := .same rfl rfl rfl (fun _ h => h) (Nat.le_refl _)

theorem find_write (w : World) (r : Row) (id : UUID) :
    (w.write r).avatars.find id =
      if id = r.id then (w.avatars.find id).map fun _ => r else w.avatars.find id :=
  Table.find_replace w.avatars r id

/-- An UPDATE of the row that is there. -/
theorem Grows.write {w : World} {r r' : Row} (found : w.avatars.find r.id = some r)
    (later : r.Later r') : Grows w (w.write r') where
  rows := by
    intro id old old_found
    rw [find_write,later.id]
    by_cases here : id = r.id
    · subst here
      obtain rfl := Option.some.inj (found.symm.trans old_found)
      exact ⟨r',by simp [found],later⟩
    · exact ⟨old,by simp [here,old_found],.refl old⟩
  issued := fun _ member => member
  written := fun _ member => List.mem_cons_of_mem _ member
  stored := fun _ member => member
  now := Nat.le_succ _

theorem find_inserted {w : World} {a : Avatar} {thumbs : Json} {avatars : Table Row.id}
    (done : w.avatars.insert (Row.ofInsert a thumbs w.now) = some avatars) (id : UUID) :
    (w.inserted avatars (Row.ofInsert a thumbs w.now)).avatars.find id =
      if id = a.id then some (Row.ofInsert a thumbs w.now) else w.avatars.find id :=
  Table.find_insert done id

theorem Changed.grows {w w' : World} {c : Call} (changed : Changed w c w') : Grows w w' := by
  cases changed with
  | nothing => exact .refl w
  | issued id fresh =>
    exact ⟨fun id r found => ⟨r,found,.refl r⟩,fun _ member => List.mem_cons_of_mem _ member,
      fun _ member => member,fun _ member => member,Nat.le_refl _⟩
  | inserted a thumbs avatars done =>
    refine ⟨?_,fun _ member => member,fun _ member => List.mem_cons_of_mem _ member,
      fun _ member => member,Nat.le_succ _⟩
    intro id r found
    have different : id ≠ a.id := by
      rintro rfl
      have absent : w.avatars.find a.id = none := Table.insert_fresh done
      rw [absent] at found
      contradiction
    exact ⟨r,by rw [find_inserted done,if_neg different]; exact found,.refl r⟩
  | deleted r found live =>
    exact .write found ⟨rfl,rfl,rfl,rfl,fun deleted => absurd live deleted⟩
  | completed r thumbs width height found =>
    exact .write found ⟨rfl,rfl,rfl,rfl,fun _ => rfl⟩
  | status r status found => exact .write found ⟨rfl,rfl,rfl,rfl,fun _ => rfl⟩
  | put => exact .same rfl rfl rfl (fun _ member => List.mem_cons_of_mem _ member) (Nat.le_refl _)
  | _ => exact .same rfl rfl rfl (fun _ member => member) (Nat.le_refl _)

/-- Only an INSERT makes a row appear. -/
theorem Changed.found_new {w w' : World} {c : Call} {id : UUID} (changed : Changed w c w')
    (before : w.avatars.find id = none) (after : w'.avatars.find id ≠ none) :
    ∃ a thumbs, c = .insertAvatar a thumbs ∧ id = a.id := by
  have writes : ∀ r : Row, (w.write r).avatars.find id = none := by
    intro r
    rw [find_write,before]
    simp
  cases changed with
  | inserted a thumbs avatars done =>
    rw [find_inserted done] at after
    by_cases here : id = a.id
    · exact ⟨a,thumbs,rfl,here⟩
    · rw [if_neg here] at after
      exact absurd before after
  | deleted => exact absurd (writes _) after
  | completed => exact absurd (writes _) after
  | status => exact absurd (writes _) after
  | _ => exact absurd before after

theorem Changed.sentDelete_new {w w' : World} {c : Call} {event : AvatarDeleteEvent}
    (changed : Changed w c w') (sent : event ∈ w'.sentDeletes) :
    event ∈ w.sentDeletes ∨ c = .publishDelete event := by
  cases changed with
  | queuedDelete published =>
    rcases List.mem_cons.mp sent with rfl | old
    · exact .inr rfl
    · exact .inl old
  | _ => exact .inl sent

theorem environment_avatars {w w' : World} {event : Event} (moved : environment event w = some w') :
    w'.avatars = w.avatars := by
  cases event <;> simp only [environment] at moved
  · cases moved; rfl
  · split at moved <;> cases moved; rfl
  · split at moved <;> cases moved; rfl

theorem environment_objects {w w' : World} {event : Event} (moved : environment event w = some w') :
    w'.objects = w.objects := by
  cases event <;> simp only [environment] at moved
  · cases moved; rfl
  · split at moved <;> cases moved; rfl
  · split at moved <;> cases moved; rfl

theorem environment_sentDeletes {w w' : World} {event : Event}
    (moved : environment event w = some w') : w'.sentDeletes = w.sentDeletes := by
  cases event <;> simp only [environment] at moved
  · cases moved; rfl
  · split at moved <;> cases moved; rfl
  · split at moved <;> cases moved; rfl

theorem environment_deletes {w w' : World} {event : Event} (moved : environment event w = some w') :
    ∀ queued ∈ w.deletes, queued ∈ w'.deletes := by
  intro queued member
  cases event <;> simp only [environment] at moved
  · cases moved; exact member
  · split at moved <;> cases moved; exact member
  · split at moved <;> cases moved; exact List.mem_cons_of_mem _ member

theorem environment_grows {w w' : World} {event : Event} (moved : environment event w = some w') :
    Grows w w' := by
  cases event with
  | tick =>
    obtain rfl := Option.some.inj moved
    exact .same rfl rfl rfl (fun _ member => member) (Nat.le_succ _)
  | redeliverUpload event =>
    simp only [environment] at moved
    split at moved
    · obtain rfl := Option.some.inj moved
      exact .same rfl rfl rfl (fun _ member => member) (Nat.le_refl _)
    · contradiction
  | redeliverDelete event =>
    simp only [environment] at moved
    split at moved
    · obtain rfl := Option.some.inj moved
      exact .same rfl rfl rfl (fun _ member => member) (Nat.le_refl _)
    · contradiction

end World

/-! ### Rows, events and operations that are in order -/

/-- The keys of an avatar's objects: the original, then the thumbnails. -/
def ownKeys (userID : GoString) (id : UUID) : List GoString :=
  originalObjectKey userID id :: (thumbnailKeys userID id).map Prod.snd

structure Row.Sound (r : Row) : Prop where
  valid : validateUserID r.userID = .ok ()
  plain : contains r.userID (lit "..") = false
  s3Key : r.s3Key = originalObjectKey r.userID r.id
  thumbs : r.thumbnailS3Keys = Postgres.marshalThumbnails [] ∨
    r.thumbnailS3Keys = Postgres.marshalThumbnails (thumbnailKeys r.userID r.id)

section Readable
variable {r : Row} (sound : r.Sound)
include sound

/-- A row that is in order can be read: it has no thumbnails, or all of them. -/
theorem Row.Sound.readable : ∃ thumbnails,
    Postgres.unmarshalThumbnails r.thumbnailS3Keys = .ok thumbnails ∧
      (thumbnails = [] ∨ thumbnails.Perm (thumbnailKeys r.userID r.id)) := by
  rcases sound.thumbs with empty | full
  · exact ⟨[],by rw [empty,Postgres.unmarshal_marshal]; rfl,.inl rfl⟩
  · exact ⟨_,by rw [full,Postgres.unmarshal_marshal],.inr (Postgres.sortedByKey_perm _)⟩

theorem Row.Sound.decoded {thumbnails : GoMap}
    (decoded : Postgres.unmarshalThumbnails r.thumbnailS3Keys = .ok thumbnails) :
    thumbnails = [] ∨ thumbnails.Perm (thumbnailKeys r.userID r.id) := by
  obtain ⟨read,readable,whole⟩ := sound.readable
  rw [readable] at decoded
  exact Except.ok.inj decoded ▸ whole

theorem Row.Sound.entries {thumbnails : GoMap}
    (decoded : Postgres.unmarshalThumbnails r.thumbnailS3Keys = .ok thumbnails)
    {entry : GoString × GoString} (member : entry ∈ thumbnails) :
    entry ∈ thumbnailKeys r.userID r.id := by
  rcases sound.decoded decoded with rfl | perm
  · contradiction
  · exact perm.mem_iff.mp member

end Readable

namespace World

/-- The metadata of an avatar agree with a row. -/
def HasRow (w : World) (id : UUID) (userID s3Key : GoString) : Prop :=
  ∃ r, w.avatars.find id = some r ∧ r.userID = userID ∧ r.s3Key = s3Key

def HasDeleted (w : World) (id : UUID) (userID : GoString) : Prop :=
  ∃ r, w.avatars.find id = some r ∧ r.userID = userID ∧ r.deletedAt ≠ none

/-- The event asks for the processing of an avatar that has a row. -/
def Job (w : World) (event : AvatarUploadEvent) (id : UUID) : Prop :=
  event.avatarID = id.string ∧ w.HasRow id event.userID event.s3Key

def OwnUpload (w : World) (event : AvatarUploadEvent) : Prop := ∃ id, w.Job event id

def OwnDelete (w : World) (event : AvatarDeleteEvent) : Prop :=
  ∃ id userID, event.avatarID = id.string ∧ w.HasDeleted id userID ∧
    ∀ key ∈ event.s3Keys, key ∈ ownKeys userID id

structure Sound (w : World) : Prop where
  rows : ∀ id r, w.avatars.find id = some r → r.Sound ∧ id ∈ w.issued
  uploads : ∀ event ∈ w.uploads, w.OwnUpload event
  deletes : ∀ event ∈ w.deletes, w.OwnDelete event
  sentUploads : ∀ event ∈ w.sentUploads, w.OwnUpload event
  sentDeletes : ∀ event ∈ w.sentDeletes, w.OwnDelete event

variable {w w' : World}

theorem Grows.hasRow (grows : Grows w w') {id : UUID} {userID s3Key : GoString}
    (has : w.HasRow id userID s3Key) : w'.HasRow id userID s3Key := by
  obtain ⟨r,found,user,key⟩ := has
  obtain ⟨r',found',later⟩ := grows.rows id r found
  exact ⟨r',found',later.userID.trans user,later.s3Key.trans key⟩

theorem Grows.hasDeleted (grows : Grows w w') {id : UUID} {userID : GoString}
    (has : w.HasDeleted id userID) : w'.HasDeleted id userID := by
  obtain ⟨r,found,user,deleted⟩ := has
  obtain ⟨r',found',later⟩ := grows.rows id r found
  exact ⟨r',found',later.userID.trans user,(later.deletedAt deleted).symm ▸ deleted⟩

theorem Grows.job (grows : Grows w w') {event : AvatarUploadEvent} {id : UUID} (job : w.Job event id) :
    w'.Job event id := ⟨job.1,grows.hasRow job.2⟩

theorem Grows.ownUpload (grows : Grows w w') {event : AvatarUploadEvent} (own : w.OwnUpload event) :
    w'.OwnUpload event := by
  obtain ⟨id,job⟩ := own
  exact ⟨id,grows.job job⟩

theorem Grows.ownDelete (grows : Grows w w') {event : AvatarDeleteEvent} (own : w.OwnDelete event) :
    w'.OwnDelete event := by
  obtain ⟨id,userID,text,has,keys⟩ := own
  exact ⟨id,userID,text,grows.hasDeleted has,keys⟩

theorem initial_sound (breakers : Dependency → BreakerState) : Sound (initial breakers) := by
  constructor <;> simp [initial]

/-- What an operation has made sure of before each of its writing calls. -/
def Proper (w : World) : Call → Prop
  | .insertAvatar a thumbs =>
    validateUserID a.userID = .ok () ∧ contains a.userID (lit "..") = false ∧
      a.s3Key = originalObjectKey a.userID a.id ∧ thumbs = Postgres.marshalThumbnails [] ∧
      a.id ∈ w.issued
  | .updateResult id thumbs _ _ =>
    ∃ r, w.avatars.find id = some r ∧
      thumbs = Postgres.marshalThumbnails (thumbnailKeys r.userID r.id)
  | .publishUpload event => w.OwnUpload event
  | .publishDelete event => w.OwnDelete event
  | .settleUpload event _ => w.OwnUpload event
  | .settleDelete event _ => w.OwnDelete event
  | _ => True

/-- Soundness is kept when the rows stay sound and new events are in order. -/
theorem Sound.next (sound : w.Sound) (grows : Grows w w')
    (rows : ∀ id r, w'.avatars.find id = some r → r.Sound ∧ id ∈ w'.issued)
    (uploads : ∀ event ∈ w'.uploads, event ∈ w.uploads ∨ w.OwnUpload event)
    (deletes : ∀ event ∈ w'.deletes, event ∈ w.deletes ∨ w.OwnDelete event)
    (sentUploads : ∀ event ∈ w'.sentUploads, event ∈ w.sentUploads ∨ w.OwnUpload event)
    (sentDeletes : ∀ event ∈ w'.sentDeletes, event ∈ w.sentDeletes ∨ w.OwnDelete event) :
    w'.Sound where
  rows := rows
  uploads := fun event member =>
    grows.ownUpload ((uploads event member).elim (sound.uploads event) fun own => own)
  deletes := fun event member =>
    grows.ownDelete ((deletes event member).elim (sound.deletes event) fun own => own)
  sentUploads := fun event member =>
    grows.ownUpload ((sentUploads event member).elim (sound.sentUploads event) fun own => own)
  sentDeletes := fun event member =>
    grows.ownDelete ((sentDeletes event member).elim (sound.sentDeletes event) fun own => own)

theorem Sound.same (sound : w.Sound) (grows : Grows w w') (avatars : w'.avatars = w.avatars)
    (uploads : ∀ event ∈ w'.uploads, event ∈ w.uploads ∨ w.OwnUpload event)
    (deletes : ∀ event ∈ w'.deletes, event ∈ w.deletes ∨ w.OwnDelete event)
    (sentUploads : ∀ event ∈ w'.sentUploads, event ∈ w.sentUploads ∨ w.OwnUpload event)
    (sentDeletes : ∀ event ∈ w'.sentDeletes, event ∈ w.sentDeletes ∨ w.OwnDelete event) :
    w'.Sound := by
  refine sound.next grows ?_ uploads deletes sentUploads sentDeletes
  intro id r found
  have old := sound.rows id r (avatars ▸ found)
  exact ⟨old.1,grows.issued id old.2⟩

theorem Sound.write (sound : w.Sound) {r r' : Row} (found : w.avatars.find r.id = some r)
    (later : r.Later r') (good : r'.Sound) : (w.write r').Sound := by
  have grows := Grows.write found later
  refine sound.next grows ?_ (fun _ member => .inl member) (fun _ member => .inl member)
    (fun _ member => .inl member) (fun _ member => .inl member)
  intro id old read
  rw [find_write,later.id] at read
  split at read
  · next here =>
    subst here
    rw [found] at read
    obtain rfl := Option.some.inj read
    exact ⟨good,(sound.rows r.id r found).2⟩
  · exact sound.rows id old read

/-- A proper call leaves everything in order. -/
theorem Sound.changed (sound : w.Sound) {c : Call} (proper : w.Proper c) (changed : Changed w c w') :
    w'.Sound := by
  have grows := changed.grows
  have keep : ∀ {β : Type} {p : β → Prop} {l : List β}, ∀ event ∈ l, event ∈ l ∨ p event :=
    fun _ member => .inl member
  cases changed with
  | inserted a thumbs avatars done =>
    obtain ⟨valid,plain,s3Key,empty,issued⟩ := proper
    refine sound.next grows ?_ keep keep keep keep
    intro id r read
    rw [find_inserted done] at read
    split at read
    · next here =>
      obtain rfl := Option.some.inj read
      exact ⟨⟨valid,plain,s3Key,.inl empty⟩,here ▸ issued⟩
    · exact sound.rows id r read
  | deleted r found live =>
    have old := (sound.rows r.id r found).1
    exact sound.write found ⟨rfl,rfl,rfl,rfl,fun deleted => absurd live deleted⟩
      ⟨old.valid,old.plain,old.s3Key,old.thumbs⟩
  | completed r thumbs width height found =>
    obtain ⟨r',found',full⟩ := proper
    obtain rfl := Option.some.inj (found.symm.trans found')
    have old := (sound.rows r.id r found).1
    exact sound.write found ⟨rfl,rfl,rfl,rfl,fun _ => rfl⟩ ⟨old.valid,old.plain,old.s3Key,.inr full⟩
  | status r status found =>
    have old := (sound.rows r.id r found).1
    exact sound.write found ⟨rfl,rfl,rfl,rfl,fun _ => rfl⟩ ⟨old.valid,old.plain,old.s3Key,old.thumbs⟩
  | issued id fresh => exact sound.same grows rfl keep keep keep keep
  | queuedUpload event =>
    have new : ∀ l : List AvatarUploadEvent, ∀ e ∈ event :: l, e ∈ l ∨ w.OwnUpload e := by
      intro l e member
      rcases List.mem_cons.mp member with rfl | old
      · exact .inr proper
      · exact .inl old
    exact sound.same grows rfl (new _) keep (new _) keep
  | queuedDelete event =>
    have new : ∀ l : List AvatarDeleteEvent, ∀ e ∈ event :: l, e ∈ l ∨ w.OwnDelete e := by
      intro l e member
      rcases List.mem_cons.mp member with rfl | old
      · exact .inr proper
      · exact .inl old
    exact sound.same grows rfl keep (new _) keep (new _)
  | receivedUpload event =>
    exact sound.same grows rfl (fun _ member => .inl (List.mem_of_mem_erase member)) keep keep keep
  | receivedDelete event =>
    exact sound.same grows rfl keep (fun _ member => .inl (List.mem_of_mem_erase member)) keep keep
  | requeuedUpload event =>
    refine sound.same grows rfl ?_ keep keep keep
    intro e member
    rcases List.mem_cons.mp member with rfl | old
    · exact .inr proper
    · exact .inl old
  | requeuedDelete event =>
    refine sound.same grows rfl keep ?_ keep keep
    intro e member
    rcases List.mem_cons.mp member with rfl | old
    · exact .inr proper
    · exact .inl old
  | _ => exact sound.same grows rfl keep keep keep keep

theorem Sound.moved (sound : w.Sound) {event : Event} (moved : environment event w = some w') :
    w'.Sound := by
  have grows := environment_grows moved
  have keep : ∀ {β : Type} {p : β → Prop} {l : List β}, ∀ event ∈ l, event ∈ l ∨ p event :=
    fun _ member => .inl member
  cases event with
  | tick =>
    obtain rfl := Option.some.inj moved
    exact sound.same grows rfl keep keep keep keep
  | redeliverUpload event =>
    simp only [environment] at moved
    split at moved
    · next sent =>
      obtain rfl := Option.some.inj moved
      refine sound.same grows rfl ?_ keep keep keep
      intro e member
      rcases List.mem_cons.mp member with rfl | old
      · exact .inr (sound.sentUploads _ sent)
      · exact .inl old
    · contradiction
  | redeliverDelete event =>
    simp only [environment] at moved
    split at moved
    · next sent =>
      obtain rfl := Option.some.inj moved
      refine sound.same grows rfl keep ?_ keep keep
      intro e member
      rcases List.mem_cons.mp member with rfl | old
      · exact .inr (sound.sentDeletes _ sent)
      · exact .inl old
    · contradiction

end World

end GophProfile
