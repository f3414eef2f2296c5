import GophProfile.Outline

/-! What one undisturbed run of each queue's handler makes of the rows and objects, as a
function of them alone; and that it makes the same of everything that a run given up half
way leaves behind. -/
namespace GophProfile

open Domain

def Row.undated (r : Row) : Row := { r with updatedAt := 0 }

/-- The rows, up to their `updated_at`, and the objects. -/
@[ext]
structure Snapshot where
  rows : UUID → Option Row
  objects : GoString → Option Object

def World.snapshot (w : World) : Snapshot :=
  ⟨fun id => (w.avatars.find id).map Row.undated,w.objects⟩

namespace Snapshot

def live (s : Snapshot) (id : UUID) : Option Row := (s.rows id).filter Row.live

def setRow (s : Snapshot) (id : UUID) (r : Row) : Snapshot :=
  { s with rows := Function.update s.rows id (some r.undated) }

/-- What is stored under a key, if the storage takes the key. -/
def fetch (s : Snapshot) (key : GoString) : Option Object :=
  if (S3.validateKey key).isOk then s.objects key else none

/-- On the way from `first` to `last`: the rows as they were and some of the objects of
`last` in place, or all of it done. -/
def Toward (first last s : Snapshot) : Prop :=
  (s.rows = first.rows ∧ ∀ key, s.objects key = first.objects key ∨ s.objects key = last.objects key) ∨
    s = last

theorem toward_first (first last : Snapshot) : first.Toward last first :=
  .inl ⟨rfl,fun _ => .inl rfl⟩

/-- When only rows change, there is nothing between the beginning and the end. -/
theorem Toward.of_objects {first last s : Snapshot} (toward : first.Toward last s)
    (same : last.objects = first.objects) : s = first ∨ s = last := by
  rcases toward with ⟨rows,objects⟩ | done
  · left
    refine Snapshot.ext rows (funext fun key => ?_)
    rcases objects key with old | new
    · exact old
    · rw [new,same]
  · exact .inr done

theorem Toward.trans {first last s s' : Snapshot} (toward : first.Toward last s)
    (further : s.Toward last s') : first.Toward last s' := by
  rcases further with ⟨rows,objects⟩ | done
  · rcases toward with ⟨rows',objects'⟩ | finished
    · refine .inl ⟨rows.trans rows',fun key => ?_⟩
      rcases objects key with old | new
      · rw [old]
        exact objects' key
      · exact .inr new
    · subst finished
      refine .inr (Snapshot.ext rows (funext fun key => ?_))
      exact (objects key).elim id id
  · exact .inr done

end Snapshot

open Snapshot

section Upload
variable (P : Packages) (maxPixels : Int64)

/-! ### Thumbnails -/

def thumbnailObject (img : P.Image) (name : GoString) : Option Object :=
  match Worker.encodeThumbnail P img (Worker.thumbnailSide name) with
  | .error _ => none
  | .ok buf => some ⟨buf,ImageProc.thumbnailMIME⟩

def Snapshot.withThumbnails (s : Snapshot) (userID : GoString) (id : UUID) (img : P.Image) : Snapshot :=
  { s with
    objects := fun key =>
      match sizes.find? fun name => thumbnailObjectKey userID id name == key with
      | some name => thumbnailObject P img name
      | none => s.objects key }

/-- The storage takes the keys of the thumbnails. -/
def storable (userID : GoString) (id : UUID) : Bool :=
  (S3.validateKey (thumbnailObjectKey userID id thumbnailSmall)).isOk

theorem storable_iff (userID : GoString) (id : UUID) {name : GoString} (built : name ∈ sizes) :
    (S3.validateKey (thumbnailObjectKey userID id name)).isOk = storable userID id := by
  unfold storable
  rw [thumbnailObjectKey_eq,thumbnailObjectKey_eq]
  exact validateKey_same id (plainName_thumbnail built) (plainName_thumbnail (by decide))

theorem thumbnailObjectKey_name {userID name name' : GoString} {id : UUID}
    (same : thumbnailObjectKey userID id name = thumbnailObjectKey userID id name') : name = name' :=
  List.append_cancel_left (List.append_cancel_right same)

theorem withThumbnails_built (s : Snapshot) (userID : GoString) (id : UUID) (img : P.Image)
    {name : GoString} (built : name ∈ sizes) :
    (s.withThumbnails P userID id img).objects (thumbnailObjectKey userID id name) =
      thumbnailObject P img name := by
  simp only [withThumbnails]
  split
  · next other found =>
    have same := List.find?_some found
    rw [beq_iff_eq] at same
    rw [thumbnailObjectKey_name same]
  · next absent =>
    have different := List.find?_eq_none.mp absent name built
    simp at different

theorem withThumbnails_other (s : Snapshot) (userID : GoString) (id : UUID) (img : P.Image)
    {key : GoString} (other : ∀ name ∈ sizes, thumbnailObjectKey userID id name ≠ key) :
    (s.withThumbnails P userID id img).objects key = s.objects key := by
  simp only [withThumbnails]
  split
  · next name found =>
    have same := List.find?_some found
    rw [beq_iff_eq] at same
    exact absurd same (other name (List.mem_of_find?_eq_some found))
  · rfl

/-! ### The upload event -/

/-- What `HandleUpload` makes of the store. -/
def uploadOutcome (event : AvatarUploadEvent) (s : Snapshot) : Snapshot :=
  match P.uuidParse event.avatarID with
  | .error _ => s
  | .ok id =>
    match s.live id with
    | none => s
    | some r =>
      match Postgres.unmarshalThumbnails r.thumbnailS3Keys with
      | .error _ => s
      | .ok _ =>
        if r.processingStatus = .completed then s
        else match s.fetch r.s3Key with
          | none => s
          | some original =>
            match ImageProc.decode P original.body maxPixels with
            | .error _ => s.setRow id (r.withStatus .failed 0)
            | .ok img =>
              if storable r.userID id then
                (s.withThumbnails P r.userID id img).setRow id
                  (r.completed (Postgres.marshalThumbnails (thumbnailKeys r.userID id))
                    (ImageProc.dimensions P img).1 (ImageProc.dimensions P img).2 0)
              else s

/-- The event asks for work that is still to be done, on an original that is there. -/
structure Unfinished (event : AvatarUploadEvent) (s : Snapshot) (id : UUID) (r : Row)
    (original : Object) : Prop where
  parsed : P.uuidParse event.avatarID = .ok id
  live : s.live id = some r
  readable : ∃ m, Postgres.unmarshalThumbnails r.thumbnailS3Keys = .ok m
  unfinished : r.processingStatus ≠ .completed
  fetched : s.fetch r.s3Key = some original

variable {P maxPixels} {event : AvatarUploadEvent} {first s : Snapshot} {id : UUID} {r : Row}
variable {original : Object}

theorem Unfinished.outcome (todo : Unfinished P event s id r original) (maxPixels : Int64) :
    uploadOutcome P maxPixels event s =
      match ImageProc.decode P original.body maxPixels with
      | .error _ => s.setRow id (r.withStatus .failed 0)
      | .ok img =>
        if storable r.userID id then
          (s.withThumbnails P r.userID id img).setRow id
            (r.completed (Postgres.marshalThumbnails (thumbnailKeys r.userID id))
              (ImageProc.dimensions P img).1 (ImageProc.dimensions P img).2 0)
        else s := by
  obtain ⟨m,decoded⟩ := todo.readable
  simp only [uploadOutcome,todo.parsed,todo.live,decoded,todo.unfinished,todo.fetched,if_false]

theorem outcome_or_unfinished (P : Packages) (maxPixels : Int64) (event : AvatarUploadEvent)
    (s : Snapshot) : uploadOutcome P maxPixels event s = s ∨
      ∃ id r original, Unfinished P event s id r original := by
  cases parsed : P.uuidParse event.avatarID with
  | error err => exact .inl (by simp only [uploadOutcome,parsed])
  | ok id =>
    cases live : s.live id with
    | none => exact .inl (by simp only [uploadOutcome,parsed,live])
    | some r =>
      cases decoded : Postgres.unmarshalThumbnails r.thumbnailS3Keys with
      | error err => exact .inl (by simp only [uploadOutcome,parsed,live,decoded])
      | ok m =>
        by_cases finished : r.processingStatus = .completed
        · exact .inl (by simp only [uploadOutcome,parsed,live,decoded,finished,if_true])
        · cases fetched : s.fetch r.s3Key with
          | none => exact .inl (by simp only [uploadOutcome,parsed,live,decoded,finished,fetched,if_false])
          | some original => exact .inr ⟨id,r,original,parsed,live,⟨m,decoded⟩,finished,fetched⟩

/-- The bytes of the avatar's original are those that the first run has found. -/
def OriginalKept (P : Packages) (event : AvatarUploadEvent) (first s : Snapshot) : Prop :=
  ∀ id r, P.uuidParse event.avatarID = .ok id → first.live id = some r →
    (s.objects r.s3Key).map Object.body = (first.objects r.s3Key).map Object.body

theorem live_setRow (s : Snapshot) (id : UUID) {r : Row} (live : r.deletedAt = none) :
    (s.setRow id r).live id = some r.undated := by
  simp [Snapshot.live,setRow,Row.live,Row.undated,live]

theorem deletedAt_live (found : s.live id = some r) : r.deletedAt = none := by
  have live := (Option.filter_eq_some_iff.mp found).2
  simpa [Row.live] using live

/-- A run makes the same of what another one has left half done. -/
theorem uploadOutcome_absorbs (toward : first.Toward (uploadOutcome P maxPixels event first) s)
    (kept : OriginalKept P event first s) :
    uploadOutcome P maxPixels event s = uploadOutcome P maxPixels event first := by
  rcases outcome_or_unfinished P maxPixels event first with quiet | ⟨id,r,original,todo⟩
  · rw [quiet] at toward
    rcases toward.of_objects rfl with rfl | rfl <;> rfl
  · have alive := deletedAt_live todo.live
    have outcome := todo.outcome maxPixels
    cases decoded : ImageProc.decode P original.body maxPixels with
    | error err =>
      simp only [decoded] at outcome
      rw [outcome] at toward ⊢
      rcases toward.of_objects rfl with rfl | rfl
      · exact outcome
      · have again : Unfinished P event (first.setRow id (r.withStatus .failed 0)) id
            (r.withStatus .failed 0).undated original :=
          ⟨todo.parsed,live_setRow first id alive,todo.readable,by simp [Row.undated,Row.withStatus],
            todo.fetched⟩
        rw [again.outcome maxPixels]
        simp only [decoded]
        exact Snapshot.ext (Function.update_idem _ _ _) rfl
    | ok img =>
      simp only [decoded] at outcome
      split at outcome
      · next takes =>
        rw [outcome] at toward ⊢
        rcases toward with ⟨rows,objects⟩ | rfl
        · have fetched := todo.fetched
          unfold fetch at fetched
          split at fetched
          · next accepted =>
            have bodies := kept id r todo.parsed todo.live
            rw [fetched] at bodies
            obtain ⟨original',present,body⟩ := Option.map_eq_some_iff.mp bodies
            have again : Unfinished P event s id r original' :=
              ⟨todo.parsed,by rw [Snapshot.live,rows]; exact todo.live,todo.readable,todo.unfinished,
                by rw [fetch,if_pos accepted,present]⟩
            rw [again.outcome maxPixels,body]
            simp only [decoded,takes,if_true]
            refine Snapshot.ext (by simp only [setRow,withThumbnails,rows]) (funext fun key => ?_)
            by_cases thumbnail : ∃ name ∈ sizes, thumbnailObjectKey r.userID id name = key
            · obtain ⟨name,built,rfl⟩ := thumbnail
              exact (withThumbnails_built P s r.userID id img built).trans
                (withThumbnails_built P first r.userID id img built).symm
            · have other : ∀ name ∈ sizes, thumbnailObjectKey r.userID id name ≠ key :=
                fun name built same => thumbnail ⟨name,built,same⟩
              have unchanged := withThumbnails_other P first r.userID id img other
              refine (withThumbnails_other P s r.userID id img other).trans ?_
              rcases objects key with old | new
              · exact old.trans unchanged.symm
              · exact new
          · contradiction
        · have found : ((first.withThumbnails P r.userID id img).setRow id (r.completed
              (Postgres.marshalThumbnails (thumbnailKeys r.userID id)) (ImageProc.dimensions P img).1
              (ImageProc.dimensions P img).2 0)).live id = _ := live_setRow _ id alive
          simp only [uploadOutcome,todo.parsed,found]
          split
          · rfl
          · simp [Row.undated,Row.completed]
      · rw [outcome] at toward
        rcases toward.of_objects rfl with rfl | rfl <;> rfl

/-- An original that is no thumbnail is left as it is. -/
theorem uploadOutcome_original (maxPixels : Int64) (parsed : P.uuidParse event.avatarID = .ok id)
    (live : s.live id = some r)
    (apart : ∀ name ∈ sizes, thumbnailObjectKey r.userID id name ≠ r.s3Key) :
    (uploadOutcome P maxPixels event s).objects r.s3Key = s.objects r.s3Key := by
  rcases outcome_or_unfinished P maxPixels event s with quiet | ⟨id',r',original,todo⟩
  · rw [quiet]
  · obtain rfl := Except.ok.inj (parsed.symm.trans todo.parsed)
    obtain rfl := Option.some.inj (live.symm.trans todo.live)
    rw [todo.outcome maxPixels]
    split
    · rfl
    · split
      · exact withThumbnails_other P s r.userID id _ apart
      · rfl

end Upload

/-! ### The delete event -/

/-- What `HandleDelete` makes of the store. -/
def deleteOutcome (event : AvatarDeleteEvent) (s : Snapshot) : Snapshot :=
  match S3.validateKeys event.s3Keys with
  | .error _ => s
  | .ok () => { s with objects := fun key => if event.s3Keys.contains key then none else s.objects key }

theorem deleteOutcome_absorbs {event : AvatarDeleteEvent} {first s : Snapshot}
    (toward : first.Toward (deleteOutcome event first) s) :
    deleteOutcome event s = deleteOutcome event first := by
  cases checked : S3.validateKeys event.s3Keys with
  | error err =>
    simp only [deleteOutcome,checked] at toward ⊢
    rcases toward.of_objects rfl with rfl | rfl <;> rfl
  | ok done =>
    simp only [deleteOutcome,checked] at toward ⊢
    rcases toward with ⟨rows,objects⟩ | rfl
    · refine Snapshot.ext rows (funext fun key => ?_)
      by_cases listed : event.s3Keys.contains key = true
      · simp only [listed,if_true]
      · have same := objects key
        simp only [listed,Bool.false_eq_true,if_false,or_self] at same ⊢
        exact same
    · refine Snapshot.ext rfl (funext fun key => ?_)
      by_cases listed : event.s3Keys.contains key = true <;> simp only [listed,Bool.false_eq_true,if_true,if_false]

end GophProfile
