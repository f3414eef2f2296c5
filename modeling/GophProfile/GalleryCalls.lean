import GophProfile.GalleryRows
import GophProfile.Outline

/-! What the callers of the service are told, and that each of its statements does to the gallery
what the operation it belongs to should, or fails. -/
namespace GophProfile

open Domain

/-- A call that has failed, whether it got through or not. -/
def Choice.fails : Choice → Bool
  | .ok _ => false
  | .fail _ _ _ => true

namespace World

variable {w w' : World}

/-- A call is answered by its effect, or it fails and has had its effect or not. -/
theorem perform_split {c : Call} {choice : Choice} {answer : c.Answer}
    (done : perform c choice w = some (answer,w')) :
    (∃ pick, effect c pick w = some (answer,w')) ∨
      choice.fails = true ∧ (∃ err : Err, err.isFault = true ∧ failed c err = some answer) ∧
        (w' = w ∨ ∃ pick answer', effect c pick w = some (answer',w')) := by
  cases choice with
  | ok pick => exact .inl ⟨pick,done⟩
  | fail took pick err =>
    simp only [perform] at done
    split at done
    · next fault =>
      obtain ⟨refusal,refused,rest⟩ := Option.bind_eq_some_iff.mp done
      cases took with
      | true =>
        obtain ⟨result,effected,same⟩ := Option.map_eq_some_iff.mp rest
        cases same
        exact .inr ⟨rfl,⟨err,fault,refused⟩,.inr ⟨pick,result.1,effected⟩⟩
      | false =>
        cases rest
        exact .inr ⟨rfl,⟨err,fault,refused⟩,.inl rfl⟩
    · contradiction

theorem gallery_same (same : w'.avatars = w.avatars) : w'.gallery = w.gallery := by
  rw [gallery,gallery,same]

/-- The statements that change the table. -/
def changes : Call → Bool
  | .insertAvatar _ _ | .updateDeleted _ _ | .updateResult _ _ _ _ | .updateStatus _ _ => true
  | _ => false

theorem perform_gallery {c : Call} {choice : Choice} {answer : c.Answer} (reads : changes c = false)
    (done : perform c choice w = some (answer,w')) : w'.gallery = w.gallery := by
  apply gallery_same
  cases perform_changed done with
  | inserted | deleted | completed | status => contradiction
  | _ => rfl

end World

namespace Gallery

/-! ### What the callers are told -/

/-- An error, as far as `errors.Is` tells it apart. -/
def refused (err : Err) : Answer :=
  if err.is .avatarNotFound then .notFound
  else if err.is .forbidden then .forbidden
  else if err.is .invalidUserID then .invalidUserID
  else .failed

def shown : Except Err Avatar → Answer
  | .ok a => .avatar a
  | .error err => refused err

def listed : Except Err (List Avatar) → Answer
  | .ok all => .avatars all
  | .error err => refused err

def ended : Except Err Unit → Answer
  | .ok () => .done
  | .error err => refused err

def reported : Except Err Bool → Answer
  | .ok _ => .done
  | .error err => refused err

theorem refused_fault {err : Err} (fault : err.isFault = true) (format : String) (args : List GoString) :
    refused (.errorf format args err) = .failed := by
  cases err <;> simp [Err.isFault] at fault <;> simp [refused,Err.is]

theorem refused_twice {err : Err} (fault : err.isFault = true) (format format' : String) (args args' : List GoString) :
    refused (.errorf format args (.errorf format' args' err)) = .failed := by
  cases err <;> simp [Err.isFault] at fault <;> simp [refused,Err.is]

theorem refused_invalid {userID : GoString} {err : Err} (invalid : validateUserID userID = .error err) :
    refused err = .invalidUserID := by
  obtain ⟨format,args,rfl⟩ := validateUserID_errorf invalid
  simp [refused,Err.is]

theorem fault_noRows {err : Err} (fault : err.isFault = true) : err.is .noRows = false := by
  cases err <;> simp [Err.isFault] at fault <;> simp [Err.is]

theorem scan_fault {err : Err} (fault : err.isFault = true) :
    Postgres.scanAvatar (.error err) = .error err := by
  simp [Postgres.scanAvatar,fault_noRows fault]

/-! ### The statements -/

variable {faulty : Prop} {w w' : World} {choice : Choice} {id : UUID} {userID : GoString}

theorem times_past (ordered : w.Ordered) : ∀ a ∈ w.gallery.avatars, a.createdAt < w.now ∧ a.updatedAt < w.now := by
  intro a member
  obtain ⟨r,inside,seen⟩ := List.mem_filterMap.mp member
  obtain ⟨-,-,thumbnails,rfl⟩ := picture_some seen
  exact ordered.past r inside

theorem admits_new (ordered : w.Ordered) (absent : w.avatars.find id = none) (op : Op) :
    w.gallery.Admits op id w.now := ⟨fun _ _ _ => by simp [World.gallery,absent],times_past ordered⟩

theorem admits_now (ordered : w.Ordered) {op : Op}
    (other : ∀ input, op = .upload input → validateUserID input.userID ≠ .ok ()) (id : UUID) :
    w.gallery.Admits op id w.now := by
  exact ⟨fun input same valid => absurd valid (other input same),times_past ordered⟩

/-- An operation that draws no id, and whose answer is at hand. -/
theorem Does.of_apply {op : Op} {g' : Gallery} {answer : Answer} (ordered : w.Ordered)
    (other : ∀ input, op = .upload input → validateUserID input.userID ≠ .ok ()) (id : UUID)
    (applied : w.gallery.apply id w.now op = (answer,g')) :
    Does faulty op w.gallery answer g' := by
  have done : Does faulty op w.gallery _ _ := .answered id w.now (admits_now ordered other id)
  rw [applied] at done
  exact done

theorem Does.failing {op : Op} {g g' : Gallery} {answer : Answer} (done : Does faulty op g .failed g')
    (told : answer = .failed) : Does faulty op g answer g' := told ▸ done

theorem metadata_does (sound : w.Sound) (ordered : w.Ordered) {answer : Except Err Row}
    (done : World.perform (.selectByID id) choice w = some (answer,w')) (troubled : choice.fails = true → faulty) :
    Does faulty (.metadata id) w.gallery (shown (Postgres.getByIDResult id answer)) w.gallery := by
  rcases World.perform_split done with ⟨pick,effected⟩ | ⟨fails,⟨err,fault,failed⟩,-⟩
  · cases pick <;> simp only [World.effect,reduceCtorEq] at effected
    cases effected
    apply Does.of_apply ordered (fun _ => by simp) id
    rw [Postgres.getByIDResult,World.scan_live sound,apply]
    cases w.gallery.find id <;> rfl
  · cases failed
    rw [Postgres.getByIDResult,scan_fault fault]
    exact .failing (.lost (troubled fails)) (refused_fault fault _ _)

theorem current_does (sound : w.Sound) (ordered : w.Ordered) (valid : validateUserID userID = .ok ())
    {answer : Except Err Row} (done : World.perform (.selectCurrent userID) choice w = some (answer,w'))
    (troubled : choice.fails = true → faulty) :
    Does faulty (.current userID) w.gallery (shown (Postgres.getCurrentResult userID answer)) w.gallery := by
  rcases World.perform_split done with ⟨pick,effected⟩ | ⟨fails,⟨err,fault,failed⟩,-⟩
  · cases pick <;> simp only [World.effect,reduceCtorEq] at effected
    cases effected
    apply Does.of_apply ordered (fun _ => by simp) .nil
    rw [Postgres.getCurrentResult,World.scan_current sound ordered,apply,valid]
    cases (w.gallery.ofUser userID).head? <;> rfl
  · cases failed
    rw [Postgres.getCurrentResult,scan_fault fault]
    exact .failing (.lost (troubled fails)) (refused_fault fault _ _)

theorem list_does (sound : w.Sound) (ordered : w.Ordered) (valid : validateUserID userID = .ok ())
    {answer : Except Err (List Row)} (done : World.perform (.selectByUser userID) choice w = some (answer,w'))
    (troubled : choice.fails = true → faulty) :
    Does faulty (.list userID) w.gallery (listed (Postgres.listResult userID answer)) w.gallery := by
  rcases World.perform_split done with ⟨pick,effected⟩ | ⟨fails,⟨err,fault,failed⟩,-⟩
  · cases pick <;> simp only [World.effect,reduceCtorEq] at effected
    cases effected
    apply Does.of_apply ordered (fun _ => by simp) .nil
    rw [Postgres.listResult,World.scan_liveOf sound ordered,apply,valid]
    rfl
  · cases failed
    exact .failing (.lost (troubled fails)) (refused_fault fault _ _)

/-- What an upload tells its caller after its INSERT. -/
def createdAs (input : UploadInput) (id : UUID) (answer : Except Err (Time × Time)) : Except Err Avatar :=
  match Postgres.createResult (AvatarService.newAvatar input id) answer with
  | .error err => .error (AvatarService.uploadFailed err)
  | .ok a => .ok a

theorem insert_does {input : UploadInput} (ordered : w.Ordered) (absent : w.avatars.find id = none)
    (valid : validateUserID input.userID = .ok ()) (plain : contains input.userID (lit "..") = false)
    {answer : Except Err (Time × Time)}
    (done : World.perform (.insertAvatar (AvatarService.newAvatar input id) (Postgres.marshalThumbnails []))
      choice w = some (answer,w')) (troubled : choice.fails = true → faulty) :
    Does faulty (.upload input) w.gallery (shown (createdAs input id answer)) w'.gallery := by
  have admits := admits_new ordered absent (.upload input)
  have applied : w.gallery.apply id w.now (.upload input) =
      (.avatar (added input id w.now),w.gallery.add (added input id w.now)) := by
    simp [apply,valid,plain]
  have inserts : ∀ {pick answer' w''}, World.effect
      (.insertAvatar (AvatarService.newAvatar input id) (Postgres.marshalThumbnails [])) pick w = some (answer',w'') →
      answer' = .ok (w.now,w.now) ∧ w''.gallery = w.gallery.add (added input id w.now) := by
    intro pick answer' w'' effected
    cases pick <;> simp only [World.effect,reduceCtorEq] at effected
    split at effected
    · next refused => exact absurd refused (Table.insert_some absent)
    · next avatars inserted =>
      cases effected
      exact ⟨rfl,World.gallery_inserted input id inserted⟩
  rcases World.perform_split done with ⟨pick,effected⟩ | ⟨fails,⟨err,fault,failed⟩,missed | ⟨pick,answer',effected⟩⟩
  · obtain ⟨rfl,same⟩ := inserts effected
    have does : Does faulty (.upload input) w.gallery _ _ := .answered id w.now admits
    rw [applied] at does
    rw [same]
    exact does
  · cases failed
    rw [missed]
    exact .failing (.lost (troubled fails)) (refused_twice fault _ _ _ _)
  · cases failed
    have does := Does.cut (troubled fails) id w.now admits
    rw [applied] at does
    rw [(inserts effected).2]
    exact .failing does (refused_twice fault _ _ _ _)

/-- The row of the id is somebody else's, and will be. -/
def Foreign (w : World) (id : UUID) (userID : GoString) : Prop :=
  ∃ r, w.avatars.find id = some r ∧ r.userID ≠ userID

theorem Foreign.grows (foreign : Foreign w id userID) (grows : World.Grows w w') : Foreign w' id userID := by
  obtain ⟨r,found,other⟩ := foreign
  obtain ⟨r',found',later⟩ := grows.rows id r found
  exact ⟨r',found',later.userID ▸ other⟩

theorem find_live {r : Row} (sound : w.Sound) (live : w.live id = some r) :
    ∃ thumbnails, w.gallery.find id = some (Postgres.toAvatar r thumbnails) := by
  obtain ⟨found,alive⟩ := World.live_iff.mp live
  obtain ⟨a,-,seen⟩ := picture_live (sound.rows id r found).1 (by simp [Row.live,alive])
  obtain ⟨-,-,thumbnails,rfl⟩ := picture_some seen
  exact ⟨thumbnails,by rw [World.gallery_find,live]; exact seen⟩

theorem find_none (absent : w.live id = none) : w.gallery.find id = none := by
  rw [World.gallery_find,absent]
  rfl

/-- What the first statement of a deletion finds. -/
inductive Deletes (faulty : Prop) (id : UUID) (userID : GoString) (w w' : World) :
    Except Err (GoString × Json) → Prop where
  | hit (s3Key : GoString) (thumbs : Json) (thumbnails : GoMap)
      (decoded : Postgres.unmarshalThumbnails thumbs = .ok thumbnails)
      (done : Does faulty (.delete id userID) w.gallery .done w'.gallery) :
      Deletes faulty id userID w w' (.ok (s3Key,thumbs))
  | absent (same : w' = w) (done : Does faulty (.delete id userID) w.gallery .notFound w'.gallery) :
      Deletes faulty id userID w w' (.error .noRows)
  | foreign (same : w' = w) (foreign : Foreign w id userID) : Deletes faulty id userID w w' (.error .noRows)
  | fault (err : Err) (fault : err.isFault = true)
      (done : Does faulty (.delete id userID) w.gallery .failed w'.gallery) :
      Deletes faulty id userID w w' (.error err)

theorem delete_does (sound : w.Sound) (ordered : w.Ordered) (valid : validateUserID userID = .ok ())
    {answer : Except Err (GoString × Json)}
    (done : World.perform (.updateDeleted id userID) choice w = some (answer,w'))
    (troubled : choice.fails = true → faulty) : Deletes faulty id userID w w' answer := by
  have other : ∀ input, Op.delete id userID = .upload input → validateUserID input.userID ≠ .ok () := by simp
  have applied (answer : Answer) (g : Gallery) (same : w.gallery.apply id w.now (.delete id userID) = (answer,g)) :
      Does faulty (.delete id userID) w.gallery answer g := .of_apply ordered other id same
  -- what the UPDATE does when it is carried out
  have effects : ∀ {pick answer' w''}, World.effect (.updateDeleted id userID) pick w = some (answer',w'') →
      (∃ (r : Row) (thumbnails : GoMap), Postgres.unmarshalThumbnails r.thumbnailS3Keys = .ok thumbnails ∧
        answer' = .ok (r.s3Key,r.thumbnailS3Keys) ∧
          w.gallery.apply id w.now (.delete id userID) = (.done,w''.gallery)) ∨
      answer' = .error .noRows ∧ w'' = w ∧ (Foreign w id userID ∧
        w.gallery.apply id w.now (.delete id userID) = (.forbidden,w.gallery) ∨
          w.gallery.apply id w.now (.delete id userID) = (.notFound,w.gallery)) := by
    intro pick answer' w'' effected
    cases pick <;> simp only [World.effect,reduceCtorEq] at effected
    cases there : w.live id with
    | none =>
      rw [there] at effected
      cases effected
      exact .inr ⟨rfl,rfl,.inr (by simp [apply,valid,find_none there])⟩
    | some r =>
      obtain ⟨thumbnails,found⟩ := find_live sound there
      obtain ⟨row,-⟩ := World.live_iff.mp there
      simp only [there] at effected
      split at effected
      · next own =>
        cases effected
        obtain rfl := Table.find_key row
        obtain ⟨decoded,readable,-⟩ := (sound.rows r.id r row).1.readable
        refine .inl ⟨r,decoded,readable,rfl,?_⟩
        rw [World.gallery_deleted row]
        simp [apply,valid,found,own,Postgres.toAvatar]
      · next strange =>
        cases effected
        exact .inr ⟨rfl,rfl,.inl ⟨⟨r,row,strange⟩,by simp [apply,valid,found,strange,Postgres.toAvatar]⟩⟩
  rcases World.perform_split done with ⟨pick,effected⟩ | ⟨fails,⟨err,fault,failed⟩,missed | ⟨pick,answer',effected⟩⟩
  · rcases effects effected with ⟨r,thumbnails,decoded,rfl,deletes⟩ | ⟨rfl,rfl,⟨foreign,-⟩ | absent⟩
    · exact .hit _ _ thumbnails decoded (applied _ _ deletes)
    · exact .foreign rfl foreign
    · exact .absent rfl (applied _ _ absent)
  · cases failed
    rw [missed]
    exact .fault err fault (.lost (troubled fails))
  · cases failed
    have does := Does.cut (troubled fails) id w.now (admits_now ordered other id)
    refine .fault err fault ?_
    rcases effects effected with ⟨r,thumbnails,-,-,deletes⟩ | ⟨-,rfl,⟨-,forbidden⟩ | absent⟩
    · rwa [deletes] at does
    · rwa [forbidden] at does
    · rwa [absent] at does

/-- What its second statement makes of a row that is somebody else's, or not there. -/
theorem owner_does (sound : w.Sound) (ordered : w.Ordered) (valid : validateUserID userID = .ok ())
    {answer : Except Err GoString} (done : World.perform (.selectOwner id) choice w = some (answer,w'))
    (troubled : choice.fails = true → faulty) :
    refused (Postgres.conflictError id userID answer) = .notFound ∧ (Foreign w id userID →
      Does faulty (.delete id userID) w.gallery .notFound w.gallery) ∨
    refused (Postgres.conflictError id userID answer) ≠ .notFound ∧ Does faulty (.delete id userID) w.gallery
      (refused (Postgres.conflictError id userID answer)) w.gallery := by
  have other : ∀ input, Op.delete id userID = .upload input → validateUserID input.userID ≠ .ok () := by simp
  rcases World.perform_split done with ⟨pick,effected⟩ | ⟨fails,⟨err,fault,failed⟩,-⟩
  · cases pick <;> simp only [World.effect,reduceCtorEq] at effected
    cases there : w.live id with
    | none =>
      rw [there] at effected
      cases effected
      refine .inl ⟨by simp [World.rowOr,Except.map,Postgres.conflictError,refused,Err.is],fun _ => ?_⟩
      exact Does.of_apply ordered other id (by simp [apply,valid,find_none there])
    | some r =>
      obtain ⟨thumbnails,found⟩ := find_live sound there
      obtain ⟨row,-⟩ := World.live_iff.mp there
      rw [there] at effected
      cases effected
      by_cases own : r.userID = userID
      · refine .inl ⟨by simp [World.rowOr,Except.map,Postgres.conflictError,own,refused,Err.is],fun foreign => ?_⟩
        obtain ⟨r',found',strange⟩ := foreign
        rw [row] at found'
        cases found'
        exact absurd own strange
      · have forbidden : refused (Postgres.conflictError id userID (.ok r.userID)) = .forbidden := by
          simp [Postgres.conflictError,own,refused,Err.is]
        have told : Except.map Row.userID (World.rowOr (some r)) = .ok r.userID := rfl
        rw [told,forbidden]
        refine .inr ⟨by simp,Does.of_apply ordered other id ?_⟩
        simp [apply,valid,found,own,Postgres.toAvatar]
  · cases failed
    have failed : refused (Postgres.conflictError id userID (.error err)) = .failed := by
      simp only [Postgres.conflictError,fault_noRows fault]
      exact refused_fault fault _ _
    rw [failed]
    exact .inr ⟨by simp,.lost (troubled fails)⟩

/-! ### The workers' statements -/

theorem change_same {g : Gallery} {f : Avatar → Avatar} (same : ∀ a ∈ g.avatars, a.id = id → f a = a) :
    g.change id f = g := by
  apply Gallery.ext
  · rw [change]
    conv_rhs => rw [← List.map_id g.avatars]
    apply List.map_congr_left
    intro a member
    split
    · next here => exact same a member here
    · rfl
  · rfl

theorem complete_does (sound : w.Sound) (ordered : w.Ordered) {thumbs : Json} {width height : Int64}
    (proper : w.Proper (.updateResult id thumbs width height)) {answer : Except Err Nat}
    (done : World.perform (.updateResult id thumbs width height) choice w = some (answer,w'))
    (troubled : choice.fails = true → faulty) : Does faulty (.complete id width height) w.gallery
      (reported (Postgres.processingResult id answer)) w'.gallery := by
  have other : ∀ input, Op.complete id width height = .upload input → validateUserID input.userID ≠ .ok () := by simp
  obtain ⟨r,found,rfl⟩ := proper
  obtain rfl := Table.find_key found
  have row := (sound.rows r.id r found).1
  have effects : ∀ {pick answer' w''}, World.effect (.updateResult r.id
      (Postgres.marshalThumbnails (thumbnailKeys r.userID r.id)) width height) pick w = some (answer',w'') →
      (∃ affected, answer' = .ok affected) ∧
        w.gallery.apply r.id w.now (.complete r.id width height) = (.done,w''.gallery) := by
    intro pick answer' w'' effected
    cases pick <;> simp only [World.effect,found,reduceCtorEq] at effected
    split at effected
    · next finished =>
      cases effected
      refine ⟨⟨0,rfl⟩,?_⟩
      rw [apply,change_same]
      intro a member here
      obtain ⟨x,inside,seen⟩ := List.mem_filterMap.mp member
      obtain ⟨-,-,thumbnails,rfl⟩ := picture_some seen
      obtain rfl := World.row_unique found inside here
      simp [completed,Avatar.isProcessed,Postgres.toAvatar,finished]
    · next unfinished =>
      cases effected
      refine ⟨⟨1,rfl⟩,?_⟩
      rw [World.gallery_completed row found width height unfinished,apply]
  rcases World.perform_split done with ⟨pick,effected⟩ | ⟨fails,⟨err,fault,failed⟩,missed | ⟨pick,answer',effected⟩⟩
  · obtain ⟨⟨affected,rfl⟩,applied⟩ := effects effected
    exact Does.of_apply ordered other r.id applied
  · cases failed
    rw [missed]
    exact .failing (.lost (troubled fails)) (refused_fault fault _ _)
  · cases failed
    have does := Does.cut (troubled fails) r.id w.now (admits_now ordered other r.id)
    rw [(effects effected).2] at does
    exact .failing does (refused_fault fault _ _)

theorem fail_does (sound : w.Sound) (ordered : w.Ordered) {answer : Except Err Unit}
    (done : World.perform (.updateStatus id .failed) choice w = some (answer,w'))
    (troubled : choice.fails = true → faulty) : Does faulty (.fail id) w.gallery
      (ended (Postgres.statusResult id answer)) w'.gallery := by
  have other : ∀ input, Op.fail id = .upload input → validateUserID input.userID ≠ .ok () := by simp
  have effects : ∀ {pick answer' w''}, World.effect (.updateStatus id .failed) pick w = some (answer',w'') →
      answer' = .ok () ∧ w.gallery.apply id w.now (.fail id) = (.done,w''.gallery) := by
    intro pick answer' w'' effected
    cases pick <;> simp only [World.effect,reduceCtorEq] at effected
    split at effected
    · next r found =>
      cases effected
      obtain rfl := Table.find_key found
      refine ⟨rfl,?_⟩
      rw [World.gallery_failed (sound.rows r.id r found).1 found,apply]
    · next absent =>
      cases effected
      refine ⟨rfl,?_⟩
      rw [apply,change_same]
      intro a member here
      obtain ⟨x,inside,seen⟩ := List.mem_filterMap.mp member
      obtain ⟨-,-,thumbnails,rfl⟩ := picture_some seen
      have there := Table.mem_iff_find.mp inside
      rw [show x.id = id from here,absent] at there
      contradiction
  rcases World.perform_split done with ⟨pick,effected⟩ | ⟨fails,⟨err,fault,failed⟩,missed | ⟨pick,answer',effected⟩⟩
  · obtain ⟨rfl,applied⟩ := effects effected
    exact Does.of_apply ordered other id applied
  · cases failed
    rw [missed]
    exact .failing (.lost (troubled fails)) (refused_fault fault _ _)
  · cases failed
    have does := Does.cut (troubled fails) id w.now (admits_now ordered other id)
    rw [(effects effected).2] at does
    exact .failing does (refused_fault fault _ _)

end Gallery

end GophProfile
