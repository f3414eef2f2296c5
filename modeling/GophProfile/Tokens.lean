import GophProfile.Outline

/-! Two things that at most one operation holds: a fresh id from its draw until the
upload is over, and the deletion of an avatar from its UPDATE on. -/
namespace GophProfile

open Domain Effect Transition

variable {P : Packages} {cfg : Config} {allowed : State P → Act → Prop}
variable {breakers : Dependency → BreakerState}

abbrev Reaches (P : Packages) (cfg : Config) (allowed : State P → Act → Prop)
    (breakers : Dependency → BreakerState) (s : State P) : Prop :=
  Reachable (system P cfg).step allowed (Pool.initial (World.initial breakers)) s

theorem Reaches.holds {s : State P} (reached : Reaches P cfg allowed breakers s) :
    s.world.Sound ∧ ∀ slot t, s.procs slot = some t → t.Sound s.world :=
  (ownership allowed).reachable (World.initial_sound breakers) reached

namespace Thread

/-- The upload that drew an id, until it has published or given up. -/
def uploading : Thread P → Option UUID
  | .uploadPut _ id => some id
  | .uploadCreate _ id => some id
  | .uploadRemove _ id _ => some id
  | _ => none

/-- The upload that drew an id, before its INSERT. -/
def inserting : Thread P → Option UUID
  | .uploadPut _ id => some id
  | .uploadCreate _ id => some id
  | _ => none

/-- The operation that has marked an avatar deleted. -/
def deleter : Thread P → Option UUID
  | .deleteIterate id _ _ _ => some id
  | .deletePublish id _ _ => some id
  | .deleteDone id _ (.ok ()) => some id
  | _ => none

/-- The same until its event is published. -/
def announcing : Thread P → Option UUID
  | .deleteIterate id _ _ _ => some id
  | .deletePublish id _ _ => some id
  | _ => none

/-- Which command a point belongs to. -/
inductive Kind where
  | ended | upload | delete | read | process | clean | reconcile
  deriving DecidableEq

def kind : Thread P → Kind
  | .done _ => .ended
  | .uploadID _ | .uploadPut _ _ | .uploadCreate _ _ | .uploadRemove _ _ _ | .uploadPublish _ => .upload
  | .currentSelect _ | .deleteUpdate _ _ | .deleteOwner _ _ | .deleteIterate _ _ _ _
  | .deletePublish _ _ _ | .deleteDone _ _ _ => .delete
  | .readSelect _ _ _ | .readCurrent _ _ | .readObject _ _ | .readOriginal _ _ => .read
  | .processReceive _ | .processSelect _ _ _ | .processDownload _ _ _ _ | .processIterate _ _ _ _
  | .processPut _ _ _ _ _ _ _ _ | .processUpdate _ _ _ _ | .processStatus _ _
  | .processSettle _ _ => .process
  | .cleanReceive | .cleanIterate _ | .cleanRemove _ _ _ _ | .cleanSettle _ _ => .clean
  | .reconcileSelect _ | .reconcileCount _ _ | .reconcilePublish _ _ => .reconcile

def replyKind : Reply → Kind
  | .uploaded _ => .upload
  | .deleted _ _ => .delete
  | .responded _ => .read
  | .processed _ _ => .process
  | .cleaned _ _ => .clean
  | .reconciled => .reconcile

/-- The next point of a command of this kind, or its reply. -/
def Stays (kind : Kind) (t : Thread P) : Prop :=
  t.kind = kind ∨ ∃ reply, t = .done reply ∧ replyKind reply = kind

theorem stays_afterOriginal (avatar : Avatar) (size : GoString) (result : Except Err Object) :
    Stays .read (afterOriginal cfg avatar size result : Thread P) := by
  unfold afterOriginal
  split <;> exact .inr ⟨_,rfl,rfl⟩

theorem stays_afterObject (avatar : Avatar) (size : GoString) (result : Except Err Object) :
    Stays .read (afterObject cfg avatar size result : Thread P) := by
  unfold afterObject
  split
  · exact .inr ⟨_,rfl,rfl⟩
  · split
    · split
      · exact stays_afterOriginal avatar size _
      · exact .inl rfl
    · exact .inr ⟨_,rfl,rfl⟩

theorem stays_serve (avatar : Avatar) (size ifNoneMatch : GoString) :
    Stays .read (serve cfg avatar size ifNoneMatch : Thread P) := by
  unfold serve
  split
  · exact .inr ⟨_,rfl,rfl⟩
  · split
    · exact stays_afterObject avatar size _
    · exact .inl rfl

theorem stays_startDelete (id : UUID) (userID : GoString) :
    Stays .delete (startDelete id userID : Thread P) := by
  unfold startDelete
  split <;> exact .inl rfl

theorem stays_nextThumbnail (event : AvatarUploadEvent) (id : UUID) (avatar : Avatar) (img : P.Image)
    (names : List GoString) (thumbnails : GoMap) :
    Stays .process (nextThumbnail event id avatar img names thumbnails) := by
  cases names with
  | nil => exact .inl rfl
  | cons name rest =>
    simp only [nextThumbnail]
    split
    · exact .inl rfl
    · split <;> exact .inl rfl

theorem stays_nextRemoval (event : AvatarDeleteEvent) (keys : List GoString) (errs : List Err) :
    Stays .clean (nextRemoval event keys errs : Thread P) := by
  cases keys <;> exact .inl rfl

theorem stays_nextRepublish (avatars : List Avatar) :
    Stays .reconcile (nextRepublish avatars : Thread P) := by
  cases avatars
  · exact .inr ⟨_,rfl,rfl⟩
  · exact .inl rfl

/-- A command goes through its own points only. -/
theorem kind_next {t : Thread P} {c : Call} {next : c.Answer → Thread P}
    (seen : t.view cfg = .call c next) (answer : c.Answer) : Stays t.kind (next answer) := by
  cases t <;> simp only [view,reduceCtorEq] at seen <;> cases seen
  case uploadID => simp only [afterID]; split; exacts [.inr ⟨_,rfl,rfl⟩,.inl rfl]
  case uploadPut => simp only [afterPut]; split; exacts [.inr ⟨_,rfl,rfl⟩,.inl rfl]
  case uploadCreate =>
    simp only [afterCreate]
    split
    · split; exacts [.inr ⟨_,rfl,rfl⟩,.inl rfl]
    · exact .inl rfl
  case uploadRemove => exact .inr ⟨_,rfl,rfl⟩
  case uploadPublish => exact .inr ⟨_,rfl,rfl⟩
  case currentSelect =>
    simp only [afterCurrent]
    split
    · exact .inr ⟨_,rfl,rfl⟩
    · exact stays_startDelete _ _
  case deleteUpdate =>
    simp only [afterUpdate]
    split
    · split <;> exact .inl rfl
    · split <;> exact .inl rfl
  case deleteOwner => exact .inl rfl
  case deleteIterate => exact .inl rfl
  case deletePublish => exact .inl rfl
  case readSelect =>
    simp only [afterSelect]
    split
    · exact .inr ⟨_,rfl,rfl⟩
    · exact stays_serve _ _ _
  case readCurrent =>
    simp only [afterReadCurrent]
    split
    · split <;> exact .inr ⟨_,rfl,rfl⟩
    · exact stays_serve _ _ _
  case readObject => exact stays_afterObject _ _ _
  case readOriginal => exact stays_afterOriginal _ _ _
  case processReceive => simp only [startProcess]; split <;> exact .inl rfl
  case processSelect =>
    simp only [afterProcessSelect]
    split
    · split <;> exact .inl rfl
    · split
      · exact .inl rfl
      · split <;> exact .inl rfl
  case processDownload =>
    simp only [afterDownload]
    split
    · exact .inl rfl
    · split <;> exact .inl rfl
  case processIterate => exact stays_nextThumbnail _ _ _ _ _ _
  case processPut =>
    simp only [afterThumbnail]
    split
    · exact .inl rfl
    · exact stays_nextThumbnail _ _ _ _ _ _
  case processUpdate => simp only [afterResult]; split <;> exact .inl rfl
  case processStatus => exact .inl rfl
  case processSettle => exact .inr ⟨_,rfl,rfl⟩
  case cleanReceive =>
    simp only [startClean]
    split
    · exact .inl rfl
    · split <;> exact .inl rfl
  case cleanIterate => exact stays_nextRemoval _ _ _
  case cleanRemove => simp only [afterRemoval]; split <;> exact stays_nextRemoval _ _ _
  case cleanSettle => exact .inr ⟨_,rfl,rfl⟩
  case reconcileSelect => simp only [afterPending]; split; exacts [.inr ⟨_,rfl,rfl⟩,.inl rfl]
  case reconcileCount => exact stays_nextRepublish _
  case reconcilePublish => exact stays_nextRepublish _

theorem kind_of_next {t : Thread P} {c : Call} {next : c.Answer → Thread P} {answer : c.Answer}
    {k : Kind} (seen : t.view cfg = .call c next) (here : (next answer).kind = k) (busy : k ≠ .ended) :
    t.kind = k := by
  rcases kind_next seen answer with same | ⟨reply,finished,_⟩
  · exact same.symm.trans here
  · rw [finished] at here
    exact absurd here.symm busy

/-- A reply to one kind of command comes from a point of that command. -/
theorem replyKind_of_next {t : Thread P} {c : Call} {next : c.Answer → Thread P} {answer : c.Answer}
    {reply : Reply} (seen : t.view cfg = .call c next) (finished : next answer = .done reply) :
    t.kind = replyKind reply := by
  rcases kind_next seen answer with same | ⟨reply',finished',kind⟩
  · rw [finished] at same
    cases t <;> contradiction
  · cases finished.symm.trans finished'
    exact kind.symm

theorem uploading_kind {t : Thread P} {id : UUID} (holds : t.uploading = some id) :
    t.kind = .upload := by
  cases t <;> simp only [uploading,reduceCtorEq] at holds <;> rfl

theorem inserting_uploading {t : Thread P} {id : UUID} (holds : t.inserting = some id) :
    t.uploading = some id := by
  cases t <;> simp only [inserting,reduceCtorEq] at holds <;> exact holds

theorem deleter_kind {t : Thread P} {id : UUID} (holds : t.deleter = some id) :
    t.kind = .delete := by
  cases t <;> simp only [deleter,reduceCtorEq] at holds <;> rfl

theorem announcing_deleter {t : Thread P} {id : UUID} (holds : t.announcing = some id) :
    t.deleter = some id := by
  cases t <;> simp only [announcing,reduceCtorEq] at holds <;> exact holds

theorem tokens_start (command : Command) :
    (start command : Thread P).uploading = none ∧ (start command : Thread P).deleter = none := by
  cases command with
  | upload input => simp only [start,startUpload]; split <;> exact ⟨rfl,rfl⟩
  | delete id userID => simp only [start,startDelete]; split <;> exact ⟨rfl,rfl⟩
  | deleteCurrent userID => simp only [start,startDeleteCurrent]; split <;> exact ⟨rfl,rfl⟩
  | get r =>
    simp only [start,startGet]
    split
    · exact ⟨rfl,rfl⟩
    · split <;> exact ⟨rfl,rfl⟩
  | getCurrent r =>
    simp only [start,startGetCurrent]
    split
    · exact ⟨rfl,rfl⟩
    · split <;> exact ⟨rfl,rfl⟩
  | handleUpload | handleDelete | reconcile => exact ⟨rfl,rfl⟩

theorem inserting_start (command : Command) : (start command : Thread P).inserting = none := by
  cases holds : (start command : Thread P).inserting with
  | none => rfl
  | some id => exact absurd (inserting_uploading holds) (by rw [(tokens_start command).1]; simp)

theorem announcing_start (command : Command) : (start command : Thread P).announcing = none := by
  cases holds : (start command : Thread P).announcing with
  | none => rfl
  | some id => exact absurd (announcing_deleter holds) (by rw [(tokens_start command).2]; simp)

/-! ### Which point makes which call -/

theorem call_insertAvatar {t : Thread P} {a : Avatar} {thumbs : Json}
    {next : (Call.insertAvatar a thumbs).Answer → Thread P}
    (seen : t.view cfg = .call (.insertAvatar a thumbs) next) :
    ∃ input id, t = .uploadCreate input id ∧ a = AvatarService.newAvatar input id := by
  cases t <;> simp only [view,View.call.injEq,reduceCtorEq,false_and] at seen
  case uploadCreate input id =>
    cases seen.1
    exact ⟨input,id,rfl,rfl⟩

theorem call_publishDelete {t : Thread P} {event : AvatarDeleteEvent}
    {next : (Call.publishDelete event).Answer → Thread P}
    (seen : t.view cfg = .call (.publishDelete event) next) :
    ∃ id userID keys, t = .deletePublish id userID keys ∧ event = AvatarService.deleteEvent id keys := by
  cases t <;> simp only [view,View.call.injEq,reduceCtorEq,false_and] at seen
  case deletePublish id userID keys =>
    cases seen.1
    exact ⟨id,userID,keys,rfl,rfl⟩

theorem call_putObject {t : Thread P} {key : GoString} {object : Object}
    {next : (Call.putObject key object).Answer → Thread P}
    (seen : t.view cfg = .call (.putObject key object) next) :
    (∃ input id, t = .uploadPut input id ∧ key = originalObjectKey input.userID id ∧
      object = originalObject input) ∨
    ∃ event id avatar img name rest thumbnails,
      t = .processPut event id avatar img name object.body rest thumbnails ∧
      key = thumbnailObjectKey avatar.userID avatar.id name := by
  cases t <;> simp only [view,View.call.injEq,reduceCtorEq,false_and] at seen
  case uploadPut input id =>
    cases seen.1
    exact .inl ⟨input,id,rfl,rfl,rfl⟩
  case processPut event id avatar img name buf rest thumbnails =>
    cases seen.1
    exact .inr ⟨event,id,avatar,img,name,rest,thumbnails,rfl,rfl⟩

/-! ### How the tokens move -/

variable {w w' : World} {choice : Choice}

theorem uploading_next {t : Thread P} {c : Call} {next : c.Answer → Thread P} {answer : c.Answer}
    (seen : t.view cfg = .call c next) (done : World.perform c choice w = some (answer,w'))
    {id : UUID} (holds : (next answer).uploading = some id) : t.uploading = some id ∨ id ∉ w.issued := by
  have upload := kind_of_next seen (uploading_kind holds) (by decide)
  cases t <;> simp only [kind,reduceCtorEq] at upload <;> simp only [view] at seen <;> cases seen
  case uploadID input =>
    simp only [afterID] at holds
    split at holds
    · contradiction
    · cases holds
      exact .inr (World.perform_newUUID done).1
  case uploadPut input drawn =>
    simp only [afterPut] at holds
    split at holds
    · contradiction
    · exact .inl holds
  case uploadCreate input drawn =>
    simp only [afterCreate] at holds
    split at holds
    · split at holds
      · contradiction
      · exact .inl holds
    · contradiction
  case uploadRemove => contradiction
  case uploadPublish => contradiction

/-- No point before the INSERT follows the INSERT. -/
theorem inserting_next {t : Thread P} {c : Call} {next : c.Answer → Thread P} {answer : c.Answer}
    (seen : t.view cfg = .call c next) (done : World.perform c choice w = some (answer,w'))
    {id : UUID} (holds : (next answer).inserting = some id) :
    (∀ a thumbs, c ≠ .insertAvatar a thumbs) ∧ (t.inserting = some id ∨ id ∉ w.issued) := by
  have upload := kind_of_next seen (uploading_kind (inserting_uploading holds)) (by decide)
  cases t <;> simp only [kind,reduceCtorEq] at upload <;> simp only [view] at seen <;> cases seen
  case uploadID input =>
    simp only [afterID] at holds
    split at holds
    · contradiction
    · cases holds
      exact ⟨by simp,.inr (World.perform_newUUID done).1⟩
  case uploadPut input drawn =>
    simp only [afterPut] at holds
    split at holds
    · contradiction
    · exact ⟨by simp,.inl holds⟩
  case uploadCreate input drawn =>
    simp only [afterCreate] at holds
    split at holds
    · split at holds <;> contradiction
    · contradiction
  case uploadRemove => contradiction
  case uploadPublish => contradiction

theorem deleter_startDelete (id : UUID) (userID : GoString) :
    (startDelete id userID : Thread P).deleter = none := by
  unfold startDelete
  split <;> rfl

/-- Only an UPDATE that found the row live starts a deletion. -/
theorem deleter_next {t : Thread P} {c : Call} {next : c.Answer → Thread P} {answer : c.Answer}
    (seen : t.view cfg = .call c next) (done : World.perform c choice w = some (answer,w'))
    {id : UUID} (holds : (next answer).deleter = some id) :
    t.deleter = some id ∨ w.live id ≠ none := by
  have delete := kind_of_next seen (deleter_kind holds) (by decide)
  cases t <;> simp only [kind,reduceCtorEq] at delete <;> simp only [view,reduceCtorEq] at seen <;>
    cases seen
  case currentSelect userID =>
    simp only [afterCurrent] at holds
    split at holds
    · contradiction
    · rw [deleter_startDelete] at holds
      contradiction
  case deleteUpdate wanted userID =>
    rcases answer with err | ⟨s3Key,thumbs⟩
    · simp only [afterUpdate] at holds
      split at holds <;> contradiction
    · obtain ⟨r,found,-⟩ := World.perform_updateDeleted done
      simp only [afterUpdate] at holds
      split at holds
      · contradiction
      · cases holds
        exact .inr (by rw [found]; simp)
  case deleteOwner => contradiction
  case deleteIterate => exact .inl holds
  case deletePublish => exact .inl holds

/-- Publishing ends the announcement. -/
theorem announcing_next {t : Thread P} {c : Call} {next : c.Answer → Thread P} {answer : c.Answer}
    (seen : t.view cfg = .call c next) (done : World.perform c choice w = some (answer,w'))
    {id : UUID} (holds : (next answer).announcing = some id) :
    (∀ event, c ≠ .publishDelete event) ∧ (t.announcing = some id ∨ w.live id ≠ none) := by
  have delete := kind_of_next seen (deleter_kind (announcing_deleter holds)) (by decide)
  cases t <;> simp only [kind,reduceCtorEq] at delete <;> simp only [view,reduceCtorEq] at seen <;>
    cases seen
  case currentSelect userID =>
    simp only [afterCurrent] at holds
    split at holds
    · contradiction
    · unfold startDelete at holds
      split at holds <;> contradiction
  case deleteUpdate wanted userID =>
    refine ⟨by simp,?_⟩
    have seen : (deleteUpdate wanted userID : Thread P).view cfg =
        .call (.updateDeleted wanted userID) (afterUpdate wanted userID) := rfl
    rcases deleter_next seen done (announcing_deleter holds) with held | live
    · contradiction
    · exact .inr live
  case deleteOwner => contradiction
  case deleteIterate => exact ⟨by simp,.inl holds⟩
  case deletePublish => contradiction

/-- The point before the INSERT is entered by a PUT that succeeded. -/
theorem uploadCreate_after {t : Thread P} {c : Call} {next : c.Answer → Thread P} {answer : c.Answer}
    {input : UploadInput} {id : UUID} (seen : t.view cfg = .call c next)
    (done : World.perform c choice w = some (answer,w'))
    (arrived : next answer = .uploadCreate input id) :
    t = .uploadPut input id ∧ w' = w.put (originalObjectKey input.userID id) (originalObject input) := by
  have upload := kind_of_next (k := .upload) seen (by rw [arrived]; rfl) (by decide)
  cases t <;> simp only [kind,reduceCtorEq] at upload <;> simp only [view] at seen <;> cases seen
  case uploadID =>
    simp only [afterID] at arrived
    split at arrived <;> cases arrived
  case uploadPut =>
    rcases answer with err | _
    · cases arrived
    · cases arrived
      obtain ⟨pick,-,effected⟩ := World.perform_effect done (by simp [World.failed])
      cases pick <;> simp only [World.effect,reduceCtorEq] at effected
      cases effected
      exact ⟨rfl,rfl⟩
  case uploadCreate =>
    simp only [afterCreate] at arrived
    split at arrived
    · split at arrived <;> cases arrived
    · cases arrived
  case uploadRemove => cases arrived
  case uploadPublish => cases arrived

theorem live_none {id : UUID} {userID : GoString} (has : w.HasDeleted id userID) :
    w.live id = none := by
  obtain ⟨r,found,-,deleted⟩ := has
  cases live : w.live id with
  | none => rfl
  | some r' =>
    obtain ⟨found',alive⟩ := World.live_iff.mp live
    obtain rfl := Option.some.inj (found.symm.trans found')
    exact absurd alive deleted

theorem live_of_deleter {t : Thread P} (sound : t.Sound w) {id : UUID}
    (holds : t.deleter = some id) : w.live id = none := by
  cases t with
  | deleteIterate => cases holds; exact live_none sound.1
  | deletePublish => cases holds; exact live_none sound.1
  | deleteDone id userID result =>
    rcases result with err | _
    · contradiction
    · cases holds; exact live_none sound
  | _ => contradiction

theorem issued_of_uploading {t : Thread P} (sound : t.Sound w) {id : UUID}
    (holds : t.uploading = some id) : id ∈ w.issued := by
  cases t with
  | uploadPut => cases holds; exact sound.2.2
  | uploadCreate => cases holds; exact sound.2.2
  | uploadRemove => cases holds; exact sound.2.2
  | _ => contradiction

end Thread

/-! ### In every reachable state -/

section Reachable

variable {s : State P} (reached : Reaches P cfg allowed breakers s)
include reached

theorem uploading_unique {i j : Nat} {t t' : Thread P} {id : UUID} (first : s.procs i = some t)
    (second : s.procs j = some t') (one : t.uploading = some id) (two : t'.uploading = some id) :
    i = j := by
  refine (ownership allowed).token_unique Thread.uploading (fun w id => id ∉ w.issued)
    (World.initial_sound breakers) (fun command => (Thread.tokens_start command).1) ?_ ?_ reached
    first second one two
  · intro w t sound id holds free
    exact free (Thread.issued_of_uploading sound holds)
  · intro w t c next choice answer w' _ _ seen done id holds
    exact Thread.uploading_next seen done holds

theorem deleter_unique {i j : Nat} {t t' : Thread P} {id : UUID} (first : s.procs i = some t)
    (second : s.procs j = some t') (one : t.deleter = some id) (two : t'.deleter = some id) :
    i = j := by
  refine (ownership allowed).token_unique Thread.deleter (fun w id => w.live id ≠ none)
    (World.initial_sound breakers) (fun command => (Thread.tokens_start command).2) ?_ ?_ reached
    first second one two
  · intro w t sound id holds free
    exact free (Thread.live_of_deleter sound holds)
  · intro w t c next choice answer w' _ _ seen done id holds
    exact Thread.deleter_next seen done holds

/-- Before its INSERT an upload's id has no row. -/
theorem inserting_absent {i : Nat} {t : Thread P} {id : UUID} (running : s.procs i = some t)
    (holds : t.inserting = some id) : s.world.avatars.find id = none := by
  have unspent := (ownership allowed).token_unspent Thread.inserting
    (fun w id => w.avatars.find id ≠ none) (World.initial_sound breakers) Thread.inserting_start
    (fun before => fun first second one two =>
      uploading_unique before first second (Thread.inserting_uploading one)
        (Thread.inserting_uploading two))
    ?acquired ?spends ?moves reached running holds
  · exact not_not.mp unspent
  case acquired =>
    intro w t c next choice answer w' world _ seen done id holds
    rcases (Thread.inserting_next seen done holds).2 with held | fresh
    · exact .inl held
    · right
      intro present
      obtain ⟨r,found⟩ := Option.ne_none_iff_exists'.mp present
      exact fresh (world.rows id r found).2
  case spends =>
    intro w t c next choice answer w' _ _ seen done id present
    have seen : t.view cfg = .call c next := seen
    have changed := World.perform_changed done
    by_cases before : w.avatars.find id = none
    · right
      obtain ⟨a,thumbs,rfl,rfl⟩ := changed.found_new before present
      obtain ⟨input,id,rfl,rfl⟩ := Thread.call_insertAvatar seen
      refine ⟨rfl,?_⟩
      intro again
      exact (Thread.inserting_next seen done again).1 _ _ rfl
    · exact .inl before
  case moves =>
    intro event w w' moved id present
    rw [World.environment_avatars moved] at present
    exact present

/-- Before its event is out, a deletion has not been announced by anybody. -/
theorem announcing_unsent {i : Nat} {t : Thread P} {id : UUID} (running : s.procs i = some t)
    (holds : t.announcing = some id) : ∀ event ∈ s.world.sentDeletes, event.avatarID ≠ id.string := by
  have unspent := (ownership allowed).token_unspent Thread.announcing
    (fun w id => ∃ event ∈ w.sentDeletes, event.avatarID = id.string) (World.initial_sound breakers)
    Thread.announcing_start
    (fun before => fun first second one two =>
      deleter_unique before first second (Thread.announcing_deleter one)
        (Thread.announcing_deleter two))
    ?acquired ?spends ?moves reached running holds
  · intro event member same
    exact unspent ⟨event,member,same⟩
  case acquired =>
    intro w t c next choice answer w' world _ seen done id holds
    rcases (Thread.announcing_next seen done holds).2 with held | live
    · exact .inl held
    · right
      rintro ⟨event,member,same⟩
      obtain ⟨id',userID,text,has,-⟩ := world.sentDeletes event member
      obtain rfl := UUID.string_injective (same.symm.trans text)
      exact live (Thread.live_none has)
  case spends =>
    rintro w t c next choice answer w' _ _ seen done id ⟨event,member,same⟩
    have seen : t.view cfg = .call c next := seen
    rcases (World.perform_changed done).sentDelete_new member with old | rfl
    · exact .inl ⟨event,old,same⟩
    · right
      obtain ⟨id',userID,keys,rfl,rfl⟩ := Thread.call_publishDelete seen
      obtain rfl := UUID.string_injective same
      refine ⟨rfl,?_⟩
      intro again
      exact (Thread.announcing_next seen done again).1 _ rfl
  case moves =>
    rintro event w w' moved id ⟨sent,member,same⟩
    rw [World.environment_sentDeletes moved] at member
    exact ⟨sent,member,same⟩

end Reachable

end GophProfile
