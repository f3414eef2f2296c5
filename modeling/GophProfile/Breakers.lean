import GophProfile.Server
import GophProfile.Ownership

/-! Which requests can be counted against a dependency. While the dependencies are healthy,
only two kinds are: an upload by a user whose id has two dots in a row, since the storage
layer refuses its key inside the breaker, and a request whose time is up while a guarded
call waits for its answer. -/
namespace GophProfile

open Domain Effect Transition

/-! ### Errors that do not count -/

theorem Err.is_errorf {format : String} {args : List GoString} {err target : Err}
    (sentinel : ∀ f a e, target ≠ .errorf f a e) :
    (Err.errorf format args err).is target = err.is target := by
  have different : (Err.errorf format args err == target) = false := by
    rw [beq_eq_false_iff_ne]
    exact (sentinel _ _ _).symm
  simp only [Err.is,different,Bool.false_or]

/-- The breaker of a dependency, as the server's `main` makes it. -/
def breakerOf : Dependency → Breaker
  | .postgres => ⟨.postgres,some Postgres.isDataError⟩
  | .s3 => ⟨.s3,none⟩
  | .rabbitmq => ⟨.rabbitmq,none⟩

def Tolerated (d : Dependency) (err : Err) : Prop := (breakerOf d).classify (.error err) ≠ .failure

theorem classify_errorf (d : Dependency) (format : String) (args : List GoString) (err : Err) :
    (breakerOf d).classify (.error (.errorf format args err)) =
      (breakerOf d).classify (.error err) := by
  have through : ∀ target : Err, (∀ f a e, target ≠ .errorf f a e) →
      (Err.errorf format args err).is target = err.is target := fun _ => Err.is_errorf
  have data : Postgres.isDataError (.errorf format args err) = Postgres.isDataError err := rfl
  have excluded : Breaker.isExcluded (.error (.errorf format args err)) =
      Breaker.isExcluded (.error err) := through .canceled (by simp)
  have successful : (breakerOf d).isSuccessful (.error (.errorf format args err)) =
      (breakerOf d).isSuccessful (.error err) := by
    cases d <;>
      simp only [breakerOf,Breaker.isSuccessful,data,through .avatarNotFound (by simp),
        through .objectNotFound (by simp),through .forbidden (by simp),
        through .invalidUserID (by simp)]
  unfold Breaker.classify
  rw [excluded,successful]

/-- Wrapping an error changes nothing about its counting. -/
theorem Tolerated.errorf {d : Dependency} {err : Err} (tolerated : Tolerated d err) (format : String)
    (args : List GoString) : Tolerated d (.errorf format args err) := by
  unfold Tolerated
  rw [classify_errorf]
  exact tolerated

theorem tolerated_sentinel (d : Dependency) (err : Err)
    (member : err ∈ [Err.canceled,.avatarNotFound,.objectNotFound,.forbidden]) : Tolerated d err := by
  unfold Tolerated
  revert err
  cases d <;> decide

theorem tolerated_dataError {err : Err} (rejected : Postgres.isDataError err = true) :
    Tolerated .postgres err := by
  unfold Tolerated Breaker.classify
  split
  · simp
  · simp [breakerOf,Breaker.isSuccessful,rejected]

/-! ### What each program makes of healthy answers -/

/-- A row with what is asked of it, no row, or an error that does not count. -/
def RowOr {α : Type} (good : α → Prop) : Except Err α → Prop
  | .ok a => good a
  | .error err => err = .noRows ∨ Tolerated .postgres err

/-- What the programs can rely on while the dependencies are healthy. -/
def Answered : (c : Call) → c.Answer → Prop
  | .allow _, answer => answer = .ok ()
  | .insertAvatar _ _, .error err => Tolerated .postgres err
  | .selectByID _, answer => RowOr (fun r => r.readable = true) answer
  | .selectCurrent _, answer => RowOr (fun r => r.readable = true) answer
  | .selectByUser _, .ok rows => ∀ r ∈ rows, r.readable = true
  | .selectByUser _, .error err => Tolerated .postgres err
  | .updateDeleted _ _, answer => RowOr (fun keys => thumbnailsReadable keys.2 = true) answer
  | .selectOwner _, answer => RowOr (fun _ => True) answer
  | .putObject _ _, .error err => Tolerated .s3 err
  | .getObject _, .error err => S3.isNotFound err = true ∨ Tolerated .s3 err
  | .removeObject _, .error err => Tolerated .s3 err
  | .publishUpload _, .ok confirmation =>
    confirmation = .acked ∨ ∃ err, confirmation = .waitFailed err ∧ Tolerated .rabbitmq err
  | .publishUpload _, .error err => Tolerated .rabbitmq err
  | _, _ => True

/-- Nothing is counted, and every row stays readable. -/
def Uncounted : Call → Prop
  | .report _ outcome => outcome ≠ .failure
  | c => c.keepsReadable = true

abbrev Keeps {α : Type} (post : α → Prop) (p : Prog α) : Prop := Meets Answered Uncounted post p

def Good {α : Type} (good : α → Prop) : Except Err α → Prop
  | .ok a => good a
  | .error _ => True

def GoodOr {α : Type} (d : Dependency) (good : α → Prop) : Except Err α → Prop
  | .ok a => good a
  | .error err => Tolerated d err

theorem Good.of_ok {α : Type} {good : α → Prop} {result : Except Err α}
    (all : ∀ a, result = .ok a → good a) : Good good result := by
  cases result with
  | ok a => exact all a rfl
  | error err => trivial

/-- A guarded call counts nothing when its errors are all tolerated. -/
theorem keeps_call {α : Type} {good : α → Prop} {d : Dependency} {fn : Prog (Except Err α)}
    (inner : Keeps (GoodOr d good) fn) : Keeps (Good good) (Breaker.call (some (breakerOf d)) fn) := by
  have executed : Keeps (Good good) ((breakerOf d).execute fn) := by
    refine ⟨rfl,fun answer admitted => ?_⟩
    obtain rfl : answer = .ok () := admitted
    refine inner.bind fun result tolerable => ⟨?_,fun _ _ => ?_⟩
    · cases result with
      | ok a =>
        have counted : (breakerOf d).classify (.ok ()) = .success := by cases d <;> rfl
        simp only [Except.map,Uncounted,counted]
        decide
      | error err => exact tolerable
    · cases result with
      | ok a => exact tolerable
      | error err => trivial
  refine executed.bind fun result _ => ?_
  cases result with
  | ok a => assumption
  | error err =>
    simp only
    split
    · exact ⟨rfl,fun _ _ => trivial⟩
    · split
      · exact ⟨rfl,fun _ _ => trivial⟩
      · trivial

/-- One call and what its answer is turned into. -/
theorem keeps_result {β : Type} {c : Call} {result : c.Answer → β} {post : β → Prop}
    (uncounted : Uncounted c) (good : ∀ answer, Answered c answer → post (result answer)) :
    Keeps post (do return result (← ask c)) := ⟨uncounted,good⟩

theorem keeps_ask {β : Type} {c : Call} {f : c.Answer → Prog β} {post : β → Prop} (uncounted : Uncounted c)
    (good : ∀ answer, Answered c answer → Keeps post (f answer)) : Keeps post (ask c >>= f) :=
  ⟨uncounted,good⟩

/-- One operation and what is done after it. -/
theorem keeps_then {α β : Type} {good : α → Prop} {p : Prog (Except Err α)} {f : Except Err α → Prog β}
    {post : β → Prop} (first : Keeps (Good good) p)
    (failed : ∀ err, Keeps post (f (.error err))) (done : ∀ a, good a → Keeps post (f (.ok a))) :
    Keeps post (p >>= f) := by
  refine first.bind fun result known => ?_
  cases result with
  | ok a => exact done a known
  | error err => exact failed err

/-! ### The database -/

/-- The storage takes every key of the avatar. -/
structure Fetchable (a : Avatar) : Prop where
  s3Key : keyAccepted a.s3Key = true
  thumbnails : ∀ entry ∈ a.thumbnailS3Keys, keyAccepted entry.2 = true

theorem scanAvatar_readable {r : Row} (readable : r.readable = true) :
    ∃ a, Postgres.scanAvatar (.ok r) = .ok a ∧ Fetchable a := by
  simp only [Row.readable,Bool.and_eq_true] at readable
  obtain ⟨key,thumbs⟩ := readable
  unfold thumbnailsReadable at thumbs
  split at thumbs
  · contradiction
  · next m decoded =>
    refine ⟨Postgres.toAvatar r m,?_,key,List.all_eq_true.mp thumbs⟩
    simp only [Postgres.scanAvatar,decoded]

theorem scanAvatar_answered {row : Except Err Row} (answered : RowOr (fun r => r.readable = true) row) :
    GoodOr .postgres Fetchable (Postgres.scanAvatar row) := by
  cases row with
  | ok r =>
    obtain ⟨a,scanned,fetchable⟩ := scanAvatar_readable answered
    rw [scanned]
    exact fetchable
  | error err =>
    simp only [Postgres.scanAvatar]
    split
    · exact tolerated_sentinel _ _ (by simp)
    · next present =>
      rcases answered with rfl | tolerated
      · exact absurd rfl present
      · exact tolerated

theorem scanAvatars_readable {rows : List Row} (readable : ∀ r ∈ rows, r.readable = true) :
    ∃ avatars, Postgres.scanAvatars rows = .ok avatars := by
  induction rows with
  | nil => exact ⟨[],rfl⟩
  | cons r rest ih =>
    obtain ⟨a,scanned,_⟩ := scanAvatar_readable (readable r List.mem_cons_self)
    obtain ⟨avatars,others⟩ := ih fun r inside => readable r (List.mem_cons_of_mem _ inside)
    exact ⟨a :: avatars,by simp only [Postgres.scanAvatars,scanned,others]⟩

section Repository
variable (id : UUID) (userID : GoString)

theorem keeps_create {a : Avatar} (sound : (Call.insertAvatar a
    (Postgres.marshalThumbnails a.thumbnailS3Keys)).keepsReadable = true) :
    Keeps (Good fun _ => True) (guardedService.repo.create a) := by
  refine keeps_call (d := .postgres) (keeps_result sound fun answer answered => ?_)
  cases answer with
  | ok times => trivial
  | error err => exact Tolerated.errorf answered _ _

theorem keeps_getByID : Keeps (Good Fetchable) (guardedService.repo.getByID id) := by
  refine keeps_call (d := .postgres) (keeps_result rfl fun answer answered => ?_)
  have scanned := scanAvatar_answered answered
  simp only [Postgres.getByIDResult]
  cases read : Postgres.scanAvatar answer <;> rw [read] at scanned
  · exact Tolerated.errorf scanned _ _
  · exact scanned

theorem keeps_getCurrent : Keeps (Good Fetchable) (guardedService.repo.getCurrentByUserID userID) := by
  refine keeps_call (d := .postgres) (keeps_result rfl fun answer answered => ?_)
  have scanned := scanAvatar_answered answered
  simp only [Postgres.getCurrentResult]
  cases read : Postgres.scanAvatar answer <;> rw [read] at scanned
  · exact Tolerated.errorf scanned _ _
  · exact scanned

theorem keeps_listByUserID : Keeps (Good fun _ => True) (guardedService.repo.listByUserID userID) := by
  refine keeps_call (d := .postgres) (keeps_result rfl fun answer answered => ?_)
  cases answer with
  | ok rows =>
    obtain ⟨avatars,scanned⟩ := scanAvatars_readable answered
    simp only [Postgres.listResult,scanned]
    trivial
  | error err => exact Tolerated.errorf answered _ _

theorem conflictError_tolerated {answer : Except Err GoString} (answered : RowOr (fun _ => True) answer) :
    Tolerated .postgres (Postgres.conflictError id userID answer) := by
  have notFound := tolerated_sentinel .postgres .avatarNotFound (by simp)
  have forbidden := tolerated_sentinel .postgres .forbidden (by simp)
  cases answer with
  | ok owner =>
    simp only [Postgres.conflictError]
    split
    · exact forbidden.errorf _ _
    · exact notFound.errorf _ _
  | error err =>
    simp only [Postgres.conflictError]
    split
    · exact notFound.errorf _ _
    · next present =>
      rcases answered with rfl | tolerated
      · exact absurd rfl present
      · exact tolerated.errorf _ _

theorem keeps_softDelete : Keeps (Good fun _ => True) (guardedService.repo.softDelete id userID) := by
  refine keeps_call (d := .postgres) (keeps_ask rfl fun answer answered => ?_)
  rcases answer with err | ⟨s3Key,thumbs⟩
  · simp only
    split
    · have conflict : Keeps (Tolerated .postgres) (Postgres.deleteConflict id userID) :=
        keeps_result rfl fun owner known => conflictError_tolerated id userID known
      exact conflict.bind fun err tolerated => tolerated
    · next present =>
      rcases answered with rfl | tolerated
      · exact absurd rfl present
      · exact Tolerated.errorf tolerated _ _
  · have readable : thumbnailsReadable thumbs = true := answered
    unfold thumbnailsReadable at readable
    cases decoded : Postgres.unmarshalThumbnails thumbs with
    | error err =>
      rw [decoded] at readable
      contradiction
    | ok keys =>
      simp only [decoded]
      exact keeps_result rfl fun _ _ => trivial

end Repository

/-! ### The storage and the broker -/

theorem validateKey_accepted {key : GoString} (accepted : keyAccepted key = true) :
    S3.validateKey key = .ok () := by
  unfold keyAccepted at accepted
  cases checked : S3.validateKey key with
  | ok done => rfl
  | error err =>
    rw [checked] at accepted
    contradiction

section Storage
variable {key : GoString} (accepted : keyAccepted key = true)
include accepted

theorem keeps_put (object : Object) : Keeps (Good fun _ => True) (guardedService.storage.put key object) := by
  refine keeps_call (d := .s3) ?_
  unfold S3.put
  rw [validateKey_accepted accepted]
  refine keeps_result rfl fun answer answered => ?_
  cases answer with
  | ok done => trivial
  | error err => exact Tolerated.errorf answered _ _

theorem keeps_get : Keeps (Good fun _ => True) (guardedService.storage.get key) := by
  refine keeps_call (d := .s3) ?_
  unfold S3.get
  rw [validateKey_accepted accepted]
  refine keeps_result rfl fun answer answered => ?_
  cases answer with
  | ok object => trivial
  | error err =>
    simp only [S3.getResult]
    split
    · exact (tolerated_sentinel .s3 .objectNotFound (by simp)).errorf _ _
    · next present => exact (answered.resolve_left present).errorf _ _

theorem keeps_delete : Keeps (Good fun _ => True) (guardedService.storage.delete key) := by
  refine keeps_call (d := .s3) ?_
  unfold S3.delete
  rw [validateKey_accepted accepted]
  refine keeps_result rfl fun answer answered => ?_
  cases answer with
  | ok done => trivial
  | error err =>
    simp only [S3.removeResult]
    split
    · trivial
    · exact Tolerated.errorf answered _ _

end Storage

theorem keeps_publishUpload (event : AvatarUploadEvent) :
    Keeps (Good fun _ => True) (guardedService.publisher.publishUpload event) := by
  refine keeps_call (d := .rabbitmq) (keeps_result rfl fun answer answered => ?_)
  cases answer with
  | ok confirmation =>
    rcases answered with rfl | ⟨err,rfl,tolerated⟩
    · trivial
    · exact tolerated.errorf _ _
  | error err => exact Tolerated.errorf answered _ _

theorem keeps_publishDelete (event : AvatarDeleteEvent) :
    Keeps (Good fun _ => True) (guardedService.publisher.publishDelete event) :=
  keeps_result rfl fun _ _ => .of_ok fun _ _ => trivial

/-! ### The service -/

theorem keeps_removeOrphan {key : GoString} (accepted : keyAccepted key = true) :
    Keeps (fun _ => True) (guardedService.removeOrphan key) :=
  (keeps_delete accepted).bind fun _ _ => trivial

/-- The keys of a user without two dots in a row are taken by the storage. -/
theorem keyAccepted_original {userID : GoString} (id : UUID) (valid : validateUserID userID = .ok ())
    (plain : contains userID (lit "..") = false) : keyAccepted (originalObjectKey userID id) = true := by
  unfold keyAccepted
  rw [(validateKey_original id valid).mpr plain]
  rfl

theorem keeps_upload (input : UploadInput) (plain : validateUserID input.userID = .ok () →
    contains input.userID (lit "..") = false) :
    Keeps (Good fun _ => True) (guardedService.upload input) := by
  unfold AvatarService.upload
  split
  · trivial
  · next valid =>
    refine keeps_ask rfl fun id _ => ?_
    have accepted := keyAccepted_original id valid (plain valid)
    refine keeps_then (keeps_put accepted _) (fun _ => trivial) fun _ _ => ?_
    refine keeps_then (keeps_create ?_) (fun err => ?_) fun avatar _ => ?_
    · simp only [Call.keepsReadable,AvatarService.newAvatar,accepted]
      decide
    · exact (keeps_removeOrphan accepted).bind fun _ _ => trivial
    · exact (keeps_publishUpload _).bind fun _ _ => trivial

theorem contentKey_accepted {a : Avatar} (fetchable : Fetchable a) (size : GoString) :
    keyAccepted (AvatarService.contentKey a size) = true := by
  unfold AvatarService.contentKey
  split
  · split
    · next key listed => exact fetchable.thumbnails _ (mem_of_lookup listed)
    · exact fetchable.s3Key
  · exact fetchable.s3Key

theorem keeps_openContent {a : Avatar} (fetchable : Fetchable a) (size : GoString) :
    Keeps (fun _ => True) (guardedService.openContent a size) := by
  refine (keeps_get (contentKey_accepted fetchable size)).bind fun first _ => ?_
  unfold AvatarService.openOr
  split
  · trivial
  · split
    · exact keeps_then (keeps_get fetchable.s3Key) (fun _ => trivial) fun _ _ => trivial
    · trivial

theorem keeps_currentMetadata (userID : GoString) :
    Keeps (Good Fetchable) (guardedService.currentMetadata userID) := by
  unfold AvatarService.currentMetadata
  split
  · trivial
  · exact keeps_getCurrent userID

theorem keeps_list (userID : GoString) : Keeps (Good fun _ => True) (guardedService.list userID) := by
  unfold AvatarService.list
  split
  · trivial
  · exact keeps_listByUserID userID

theorem keeps_deleteAvatar (id : UUID) (userID : GoString) :
    Keeps (Good fun _ => True) (guardedService.delete id userID) := by
  unfold AvatarService.delete
  split
  · trivial
  · refine keeps_then (keeps_softDelete id userID) (fun _ => trivial) fun keys _ => ?_
    exact (keeps_publishDelete _).bind fun _ _ => trivial

theorem keeps_deleteCurrent (userID : GoString) :
    Keeps (Good fun _ => True) (guardedService.deleteCurrent userID) :=
  keeps_then (keeps_currentMetadata userID) (fun _ => trivial)
    fun avatar _ => keeps_deleteAvatar avatar.id userID

/-! ### The handlers -/

section Handlers
variable (P : Packages) (cfg : Config)

theorem keeps_serveContent {a : Avatar} (fetchable : Fetchable a) (size ifNoneMatch : GoString) :
    Keeps (fun _ => True) (Rest.serveContent P cfg guardedService a size ifNoneMatch) := by
  unfold Rest.serveContent
  simp only
  split
  · trivial
  · refine (keeps_openContent fetchable size).bind fun result _ => ?_
    cases result <;> trivial

/-- A handler keeps the contract, whatever is in the request, unless it stores an image
for a user whose id has two dots in a row. -/
theorem Request.keeps (r : Request)
    (plain : ∀ userID, r.uploader = some userID → contains userID (lit "..") = false) :
    Keeps (fun _ => True) (r.handle P cfg) := by
  have uploads : ∀ {userID : GoString} {image : FormImage},
      (∀ user, (if (validateUserID userID).isOk = true then some userID else none) = some user →
        contains user (lit "..") = false) →
      Keeps (Good fun _ => True)
        (guardedService.upload ⟨userID,image.name,image.mime,image.size,image.body⟩) := by
    intro userID image plain
    refine keeps_upload _ fun valid => plain userID ?_
    have valid : validateUserID userID = .ok () := valid
    rw [valid]
    rfl
  cases r with
  | upload userID image =>
    simp only [handle,Rest.upload]
    split
    · trivial
    · split
      · trivial
      · exact keeps_then (uploads plain) (fun _ => trivial) fun _ _ => trivial
  | webUpload form =>
    obtain ⟨parsed,userID,image⟩ := form
    simp only [handle,Web.upload]
    split
    · trivial
    · split
      · trivial
      · split
        · trivial
        · exact keeps_then (uploads plain) (fun _ => trivial) fun _ _ => trivial
  | get r =>
    simp only [handle,Rest.get]
    split
    · trivial
    · split
      · trivial
      · exact keeps_then (keeps_getByID _) (fun _ => trivial)
          fun a fetchable => keeps_serveContent P cfg fetchable _ _
  | getCurrent r =>
    simp only [handle,Rest.getCurrent]
    split
    · trivial
    · refine keeps_then (keeps_currentMetadata _) (fun err => ?_)
        fun a fetchable => keeps_serveContent P cfg fetchable _ _
      simp only
      split <;> trivial
  | metadata avatarID =>
    simp only [handle,Rest.metadata]
    split
    · trivial
    · exact keeps_then (keeps_getByID _) (fun _ => trivial) fun _ _ => trivial
  | list userID => exact keeps_then (keeps_list userID) (fun _ => trivial) fun _ _ => trivial
  | delete userID avatarID =>
    simp only [handle,Rest.delete]
    split
    · trivial
    · split
      · trivial
      · exact keeps_then (keeps_deleteAvatar _ userID) (fun _ => trivial) fun _ _ => trivial
  | deleteCurrent userID pathUser =>
    simp only [handle,Rest.deleteCurrent]
    split
    · trivial
    · split
      · trivial
      · exact keeps_then (keeps_deleteCurrent userID) (fun _ => trivial) fun _ _ => trivial
  | webGalleryLookup userID => trivial
  | webGallery userID => exact keeps_then (keeps_list userID) (fun _ => trivial) fun _ _ => trivial
  | webDelete userID avatarID =>
    simp only [handle,Web.delete]
    split
    · trivial
    · split
      · trivial
      · exact keeps_then (keeps_deleteAvatar _ userID) (fun _ => trivial) fun _ _ => trivial

end Handlers

/-! ### The world behind the calls -/

/-- Every row is readable, and no breaker is open. -/
structure World.Calm (w : World) : Prop where
  rows : ∀ id r, w.avatars.find id = some r → r.readable = true
  closed : ∀ d, (w.breakers d).opened = false

namespace World.Calm

variable {w w' : World} (calm : w.Calm)
include calm

theorem live {id : UUID} {r : Row} (found : w.live id = some r) : r.readable = true :=
  calm.rows id r (live_iff.mp found).1

theorem liveOf {userID : GoString} {r : Row} (member : r ∈ w.liveOf userID) : r.readable = true := by
  rw [World.liveOf,List.mem_insertionSort] at member
  exact calm.rows r.id r (Table.mem_iff_find.mp (List.mem_filter.mp member).1)

theorem write {r : Row} (readable : r.readable = true) : (w.write r).Calm where
  closed := calm.closed
  rows := by
    intro id old found
    rw [find_write] at found
    split at found
    · obtain ⟨_,_,rfl⟩ := Option.map_eq_some_iff.mp found
      exact readable
    · exact calm.rows id old found

/-- An uncounted call leaves everything calm. -/
theorem changed {c : Call} (uncounted : Uncounted c) (changed : Changed w c w') : w'.Calm := by
  cases changed with
  | inserted a thumbs avatars done =>
    refine ⟨?_,calm.closed⟩
    intro id r found
    rw [find_inserted done] at found
    split at found
    · obtain rfl := Option.some.inj found
      exact uncounted
    · exact calm.rows id r found
  | deleted r found => exact calm.write (calm.rows r.id r found)
  | completed r thumbs width height found =>
    have old := calm.rows r.id r found
    have new : thumbnailsReadable thumbs = true := uncounted
    simp only [Row.readable,Bool.and_eq_true] at old
    exact calm.write (by simp [Row.readable,Row.completed,old.1,new])
  | status r status found => exact calm.write (calm.rows r.id r found)
  | reported d outcome =>
    refine ⟨calm.rows,?_⟩
    intro other
    by_cases here : other = d
    · subst here
      have counted : outcome ≠ .failure := uncounted
      simp only [Function.update_self]
      cases outcome with
      | failure => contradiction
      | success => exact calm.closed other
      | excluded => exact calm.closed other
    · simpa [Function.update_of_ne here] using calm.closed other
  | _ => exact ⟨calm.rows,calm.closed⟩

/-- A working dependency answers as the programs rely on. -/
theorem effect_answered {c : Call} {pick : Pick} {answer : c.Answer}
    (healthy : (Choice.ok pick).healthyFor c = true) (timely : (c.guarded && (Choice.ok pick).late) = false)
    (done : effect c pick w = some (answer,w')) :
    Answered c answer := by
  cases c
  case allow d =>
    cases pick <;> simp only [effect,reduceCtorEq] at done
    rw [calm.closed d] at done
    cases done
    rfl
  case insertAvatar a thumbs =>
    cases pick <;> simp only [effect,reduceCtorEq] at done
    split at done
    · cases done
      exact tolerated_dataError (by decide)
    · cases done
      trivial
  case selectByID id =>
    cases pick <;> simp only [effect,reduceCtorEq] at done
    cases found : w.live id <;> simp only [found,rowOr] at done <;> cases done
    · exact .inl rfl
    · exact calm.live found
  case selectCurrent userID =>
    cases pick <;> simp only [effect,reduceCtorEq] at done
    cases first : (w.liveOf userID).head? <;> simp only [first,rowOr] at done <;> cases done
    · exact .inl rfl
    · exact calm.liveOf (List.mem_of_head? first)
  case selectByUser userID =>
    cases pick <;> simp only [effect,reduceCtorEq] at done
    cases done
    exact fun r member => calm.liveOf member
  case updateDeleted id userID =>
    cases pick <;> simp only [effect,reduceCtorEq] at done
    split at done
    · next r found =>
      have readable := calm.live found
      simp only [Row.readable,Bool.and_eq_true] at readable
      split at done <;> cases done
      · exact readable.2
      · exact .inl rfl
    · cases done
      exact .inl rfl
  case selectOwner id =>
    cases pick <;> simp only [effect,reduceCtorEq] at done
    cases found : w.live id <;> simp only [found,rowOr] at done <;> cases done
    · exact .inl rfl
    · trivial
  case putObject key object =>
    cases pick <;> simp only [effect,reduceCtorEq] at done
    cases done
    trivial
  case getObject key =>
    cases pick <;> simp only [effect,reduceCtorEq] at done
    split at done <;> cases done
    · trivial
    · exact .inl (by decide)
  case removeObject key =>
    cases pick <;> simp only [effect,reduceCtorEq] at done
    cases done
    trivial
  case publishUpload event =>
    cases pick <;> simp only [effect,reduceCtorEq] at done
    split at done
    · cases done
    · next confirmation queued acceptable =>
      cases done
      cases confirmation with
      | waitFailed err =>
        have gone : err = .canceled := by
          simp_all [Choice.healthyFor,Choice.late,Call.guarded]
        exact .inr ⟨err,rfl,gone ▸ tolerated_sentinel .rabbitmq .canceled (by simp)⟩
      | acked => exact .inl rfl
      | missing => contradiction
      | nacked => contradiction
  all_goals trivial

omit calm

/-- An error that a healthy dependency answers with in time does not count. -/
theorem failed_answered {c : Call} {took : Bool} {pick : Pick} {err : Err} {answer : c.Answer}
    (healthy : (Choice.fail took pick err).healthyFor c = true)
    (timely : (c.guarded && (Choice.fail took pick err).late) = false) (refused : failed c err = some answer) :
    Answered c answer := by
  have excused : c.guarded = true → err = .canceled ∨ c.onPostgres = true ∧ Postgres.isDataError err = true := by
    intro through
    cases err <;> simp_all [Choice.healthyFor,Choice.late]
  have everywhere : err = .canceled → ∀ d, Tolerated d err := by
    rintro rfl d
    exact tolerated_sentinel d _ (by simp)
  have postgres : c.guarded = true → Tolerated .postgres err := fun through =>
    (excused through).elim (fun gone => everywhere gone .postgres) fun data => tolerated_dataError data.2
  have others : c.guarded = true → c.onPostgres = false → ∀ d, Tolerated d err := by
    intro through elsewhere
    refine everywhere ((excused through).resolve_right ?_)
    simp [elsewhere]
  cases c <;> cases refused
  case insertAvatar | selectByUser => exact postgres rfl
  case selectByID | selectCurrent | updateDeleted | selectOwner => exact .inr (postgres rfl)
  case putObject | removeObject => exact others rfl rfl .s3
  case getObject => exact .inr (others rfl rfl .s3)
  case publishUpload => exact others rfl rfl .rabbitmq
  all_goals trivial

end World.Calm

/-! ### Runs of the server -/

variable {P : Packages} {cfg : Config}

theorem uncounted_of_outside {c : Call} (sound : c.keepsReadable = true) (shared : c.onBreaker = false) :
    Uncounted c := by
  cases c <;> first | exact sound | contradiction

/-- An upload for a user whose id has two dots in a row. -/
def Request.dotted (r : Request) : Bool := r.uploader.any fun userID => contains userID (lit "..")

theorem Request.dotted_iff {r : Request} :
    r.dotted = false ↔ ∀ userID, r.uploader = some userID → contains userID (lit "..") = false := by
  unfold dotted
  cases r.uploader <;> simp

/-- Healthy answers in time, and no dotted upload. -/
structure Server.Civil (s : Server) (a : Action Request Choice Outside) : Prop where
  healthy : s.healthy a = true
  timely : s.timely a = true
  plain : ∀ slot r, a = .start slot r → r.dotted = false

def calmness (P : Packages) (cfg : Config) : (server P cfg).Contract Server.Civil where
  invariant := World.Calm
  answers := Answered
  allowed := Uncounted
  view := rfl
  started := fun _ slot r civil => r.keeps P cfg (Request.dotted_iff.mp (civil.plain slot r rfl))
  answered := by
    intro s slot choice c next answer w civil running calm uncounted done
    have done : World.perform c choice s.world = some (answer,w) := done
    have healthy : choice.healthyFor c = true := by
      simpa only [Server.healthy,running] using civil.healthy
    have timely : (c.guarded && choice.late) = false := by
      simpa only [Server.timely,running,Bool.not_eq_true'] using civil.timely
    refine ⟨?_,calm.changed uncounted (World.perform_changed done)⟩
    cases choice with
    | ok pick => exact calm.effect_answered healthy timely done
    | fail took pick err =>
      simp only [World.perform] at done
      split at done
      · obtain ⟨refusal,refused,rest⟩ := Option.bind_eq_some_iff.mp done
        have same : answer = refusal := by
          cases took with
          | true =>
            obtain ⟨_,_,equal⟩ := Option.map_eq_some_iff.mp rest
            exact (Prod.mk.inj equal).1.symm
          | false => exact (Prod.mk.inj (Option.some.inj rest)).1.symm
        rw [same]
        exact World.Calm.failed_answered healthy timely refused
      · contradiction
  moved := by
    intro event w w' calm moved
    cases event with
    | event e =>
      cases e with
      | tick =>
        obtain rfl := Option.some.inj moved
        exact ⟨calm.rows,calm.closed⟩
      | redeliverUpload event | redeliverDelete event =>
        simp only [server,Outside.happen,World.environment] at moved
        split at moved
        · obtain rfl := Option.some.inj moved
          exact ⟨calm.rows,calm.closed⟩
        · contradiction
    | call c choice =>
      simp only [server,Outside.happen] at moved
      split at moved
      · next permitted =>
        simp only [Bool.and_eq_true,Bool.not_eq_true'] at permitted
        obtain ⟨⟨answer,after⟩,done,rfl⟩ := Option.map_eq_some_iff.mp moved
        exact calm.changed (uncounted_of_outside permitted.1 permitted.2) (World.perform_changed done)
      · contradiction

/-- From empty stores and closed breakers, with any thresholds. -/
abbrev Server.Run (P : Packages) (cfg : Config) (thresholds : Dependency → Nat)
    (trace : List (Server × Action Request Choice Outside × Server)) (s : Server) : Prop :=
  Path (server P cfg).step (Pool.initial (World.initial fun d => .fresh (thresholds d))) trace s

/-- No call has been counted as a failure, and every breaker is closed. -/
def Server.Unbroken (s : Server) : Prop :=
  (∀ entry ∈ s.log, ∀ d, entry.2.1 ≠ .report d .failure) ∧ ∀ d, (s.world.breakers d).opened = false

/-- While the dependencies are healthy, no request opens a breaker or is counted as a
failure, in runs without an upload for a user whose id has two dots in a row and in which no
guarded call outlasts the deadline of its request. -/
theorem breakers_stay_closed {thresholds : Dependency → Nat}
    {trace : List (Server × Action Request Choice Outside × Server)} {s : Server}
    (run : Server.Run P cfg thresholds trace s)
    (healthy : ∀ entry ∈ trace, entry.1.healthy entry.2.1 = true)
    (timely : ∀ entry ∈ trace, entry.1.timely entry.2.1 = true)
    (plain : ∀ entry ∈ trace, ∀ slot r, entry.2.1 = .start slot r → r.dotted = false) :
    s.Unbroken := by
  have civil : ∀ entry ∈ trace, entry.1.Civil entry.2.1 :=
    fun entry member => ⟨healthy entry member,timely entry member,plain entry member⟩
  have start : (World.initial fun d => .fresh (thresholds d)).Calm :=
    ⟨fun id r found => by simp [World.initial] at found,fun _ => rfl⟩
  have holds := (calmness P cfg).reachable start (Path.reachable run civil)
  refine ⟨?_,holds.world.closed⟩
  intro entry member d reported
  have uncounted : Uncounted entry.2.1 := holds.log entry member
  rw [reported] at uncounted
  exact uncounted rfl

/-! ### The condition is exact -/

/-- A key that the storage layer refuses counts against the storage. -/
theorem refused_put_counted {W : Type} {performs : (c : Call) → W → c.Answer → W → Prop} {w w' : W}
    {calls : List ((c : Call) × c.Answer)} {key : GoString} {object : Object} {result : Except Err Unit}
    (refused : S3.validateKey key ≠ .ok ())
    (run : Runs performs (guardedService.storage.put key object) w calls result w')
    (admitted : ∀ answer, ⟨.allow .s3,answer⟩ ∈ calls → answer = Except.ok ()) :
    ∃ call ∈ calls, call.1 = .report .s3 .failure := by
  cases checked : S3.validateKey key with
  | ok done => exact absurd checked refused
  | error err =>
    obtain ⟨format,args,rfl⟩ := validateKey_error checked
    have body : S3.put key object = .done (.error (.new format args)) := by
      unfold S3.put
      rw [checked]
      rfl
    unfold S3.Storage.put at run
    rw [body] at run
    cases run with
    | call _ rest =>
      obtain rfl := admitted _ List.mem_cons_self
      cases rest with
      | call _ after =>
        exact ⟨_,List.mem_cons_of_mem _ List.mem_cons_self,rfl⟩

/-- Every complete run of an upload for such a user is counted as a failure of the
storage when its breaker lets it through. -/
theorem dotted_upload_counted {W : Type} {performs : (c : Call) → W → c.Answer → W → Prop} {w w' : W}
    {calls : List ((c : Call) × c.Answer)} {r : Request} {response : Response} (dotted : r.dotted = true)
    (run : Runs performs (r.handle P cfg) w calls response w')
    (admitted : ∀ answer, ⟨.allow .s3,answer⟩ ∈ calls → answer = Except.ok ()) :
    ∃ call ∈ calls, call.1 = .report .s3 .failure := by
  have uploads : ∀ {input : UploadInput} {f : Except Err Avatar → Prog Response},
      validateUserID input.userID = .ok () → contains input.userID (lit "..") = true →
      Runs performs (guardedService.upload input >>= f) w calls response w' →
      ∃ call ∈ calls, call.1 = .report .s3 .failure := by
    intro input f valid dots run
    obtain ⟨result,middle,first,second,one,_,rfl⟩ := run.bind_split
    unfold AvatarService.upload at one
    rw [valid] at one
    cases one with
    | @call _ _ _ _ _ id _ _ _ rest =>
      have rest : Runs performs (guardedService.storage.put (originalObjectKey input.userID id)
        ⟨input.body,input.mimeType⟩ >>= _) _ _ _ _ := rest
      obtain ⟨stored,_,put,others,running,_,rfl⟩ := rest.bind_split
      have refused : S3.validateKey (originalObjectKey input.userID id) ≠ .ok () := by
        rw [Ne,validateKey_original id valid,dots]
        decide
      obtain ⟨call,member,counted⟩ := refused_put_counted refused running fun answer inside =>
        admitted answer (by simp [inside])
      exact ⟨call,by simp [member],counted⟩
  simp only [Request.dotted,Option.any_eq_true] at dotted
  obtain ⟨userID,stores,dots⟩ := dotted
  have checked : ∀ {user : GoString}, (if (validateUserID user).isOk = true then some user else none) =
      some userID → validateUserID userID = .ok () ∧ user = userID := by
    intro user stores
    split at stores
    · next valid =>
      obtain rfl := Option.some.inj stores
      refine ⟨?_,rfl⟩
      cases given : validateUserID user with
      | ok done => rfl
      | error err =>
        rw [given] at valid
        contradiction
    · contradiction
  cases r with
  | upload user image =>
    cases image with
    | error err => contradiction
    | ok image =>
      obtain ⟨valid,rfl⟩ := checked stores
      simp only [Request.handle,Rest.upload,valid] at run
      exact uploads valid dots run
  | webUpload form =>
    obtain ⟨_ | _,user,_ | image⟩ := form
    · contradiction
    · contradiction
    · contradiction
    · obtain ⟨valid,rfl⟩ := checked stores
      simp only [Request.handle,Web.upload,valid] at run
      exact uploads valid dots run
  | _ => contradiction

/-- The status a finished request was answered with. -/
def Server.status (s : Server) (slot : Nat) : Option Nat :=
  match s.procs slot with
  | some (.done response) => some response.status
  | _ => none

/-! ### Runs -/

namespace Schedule

def image : FormImage := ⟨lit "a.png",69,lit "image/png",Packages.samplePicture⟩

/-- Five ids that differ. -/
def ids : List UUID :=
  [⟨List.replicate 36 48,rfl,by decide⟩,⟨List.replicate 36 49,rfl,by decide⟩,
    ⟨List.replicate 36 50,rfl,by decide⟩,⟨List.replicate 36 51,rfl,by decide⟩,
    ⟨List.replicate 36 52,rfl,by decide⟩]

def request (slot : Nat) (r : Request) (picks : List Pick) : List (Action Request Choice Outside) :=
  .start slot r :: picks.map fun pick => .advance slot (.ok pick)

/-- The answers are healthy, and every guarded one comes in time. -/
abbrev Prompt (s : Server) (a : Action Request Choice Outside) : Prop := s.healthy a = true ∧ s.timely a = true

/-- A schedule of the server that goes through under a condition on its steps. -/
theorem serve (allowed : Server → Action Request Choice Outside → Prop) [∀ s a, Decidable (allowed s a)]
    (actions : List (Action Request Choice Outside)) (test : Server → Bool)
    (met : (execute (guarded allowed (server Packages.sample .standard).step)
      (Pool.initial (World.initial fun _ => .fresh 5)) actions).any test = true) :
    ∃ trace s, Server.Run Packages.sample .standard (fun _ => 5) trace s ∧
      (∀ entry ∈ trace, allowed entry.1 entry.2.1) ∧ test s = true ∧
      trace.map (fun entry => entry.2.1) = actions :=
  exists_path (server Packages.sample .standard).step allowed _ actions test met

end Schedule

/-- An upload, and a request for the uploaded picture. -/
theorem breakers_stay_closed_visit : ∃ trace s,
    Server.Run Packages.sample .standard (fun _ => 5) trace s ∧ s.status 0 = some 201 ∧
      s.status 1 = some 200 ∧ s.Unbroken := by
  obtain ⟨trace,s,run,prompt,served,same⟩ := Schedule.serve Schedule.Prompt
    (Schedule.request 0 (.upload (lit "ann") (.ok Schedule.image))
        [.id .nil,.none,.none,.none,.none,.none,.none,.none,.confirmation .acked true,.none] ++
      Schedule.request 1 (.get ⟨UUID.nil.string,[],[],[],[]⟩) [.none,.none,.none,.none,.none,.none])
    (fun s => Server.status s 0 == some 201 && Server.status s 1 == some 200) (by decide +kernel)
  simp only [Bool.and_eq_true,beq_iff_eq] at served
  refine ⟨trace,s,run,served.1,served.2,breakers_stay_closed run (fun entry member => (prompt entry member).1)
    (fun entry member => (prompt entry member).2) ?_⟩
  intro entry member slot r starts
  have listed : entry.2.1 ∈ trace.map fun entry => entry.2.1 := List.mem_map_of_mem member
  rw [same,starts] at listed
  simp only [Schedule.request,List.map_cons,List.map_nil,List.cons_append,List.nil_append,
    List.mem_cons,List.not_mem_nil,Action.start.injEq,reduceCtorEq,false_or,or_false] at listed
  rcases listed with ⟨-,rfl⟩ | ⟨-,rfl⟩
  · decide
  · decide

/-- Five uploads by one client open the breaker of the storage. -/
theorem breaker_opened_by_client :
    ¬∀ trace s, Server.Run Packages.sample .standard (fun _ => 5) trace s →
      (∀ entry ∈ trace, entry.1.healthy entry.2.1 = true) →
      (∀ entry ∈ trace, entry.1.timely entry.2.1 = true) → s.Unbroken := by
  intro all
  obtain ⟨trace,s,run,prompt,opened,-⟩ := Schedule.serve Schedule.Prompt
    ((Schedule.ids.zipIdx).flatMap fun entry => Schedule.request entry.2
      (.upload (lit "a..b") (.ok Schedule.image)) [.id entry.1,.none,.none])
    (fun s => (s.world.breakers .s3).opened) (by decide +kernel)
  have closed := (all trace s run (fun entry member => (prompt entry member).1)
    fun entry member => (prompt entry member).2).2 .s3
  rw [closed] at opened
  contradiction

/-- An upload whose time is up by the time its body has been read and stored. -/
def Schedule.slowUpload (slot : Nat) (id : UUID) : List (Action Request Choice Outside) :=
  [.start slot (.upload (lit "ann") (.ok Schedule.image)),.advance slot (.ok (.id id)),.advance slot (.ok .none),
    .advance slot (.fail false .none .deadlineExceeded),.advance slot (.ok .none)]

/-- So do five uploads that are sent too slowly. -/
theorem breaker_opened_by_deadline :
    ¬∀ trace s, Server.Run Packages.sample .standard (fun _ => 5) trace s →
      (∀ entry ∈ trace, entry.1.healthy entry.2.1 = true) →
      (∀ entry ∈ trace, ∀ slot r, entry.2.1 = .start slot r → r.dotted = false) → s.Unbroken := by
  intro all
  obtain ⟨trace,s,run,healthy,opened,same⟩ := Schedule.serve (fun s a => Server.healthy s a = true)
    ((Schedule.ids.zipIdx).flatMap fun entry => Schedule.slowUpload entry.2 entry.1)
    (fun s => (s.world.breakers .s3).opened) (by decide +kernel)
  have closed := (all trace s run healthy ?_).2 .s3
  · rw [closed] at opened
    contradiction
  · intro entry member slot r starts
    have listed : entry.2.1 ∈ trace.map fun entry => entry.2.1 := List.mem_map_of_mem member
    rw [same,starts] at listed
    obtain ⟨pair,-,inside⟩ := List.mem_flatMap.mp listed
    simp only [Schedule.slowUpload,List.mem_cons,List.not_mem_nil,Action.start.injEq,reduceCtorEq,or_false] at inside
    obtain ⟨-,rfl⟩ := inside
    decide

end GophProfile
