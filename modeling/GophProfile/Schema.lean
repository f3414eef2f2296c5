import GophProfile.Library.Guard
import GophProfile.Faults
import GophProfile.Outline
import GophProfile.Wire

/-! The columns of the table `avatars` as the migration declares them. The database takes a value
only if its column can hold it; here is what the code makes sure of before it sends one. -/
namespace GophProfile.Schema

open Domain Effect Form

/-! ### The types of the columns -/

/-- The text types hold UTF-8 without the character 0. -/
def isText (s : GoString) : Bool := (runes s).all fun r => r.valid && r.bytes != [0]

/-- `VARCHAR(n)` counts characters; a longer value is not cut, unless with blanks. -/
def varchar (n : Nat) (s : GoString) : Bool := isText s && decide ((runes s).length ≤ n)

/-- `INT` -/
def int4 (n : Int64) : Bool := decide (-2147483648 ≤ n.toInt) && decide (n.toInt ≤ 2147483647)

mutual
/-- `JSONB`: the names and the strings of the value are text. -/
def jsonb : Json → Bool
  | .str s => isText s
  | .arr items => jsonbItems items
  | .obj fields => jsonbFields fields
  | .null => true
  | .bool _ => true
  | .num _ => true

def jsonbItems : List Json → Bool
  | [] => true
  | v :: rest => jsonb v && jsonbItems rest

def jsonbFields : List (GoString × Json) → Bool
  | [] => true
  | (name,v) :: rest => isText name && jsonb v && jsonbFields rest
end

def uploadStatusText : UploadStatus → GoString
  | .uploading => lit "uploading"
  | .uploaded => lit "uploaded"
  | .failed => lit "failed"

def processingStatusText : ProcessingStatus → GoString
  | .pending => lit "pending"
  | .processing => lit "processing"
  | .completed => lit "completed"
  | .failed => lit "failed"

/-- The columns of a row that can refuse a value. -/
def fits (r : Row) : Bool :=
  varchar 255 r.userID && varchar 255 r.fileName && varchar 100 r.mimeType && r.width.all int4 &&
    r.height.all int4 && varchar 500 r.s3Key && jsonb r.thumbnailS3Keys &&
    varchar 50 (uploadStatusText r.uploadStatus) && varchar 50 (processingStatusText r.processingStatus)

/-- Whether the parameters of a statement are values of their types. -/
def accepts : Call → Bool
  | .insertAvatar a thumbs => fits (Row.ofInsert a thumbs 0)
  | .selectCurrent userID => isText userID
  | .selectByUser userID => isText userID
  | .updateDeleted _ userID => isText userID
  | .updateResult _ thumbs width height => jsonb thumbs && int4 width && int4 height
  | .updateStatus _ status => varchar 50 (processingStatusText status)
  | _ => true

/-! ### Values that fit -/

theorem varchar_iff {n : Nat} {s : GoString} :
    varchar n s = true ↔ isText s = true ∧ (runes s).length ≤ n := by
  rw [varchar,Bool.and_eq_true,decide_eq_true_eq]

/-- A name that the form has cleaned fits its column. -/
theorem varchar_storable {name : GoString} (storable : Storable name) : varchar 255 name = true := by
  obtain ⟨chars,rfl,printable,short⟩ := storable
  rw [varchar_iff,isText,runes_encode,List.length_map,List.all_map,List.all_eq_true]
  refine ⟨fun c member => ?_,short⟩
  have nonzero : String.utf8EncodeChar c ≠ [0] := by
    intro zero
    have plain := runeOf_isControl c
    rw [printable c member] at plain
    simp [Rune.isControl,runeOf,zero] at plain
  simpa [runeOf] using nonzero

/-- One byte a character, and none of them 0. -/
def Plain (s : GoString) : Prop := ∀ b ∈ s, b ≠ 0 ∧ b < 0x80

instance (s : GoString) : Decidable (Plain s) :=
  decidable_of_iff (s.all fun b => b != 0 && decide (b < 0x80)) (by simp [Plain])

theorem runes_plain {s : GoString} (plain : Plain s) : runes s = s.map fun b => ⟨[b],true⟩ := by
  induction s with
  | nil => rfl
  | cons b s ih =>
    rw [Plain,List.forall_mem_cons] at plain
    have single : runeWidth (b :: s) = some 1 := by
      simp [runeWidth,plain.1.2]
    rw [List.map_cons,← ih plain.2,runes,runesAfter,single]
    rfl

theorem varchar_plain {n : Nat} {s : GoString} (plain : Plain s) (short : s.length ≤ n) :
    varchar n s = true := by
  rw [varchar_iff,isText,runes_plain plain,List.length_map,List.all_map,List.all_eq_true]
  refine ⟨fun b member => ?_,short⟩
  simpa using (plain b member).1

theorem Plain.append {s t : GoString} (first : Plain s) (second : Plain t) : Plain (s ++ t) := by
  intro b member
  exact (List.mem_append.mp member).elim (first b) (second b)

theorem plain_userID {userID : GoString} (valid : validateUserID userID = .ok ()) : Plain userID := by
  intro b member
  have byte := (validateUserID_ok valid).2.2 b member
  refine ⟨?_,Wire.userIDByte_ascii byte⟩
  rintro rfl
  contradiction

theorem plain_uuid (id : UUID) : Plain id.string := by
  intro b member
  have digit := List.all_eq_true.mp id.digits b member
  simp only [isHexOrDash,Bool.or_eq_true,Bool.and_eq_true,decide_eq_true_eq,beq_iff_eq,
    UInt8.le_iff_toNat_le,← UInt8.toNat_inj] at digit
  rw [ascii_iff,Ne,← UInt8.toNat_inj]
  simp at digit ⊢
  omega

/-- The head that the keys of an avatar share. -/
theorem plain_folder {userID : GoString} (valid : validateUserID userID = .ok ()) (id : UUID) :
    Plain (lit "avatars/" ++ userID ++ lit "/" ++ id.string) := by
  have folder : Plain (lit "avatars/") := by decide
  have slash : Plain (lit "/") := by decide
  exact ((folder.append (plain_userID valid)).append slash).append (plain_uuid id)

theorem plain_originalKey {userID : GoString} (valid : validateUserID userID = .ok ()) (id : UUID) :
    Plain (originalObjectKey userID id) := by
  have name : Plain (lit "/original") := by decide
  exact (plain_folder valid id).append name

theorem plain_thumbnailKey {userID size : GoString} (valid : validateUserID userID = .ok ()) (id : UUID)
    (plain : Plain size) : Plain (thumbnailObjectKey userID id size) := by
  have slash : Plain (lit "/") := by decide
  have format : Plain (lit ".jpg") := by decide
  exact (((plain_folder valid id).append slash).append plain).append format

theorem plain_small : Plain thumbnailSmall := by decide

theorem plain_large : Plain thumbnailLarge := by decide

/-- A user id that is accepted is a value of every text type. -/
theorem isText_userID {userID : GoString} (valid : validateUserID userID = .ok ()) : isText userID = true :=
  (varchar_iff.mp (varchar_plain (plain_userID valid) (validateUserID_ok valid).2.1)).1

theorem jsonb_strings (m : GoMap) : jsonbFields (m.map fun entry => (entry.1,.str entry.2)) =
    m.all fun entry => isText entry.1 && isText entry.2 := by
  induction m with
  | nil => rfl
  | cons entry m ih => simp [jsonbFields,jsonb,ih]

theorem jsonb_marshal (m : GoMap) : jsonb (Postgres.marshalThumbnails m) =
    m.all fun entry => isText entry.1 && isText entry.2 := by
  rw [Postgres.marshalThumbnails,jsonb,jsonb_strings]
  exact (Postgres.sortedByKey_perm m).all_eq

theorem jsonb_thumbnailKeys {userID : GoString} (valid : validateUserID userID = .ok ()) (id : UUID) :
    jsonb (Postgres.marshalThumbnails (thumbnailKeys userID id)) = true := by
  rw [jsonb_marshal,List.all_eq_true]
  have key {size : GoString} (plain : Plain size) : isText (thumbnailObjectKey userID id size) = true :=
    (varchar_iff.mp (varchar_plain (plain_thumbnailKey valid id plain) le_rfl)).1
  intro entry member
  simp only [thumbnailKeys,List.mem_cons,List.not_mem_nil,or_false] at member
  rcases member with rfl | rfl
  · rw [key plain_small]
    rfl
  · rw [key plain_large]
    rfl

/-! ### What a running operation holds -/

variable {P : Packages} {cfg : Config}

/-- The file of an upload, as the handlers hand it to the service. -/
def FromForm (F : Parsers) (input : UploadInput) : Prop :=
  ∃ (r : Incoming) (allowedMIME : List GoString) (image : FormImage),
    readImage F r allowedMIME = .ok image ∧
      input = ⟨input.userID,image.name,image.mime,image.size,image.body⟩

def FileFits (input : UploadInput) : Prop :=
  varchar 255 input.fileName = true ∧ varchar 100 input.mimeType = true

theorem FromForm.fits {F : Parsers} {input : UploadInput}
    (detected : ∀ content, varchar 100 (F.detectContentType content) = true) (form : FromForm F input) :
    FileFits input := by
  obtain ⟨r,allowedMIME,image,read,same⟩ := form
  rw [same]
  unfold readImage at read
  split at read
  · cases read
  · split at read
    · cases read
    · cases read
      exact ⟨varchar_storable (storable_cleanFileName _),detected _⟩

/-- The picture's sides are numbers of the columns `width` and `height`. -/
def SidesFit (img : P.Image) : Prop :=
  int4 (ImageProc.dimensions P img).1 = true ∧ int4 (ImageProc.dimensions P img).2 = true

/-- The image packages report no other sides. -/
def Measured (P : Packages) : Prop := ∀ data img, P.decodeImage data = .ok img →
  ImageProc.Side (ImageProc.dimensions P img).1 ∧ ImageProc.Side (ImageProc.dimensions P img).2

theorem int4_side {n : Int64} (side : ImageProc.Side n) : int4 n = true := by
  obtain ⟨low,high⟩ := side
  rw [int4,Bool.and_eq_true,decide_eq_true_eq,decide_eq_true_eq]
  omega

theorem Measured.fits (measured : Measured P) {data : GoString} {maxPixels : Int64} {img : P.Image}
    (decoded : ImageProc.decode P data maxPixels = .ok img) : SidesFit img := by
  have sides := measured data img (ImageProc.decode_ok P decoded)
  exact ⟨int4_side sides.1,int4_side sides.2⟩

/-- What a point of an operation has made sure of for the statements ahead of it. -/
def Fitting : Thread P → Prop
  | .uploadID input => FileFits input
  | .uploadPut input _ => FileFits input
  | .uploadCreate input _ => FileFits input
  | .currentSelect userID => validateUserID userID = .ok ()
  | .deleteUpdate _ userID => validateUserID userID = .ok ()
  | .readCurrent r _ => validateUserID r.userID = .ok ()
  | .processIterate _ _ _ img => SidesFit img
  | .processPut _ _ _ img _ _ _ _ => SidesFit img
  | .processUpdate _ _ img _ => SidesFit img
  | _ => True

section Answers

variable {avatar : Avatar} {size : GoString} {event : AvatarUploadEvent} {id : UUID} {img : P.Image}

theorem fitting_afterOriginal (result : Except Err Object) :
    Fitting (Thread.afterOriginal cfg avatar size result : Thread P) := by
  unfold Thread.afterOriginal
  split <;> trivial

theorem fitting_afterObject (result : Except Err Object) :
    Fitting (Thread.afterObject cfg avatar size result : Thread P) := by
  unfold Thread.afterObject
  split
  · trivial
  · split
    · split
      · exact fitting_afterOriginal _
      · trivial
    · trivial

theorem fitting_serve (ifNoneMatch : GoString) :
    Fitting (Thread.serve cfg avatar size ifNoneMatch : Thread P) := by
  unfold Thread.serve
  split
  · trivial
  · split
    · exact fitting_afterObject _
    · trivial

theorem fitting_startDelete (userID : GoString) : Fitting (Thread.startDelete id userID : Thread P) := by
  unfold Thread.startDelete
  split
  · trivial
  · next valid => exact valid

theorem fitting_nextThumbnail (sides : SidesFit img) (names : List GoString) (thumbnails : GoMap) :
    Fitting (Thread.nextThumbnail event id avatar img names thumbnails) := by
  cases names with
  | nil => exact sides
  | cons name rest =>
    simp only [Thread.nextThumbnail]
    split
    · trivial
    · split
      · trivial
      · exact sides

theorem fitting_nextRemoval (event : AvatarDeleteEvent) (keys : List GoString) (errs : List Err) :
    Fitting (Thread.nextRemoval event keys errs : Thread P) := by
  cases keys <;> trivial

theorem fitting_nextRepublish (avatars : List Avatar) : Fitting (Thread.nextRepublish avatars : Thread P) := by
  cases avatars <;> trivial

end Answers

theorem fitting_start {command : Command} (fine : ∀ input, command = .upload input → FileFits input) :
    Fitting (Thread.start command : Thread P) := by
  cases command with
  | upload input =>
    simp only [Thread.start,Thread.startUpload]
    split
    · trivial
    · exact fine input rfl
  | delete id userID => exact fitting_startDelete userID
  | deleteCurrent userID =>
    simp only [Thread.start,Thread.startDeleteCurrent]
    split
    · trivial
    · next valid => exact valid
  | get r =>
    simp only [Thread.start,Thread.startGet]
    split
    · trivial
    · split <;> trivial
  | getCurrent r =>
    simp only [Thread.start,Thread.startGetCurrent]
    split
    · trivial
    · split
      · trivial
      · next valid => exact valid
  | handleUpload => trivial
  | handleDelete => trivial
  | reconcile => trivial

/-- Whatever a call answers, the operation holds what fits at its next point too. -/
theorem Fitting.answered {t : Thread P} (measured : Measured P) (fitting : Fitting t) {c : Call}
    {next : c.Answer → Thread P} (seen : t.view cfg = .call c next) (answer : c.Answer) :
    Fitting (next answer) := by
  cases t <;> simp only [Thread.view,reduceCtorEq] at seen
  case uploadID input =>
    cases seen
    simp only [Thread.afterID]
    split
    · trivial
    · exact fitting
  case uploadPut input id =>
    cases seen
    simp only [Thread.afterPut]
    split
    · trivial
    · exact fitting
  case uploadCreate input id =>
    cases seen
    simp only [Thread.afterCreate]
    split
    · split <;> trivial
    · trivial
  case currentSelect userID =>
    cases seen
    simp only [Thread.afterCurrent]
    split
    · trivial
    · exact fitting_startDelete userID
  case deleteUpdate id userID =>
    cases seen
    rcases answer with err | ⟨s3Key,thumbs⟩
    · simp only [Thread.afterUpdate]
      split <;> trivial
    · simp only [Thread.afterUpdate]
      split <;> trivial
  case readSelect r id size =>
    cases seen
    simp only [Thread.afterSelect]
    split
    · trivial
    · exact fitting_serve _
  case readCurrent r size =>
    cases seen
    simp only [Thread.afterReadCurrent]
    split
    · split <;> trivial
    · exact fitting_serve _
  case readObject avatar size => cases seen; exact fitting_afterObject _
  case readOriginal avatar size => cases seen; exact fitting_afterOriginal _
  case processReceive maxPixels =>
    cases seen
    simp only [Thread.startProcess]
    split <;> trivial
  case processSelect maxPixels event id =>
    cases seen
    simp only [Thread.afterProcessSelect]
    split
    · split <;> trivial
    · split
      · trivial
      · split <;> trivial
  case processDownload maxPixels event id avatar =>
    cases seen
    simp only [Thread.afterDownload]
    split
    · trivial
    · split
      · trivial
      · next decoded => exact measured.fits decoded
  case processIterate event id avatar img => cases seen; exact fitting_nextThumbnail fitting _ _
  case processPut event id avatar img name buf rest thumbnails =>
    cases seen
    simp only [Thread.afterThumbnail]
    split
    · trivial
    · exact fitting_nextThumbnail fitting _ _
  case processUpdate event id img thumbnails =>
    cases seen
    simp only [Thread.afterResult]
    split <;> trivial
  case cleanReceive =>
    cases seen
    simp only [Thread.startClean]
    split
    · trivial
    · split <;> trivial
  case cleanIterate event => cases seen; exact fitting_nextRemoval _ _ _
  case cleanRemove event key rest errs =>
    cases seen
    simp only [Thread.afterRemoval]
    split <;> exact fitting_nextRemoval _ _ _
  case reconcileSelect age =>
    cases seen
    simp only [Thread.afterPending]
    split <;> trivial
  case reconcileCount age stuck => cases seen; exact fitting_nextRepublish _
  case reconcilePublish avatar rest => cases seen; exact fitting_nextRepublish _
  all_goals
    cases seen
    trivial

/-! ### The statements -/

variable {w w' : World}

theorem fits_iff {r : Row} : fits r = true ↔
    varchar 255 r.userID = true ∧ varchar 255 r.fileName = true ∧ varchar 100 r.mimeType = true ∧
      r.width.all int4 = true ∧ r.height.all int4 = true ∧ varchar 500 r.s3Key = true ∧
      jsonb r.thumbnailS3Keys = true ∧ varchar 50 (uploadStatusText r.uploadStatus) = true ∧
      varchar 50 (processingStatusText r.processingStatus) = true := by
  simp only [fits,Bool.and_eq_true,and_assoc]

theorem status_fits (status : ProcessingStatus) : varchar 50 (processingStatusText status) = true := by
  cases status <;> exact varchar_plain (by decide) (by decide)

theorem upload_fits (status : UploadStatus) : varchar 50 (uploadStatusText status) = true := by
  cases status <;> exact varchar_plain (by decide) (by decide)

/-- A new row fits with the name and the type of its file. -/
theorem inserted_fits {input : UploadInput} {id : UUID} (valid : validateUserID input.userID = .ok ())
    (file : FileFits input) (now : Time) :
    fits (Row.ofInsert (AvatarService.newAvatar input id) (Postgres.marshalThumbnails []) now) = true := by
  have key : (originalObjectKey input.userID id).length ≤ 500 := originalObjectKey_fits valid id
  exact fits_iff.mpr ⟨varchar_plain (plain_userID valid) (validateUserID_ok valid).2.1,file.1,file.2,rfl,rfl,
    varchar_plain (plain_originalKey valid id) key,rfl,upload_fits _,status_fits _⟩

/-- No statement of a running operation is refused for its parameters. -/
theorem Fitting.accepts {t : Thread P} (world : w.Sound) (sound : t.Sound w) (fitting : Fitting t) {c : Call}
    {next : c.Answer → Thread P} (seen : t.view cfg = .call c next) : accepts c = true := by
  cases t <;> simp only [Thread.view,View.call.injEq,reduceCtorEq] at seen
  case uploadCreate input id =>
    obtain ⟨rfl,-⟩ := seen
    exact inserted_fits sound.1 fitting 0
  case currentSelect userID => obtain ⟨rfl,-⟩ := seen; exact isText_userID fitting
  case deleteUpdate id userID => obtain ⟨rfl,-⟩ := seen; exact isText_userID fitting
  case readCurrent r size => obtain ⟨rfl,-⟩ := seen; exact isText_userID fitting
  case processUpdate event id img thumbnails =>
    obtain ⟨rfl,-⟩ := seen
    obtain ⟨-,userID,s3Key,⟨r,found,rfl,-⟩,same⟩ := sound
    have valid := (world.rows id r found).1.valid
    rw [Schema.accepts,same,jsonb_thumbnailKeys valid,fitting.1,fitting.2]
    rfl
  case processStatus event id => obtain ⟨rfl,-⟩ := seen; exact status_fits _
  all_goals
    obtain ⟨rfl,-⟩ := seen
    rfl

/-- Rows that fit stay so under the statements that are accepted. -/
theorem rows_fit {c : Call} (accepted : accepts c = true) (changed : World.Changed w c w')
    (rows : ∀ id r, w.avatars.find id = some r → fits r = true) :
    ∀ id r, w'.avatars.find id = some r → fits r = true := by
  have written {r : Row} (fine : fits r = true) : ∀ id r', (w.write r).avatars.find id = some r' →
      fits r' = true := by
    intro id r' found
    rw [World.find_write] at found
    split at found
    · obtain ⟨old,-,rfl⟩ := Option.map_eq_some_iff.mp found
      exact fine
    · exact rows id r' found
  cases changed with
  | inserted a thumbs avatars done =>
    intro id r found
    rw [World.find_inserted done] at found
    split at found
    · cases found
      exact accepted
    · exact rows id r found
  | deleted r found live => exact written (rows _ r found)
  | completed r thumbs width height found open_ =>
    simp only [accepts,Bool.and_eq_true] at accepted
    obtain ⟨user,file,mime,-,-,key,-,upload,-⟩ := fits_iff.mp (rows _ r found)
    exact written (fits_iff.mpr
      ⟨user,file,mime,accepted.1.2,accepted.2,key,accepted.1.1,upload,status_fits _⟩)
  | status r status found =>
    obtain ⟨user,file,mime,width,height,key,thumbs,upload,-⟩ := fits_iff.mp (rows _ r found)
    exact written (fits_iff.mpr ⟨user,file,mime,width,height,key,thumbs,upload,accepted⟩)
  | _ => exact rows

/-! ### Runs -/

/-- The uploads of a run all come from the form of a request. -/
def Served (F : Parsers) (_ : State P) (a : Act) : Prop :=
  ∀ slot input, a = .start slot (.upload input) → FromForm F input

/-- Every stored row fits, and every operation holds what does. -/
structure Kept (s : State P) : Prop where
  rows : ∀ id r, s.world.avatars.find id = some r → fits r = true
  threads : ∀ slot t, s.procs slot = some t → Fitting t

theorem Kept.accepts {s : State P} (kept : Kept s) {allowed : State P → Act → Prop}
    (holds : (ownership allowed : (system P cfg).Outline allowed).Holds s) {slot : Nat} {t : Thread P}
    {c : Call} {next : c.Answer → Thread P} (running : s.procs slot = some t)
    (seen : t.view cfg = .call c next) : Schema.accepts c = true :=
  (kept.threads slot t running).accepts holds.1 (holds.2 slot t running) seen

theorem Kept.step {F : Parsers} (detected : ∀ content, varchar 100 (F.detectContentType content) = true)
    (measured : Measured P) {s s' : State P} {a : Act}
    (holds : (ownership (Served F) : (system P cfg).Outline (Served F)).Holds s) (kept : Kept s)
    (served : Served F s a) (taken : (system P cfg).step s a = some s') : Kept s' := by
  cases a with
  | start slot command =>
    obtain ⟨_,rfl⟩ := Machine.step_start taken
    refine ⟨kept.rows,fun other t running => ?_⟩
    rcases Pool.running_started running with ⟨rfl,rfl⟩ | ⟨_,running⟩
    · apply fitting_start
      rintro input rfl
      exact (served other input rfl).fits detected
    · exact kept.threads other t running
  | advance slot choice =>
    obtain ⟨t,c,next,answer,w,running,seen,performed,rfl⟩ := Machine.step_advance taken
    have accepted := kept.accepts holds running seen
    refine ⟨rows_fit accepted (World.perform_changed performed) kept.rows,fun other t' running' => ?_⟩
    rcases Pool.running_answered running' with ⟨rfl,rfl⟩ | ⟨_,running'⟩
    · exact (kept.threads other t running).answered measured seen answer
    · exact kept.threads other t' running'
  | crash slot =>
    obtain ⟨_,rfl⟩ := Machine.step_crash taken
    exact ⟨kept.rows,fun other t running => kept.threads other t (Pool.running_crashed running).2⟩
  | environment event =>
    obtain ⟨w,moved,rfl⟩ := Machine.step_environment taken
    refine ⟨fun id r found => kept.rows id r ?_,kept.threads⟩
    rw [← World.environment_avatars moved]
    exact found

theorem kept_reachable {F : Parsers} (detected : ∀ content, varchar 100 (F.detectContentType content) = true)
    (measured : Measured P) {breakers : Dependency → BreakerState} {s : State P}
    (reached : Transition.Reachable (system P cfg).step (Served F) (Pool.initial (World.initial breakers)) s) :
    Kept s := by
  apply reached.invariant Kept
  · exact ⟨by simp [Pool.initial,World.initial],by simp [Pool.initial]⟩
  · intro s a t before kept served taken
    exact kept.step detected measured ((ownership _).reachable (World.initial_sound _) before) served taken

theorem isText_plain {s : GoString} (plain : Plain s) : Wire.IsText s :=
  Wire.isText_ascii fun b member => (plain b member).2

/-- What a row in order has in the column `thumbnail_s3_keys` the column can hold as it is. -/
theorem column_thumbs {r : Row} (sound : r.Sound) : Wire.Column r.thumbnailS3Keys := by
  have marshalled {m : GoMap} (unique : (m.map Prod.fst).Nodup)
      (texts : ∀ entry ∈ m, Wire.IsText entry.1 ∧ Wire.IsText entry.2) :
      Wire.Column (Postgres.marshalThumbnails m) := by
    have sorted := Postgres.sortedByKey_perm m
    exact Wire.strings_column ((sorted.map Prod.fst).nodup_iff.mpr unique) fun entry member =>
      texts entry (sorted.mem_iff.mp member)
  rcases sound.thumbs with empty | full
  · rw [empty]
    exact marshalled (by simp) (by simp)
  · rw [full]
    have key {size : GoString} (plain : Plain size) : Wire.IsText (thumbnailObjectKey r.userID r.id size) :=
      isText_plain (plain_thumbnailKey sound.valid r.id plain)
    have names : (thumbnailKeys r.userID r.id).map Prod.fst = [thumbnailSmall,thumbnailLarge] := rfl
    refine marshalled (names ▸ by decide) fun entry member => ?_
    simp only [thumbnailKeys,List.mem_cons,List.not_mem_nil,or_false] at member
    rcases member with rfl | rfl
    · exact ⟨isText_plain plain_small,key plain_small⟩
    · exact ⟨isText_plain plain_large,key plain_large⟩

/-- The database whose columns refuse what they cannot hold, whatever it answers then. -/
def strict (P : Packages) (cfg : Config)
    (refuse : (c : Call) → Choice → World → Option (c.Answer × World)) :
    Machine Call Call.Answer Reply (Thread P) World Command Choice World.Event :=
  (system P cfg).guarded accepts refuse

/-- The program sends nothing that the columns would refuse. -/
abbrev Sends {α : Type} (p : Prog α) : Prop := Meets (fun _ _ => True) (fun c => accepts c = true) (fun _ => True) p

/-- A breaker has nothing to say to the database. -/
theorem sends_call {α : Type} (b : Option Breaker) {fn : Prog (Except Err α)} (inner : Sends fn) :
    Sends (Breaker.call b fn) := by
  cases b with
  | none => exact inner
  | some b =>
    have executed : Sends (b.execute fn) := by
      refine ⟨rfl,fun answer _ => ?_⟩
      cases answer with
      | error err => trivial
      | ok admitted => exact inner.bind fun result _ => ⟨rfl,fun _ _ => trivial⟩
    refine executed.bind fun result _ => ?_
    cases result with
    | ok value => trivial
    | error err =>
      simp only
      split
      · exact ⟨rfl,fun _ _ => trivial⟩
      · split
        · exact ⟨rfl,fun _ _ => trivial⟩
        · trivial

theorem sends_list (service : AvatarService) (userID : GoString) : Sends (service.list userID) := by
  unfold AvatarService.list
  split
  · trivial
  · next valid => exact sends_call _ ⟨isText_userID valid,fun _ _ => trivial⟩

/-- In every run whose uploads come from forms, the columns refuse nothing: whatever a stricter
database would answer to a value that does not fit, it has the same runs. Every row that is stored
fits, and its thumbnails read the same from the bytes of their column, in whichever style of blanks
and escapes the database prints them. A list of a user's avatars is never refused either. -/
theorem columns_fit {F : Parsers} (detected : ∀ content, varchar 100 (F.detectContentType content) = true)
    (measured : Measured P) (refuse : (c : Call) → Choice → World → Option (c.Answer × World))
    {breakers : Dependency → BreakerState} {trace : List (State P × Act × State P)} {s : State P}
    (served : ∀ entry ∈ trace, Served F entry.1 entry.2.1) :
    (Transition.Path (strict P cfg refuse).step (Pool.initial (World.initial breakers)) trace s ↔
        Transition.Path (system P cfg).step (Pool.initial (World.initial breakers)) trace s) ∧
      (Transition.Path (system P cfg).step (Pool.initial (World.initial breakers)) trace s →
        ∀ id r, s.world.avatars.find id = some r → fits r = true ∧ Wire.Column r.thumbnailS3Keys ∧
          ∀ style : JsonText.Style GoString, style.meaning = Wire.chars →
            (Wire.unmarshalThumbnails (Utf8.encode (JsonText.print style (Wire.document r.thumbnailS3Keys)))).toOption =
              (Postgres.unmarshalThumbnails r.thumbnailS3Keys).toOption) ∧
      ∀ (service : AvatarService) (userID : GoString), Sends (service.list userID) := by
  have holds {s : State P} (reached : Transition.Reachable (system P cfg).step (Served F)
      (Pool.initial (World.initial breakers)) s) :
      (ownership (Served F) : (system P cfg).Outline (Served F)).Holds s :=
    (ownership _).reachable (World.initial_sound _) reached
  refine ⟨?_,?_,sends_list⟩
  · refine Machine.guarded_path (fun s reached slot t c next running seen => ?_) served
    exact (kept_reachable detected measured reached).accepts (holds reached) running seen
  · intro path id r found
    have reached := path.reachable served
    have sound := ((holds reached).1.rows id r found).1
    have column := column_thumbs sound
    exact ⟨(kept_reachable detected measured reached).rows id r found,column,
      fun style meaning => Wire.column_refined meaning column⟩

theorem side_ofNat {n : Nat} (small : n ≤ 16384) : ImageProc.Side (.ofNat n - 0) := by
  have exact_ : (Int64.ofNat n - 0).toInt = n := by
    rw [Int64.sub_zero]
    exact Int64.toInt_ofNat_of_lt (by omega)
  rw [ImageProc.Side,exact_]
  omega

theorem measured_webp : Measured ImageProc.webpPackages := by
  intro data img decoded
  simp only [ImageProc.webpPackages,ImageProc.webpFrame] at decoded
  split at decoded
  · cases decoded
    exact ⟨side_ofNat (by omega),side_ofNat (by omega)⟩
  · cases decoded

/-- A picture named by its sender, out of a form. -/
def formInput : UploadInput := ⟨lit "alice",lit "a.png",lit "image/png",8,pngSignature⟩

set_option maxRecDepth 8000 in
theorem formInput_served : FromForm Parsers.sample formInput :=
  ⟨Sent.dotted.incoming 10485760,Config.standard.allowedMIME,⟨lit "a.png",8,lit "image/png",pngSignature⟩,
    by rfl,rfl⟩

def formActions : List Act := Schedule.upload 0 formInput Schedule.other

theorem columns_fit_upload : ∃ trace s,
    Transition.Path (strict ImageProc.webpPackages .standard fun _ _ _ => none).step
      (Pool.initial (World.initial fun _ => .fresh 5)) trace s ∧
      ∃ r, s.world.avatars.find Schedule.other = some r ∧ fits r = true := by
  obtain ⟨trace,s,path,-,stored,same⟩ := Transition.exists_path
    (system ImageProc.webpPackages .standard).step (fun _ _ => True)
    (Pool.initial (World.initial fun _ => .fresh 5)) formActions
    (fun s => (s.world.avatars.find Schedule.other).isSome) (by rfl)
  have served : ∀ entry ∈ trace, Served Parsers.sample entry.1 entry.2.1 := by
    intro entry member slot input start
    have action : entry.2.1 ∈ formActions := same ▸ List.mem_map_of_mem member
    rw [start] at action
    simp only [formActions,Schedule.upload,Schedule.answer,List.mem_cons,List.not_mem_nil,or_false,reduceCtorEq,
      Action.start.injEq,Command.upload.injEq] at action
    rw [action.2]
    exact formInput_served
  have detected : ∀ content, varchar 100 (Parsers.sample.detectContentType content) = true := by
    intro content
    simp only [Parsers.sample]
    split
    · exact varchar_plain (by decide) (by decide)
    · exact varchar_plain (by decide) (by decide)
  obtain ⟨alike,rows,-⟩ := columns_fit detected measured_webp (fun _ _ _ => none) served
  obtain ⟨r,found⟩ := Option.isSome_iff_exists.mp stored
  exact ⟨trace,s,alike.mpr path,r,found,(rows path Schedule.other r found).1⟩

end GophProfile.Schema
