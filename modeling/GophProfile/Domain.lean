import Mathlib.Data.List.Infix

/-! The `domain` package: avatars, events, sentinel errors, the user id check and the
object keys. A Go string is its bytes. -/
namespace GophProfile

abbrev GoString := List UInt8

/-- The UTF-8 bytes of a literal of the source. -/
def lit (s : String) : GoString := s.toByteArray.data.toList

/-- `%d` -/
def decimal (n : Int64) : GoString := lit (toString n)

/-- `strings.Contains` -/
def contains (s sub : GoString) : Bool := decide (sub <:+: s)

def isHexOrDash (b : UInt8) : Bool := (48 ≤ b && b ≤ 57) || (97 ≤ b && b ≤ 102) || b == 45

def lowerHexDigit (n : UInt8) : UInt8 := if n < 10 then 48 + n else 87 + n

/-- A `uuid.UUID`, by the text its `String` method gives: 36 lower-case hexadecimal
digits and dashes. -/
structure UUID where
  text : GoString
  length : text.length = 36
  digits : text.all isHexOrDash = true
  deriving DecidableEq

def UUID.string (id : UUID) : GoString := id.text

theorem UUID.string_injective {a b : UUID} (same : a.string = b.string) : a = b := by
  cases a; cases b; cases same; rfl

/-- `uuid.Nil` -/
def UUID.nil : UUID := ⟨lit "00000000-0000-0000-0000-000000000000",by decide,by decide⟩

/-- Instants, counted in ticks of the one clock of the model. -/
abbrev Time := Nat

/-- The errors that reach the code, and the chains it builds over them. A message is
kept as its format and its arguments. -/
inductive Err where
  | avatarNotFound | forbidden | invalidFormat | tooLarge | unavailable
  | objectNotFound | invalidUserID
  | noRows | pgError (code : GoString) | s3Error (code : GoString)
  | canceled | deadlineExceeded
  | missingFile | maxBytes
  | openState | tooManyRequests
  | new (format : String) (args : List GoString)
  | errorf (format : String) (args : List GoString) (wrapped : Err)
  | join (first rest : Err)
  deriving DecidableEq

/-- `errors.Is` -/
def Err.is : Err → Err → Bool
  | .errorf format args wrapped, target => .errorf format args wrapped == target || wrapped.is target
  | .join first rest, target => .join first rest == target || first.is target || rest.is target
  | e, target => e == target

/-- `errors.As` for a `*pgconn.PgError` -/
def Err.asPgError : Err → Option GoString
  | .pgError code => some code
  | .errorf _ _ wrapped => wrapped.asPgError
  | .join first rest => first.asPgError <|> rest.asPgError
  | _ => none

/-- `errors.Join` -/
def Err.joinAll : List Err → Except Err Unit
  | [] => .ok ()
  | [e] => .error e
  | e :: rest => match joinAll rest with
    | .ok () => .error e
    | .error es => .error (.join e es)

namespace Domain

inductive UploadStatus where
  | uploading | uploaded | failed
  deriving DecidableEq

inductive ProcessingStatus where
  | pending | processing | completed | failed
  deriving DecidableEq

def thumbnailSmall : GoString := lit "100x100"
def thumbnailLarge : GoString := lit "300x300"
def sizeOriginal : GoString := lit "original"

/-- A Go map from strings to strings, its entries in the order it was filled. -/
abbrev GoMap := List (GoString × GoString)

structure Avatar where
  id : UUID
  userID : GoString
  fileName : GoString
  mimeType : GoString
  sizeBytes : Int64
  width : Option Int64
  height : Option Int64
  s3Key : GoString
  thumbnailS3Keys : GoMap
  uploadStatus : UploadStatus
  processingStatus : ProcessingStatus
  createdAt : Time
  updatedAt : Time
  deletedAt : Option Time

def Avatar.isProcessed (a : Avatar) : Bool := a.processingStatus == .completed

def Avatar.thumbnailKey (a : Avatar) (size : GoString) : Option GoString :=
  List.lookup size a.thumbnailS3Keys

/-- Go leaves the order of a map's iteration open: `order` is the one taken. -/
def allS3Keys (s3Key : GoString) (thumbnails : GoMap) (order : List GoString) : List GoString :=
  s3Key :: order.filterMap fun size => List.lookup size thumbnails

theorem mem_of_lookup {α : Type} {m : List (GoString × α)} {name : GoString} {value : α}
    (found : List.lookup name m = some value) : (name,value) ∈ m := by
  obtain ⟨before,after,rfl,-⟩ := List.lookup_eq_some_iff.mp found
  exact List.mem_append_right _ List.mem_cons_self

theorem lookup_of_mem {m : GoMap} (unique : (m.map Prod.fst).Nodup) {entry : GoString × GoString}
    (member : entry ∈ m) : List.lookup entry.1 m = some entry.2 := by
  induction m with
  | nil => contradiction
  | cons head tail ih =>
    rw [List.map_cons,List.nodup_cons] at unique
    rcases List.mem_cons.mp member with rfl | inside
    · rw [List.lookup_cons,beq_self_eq_true]
    · have different : entry.1 ≠ head.1 := by
        intro same
        exact unique.1 (same ▸ List.mem_map_of_mem inside)
      rw [List.lookup_cons,beq_eq_false_iff_ne.mpr different]
      exact ih unique.2 inside

/-- In whichever order the map is ranged over, the values are those of the map. -/
theorem allS3Keys_perm (s3Key : GoString) {m : GoMap} (unique : (m.map Prod.fst).Nodup)
    {order : List GoString} (ranged : order.Perm (m.map Prod.fst)) :
    ∃ rest, allS3Keys s3Key m order = s3Key :: rest ∧ rest.Perm (m.map Prod.snd) := by
  refine ⟨_,rfl,?_⟩
  have values : (m.map Prod.fst).filterMap (fun size => List.lookup size m) = m.map Prod.snd := by
    rw [List.filterMap_map,← List.filterMap_eq_map]
    apply List.filterMap_congr
    intro entry member
    exact lookup_of_mem unique member
  exact values ▸ ranged.filterMap _

/-- `m[key] = value` -/
def assign {α : Type} (m : List (GoString × α)) (key : GoString) (value : α) : List (GoString × α) :=
  if m.any fun entry => entry.1 == key then m.map fun entry => if entry.1 == key then (key,value) else entry
  else m ++ [(key,value)]

theorem assign_new {α : Type} {m : List (GoString × α)} {key : GoString} (fresh : key ∉ m.map Prod.fst)
    (value : α) : assign m key value = m ++ [(key,value)] := by
  have absent : (m.any fun entry => entry.1 == key) = false := by
    rw [List.any_eq_false]
    intro entry member
    have differs : entry.1 ≠ key := fun same => fresh (same ▸ List.mem_map_of_mem member)
    simpa using differs
  rw [assign,absent]
  rfl

structure AvatarUploadEvent where
  avatarID : GoString
  userID : GoString
  s3Key : GoString
  deriving DecidableEq

structure AvatarDeleteEvent where
  avatarID : GoString
  s3Keys : List GoString
  deriving DecidableEq

def maxUserIDLen : Nat := 255

/-- One byte of `^[A-Za-z0-9._@+-]+$`; no other character, ASCII or not, is in the class. -/
def userIDByte (b : UInt8) : Bool :=
  (65 ≤ b && b ≤ 90) || (97 ≤ b && b ≤ 122) || (48 ≤ b && b ≤ 57) ||
    b == 46 || b == 95 || b == 64 || b == 43 || b == 45

def validateUserID (userID : GoString) : Except Err Unit :=
  if userID = [] then .error (.errorf "%w: пустой идентификатор" [] .invalidUserID)
  else if userID.length > maxUserIDLen then
    .error (.errorf "%w: длиннее %d символов" [lit "255"] .invalidUserID)
  else if userID.all userIDByte then .ok ()
  else .error (.errorf "%w: допустимы только буквы, цифры и . _ @ + -" [] .invalidUserID)

def originalObjectKey (userID : GoString) (avatarID : UUID) : GoString :=
  lit "avatars/" ++ userID ++ lit "/" ++ avatarID.string ++ lit "/original"

def thumbnailObjectKey (userID : GoString) (avatarID : UUID) (size : GoString) : GoString :=
  lit "avatars/" ++ userID ++ lit "/" ++ avatarID.string ++ lit "/" ++ size ++ lit ".jpg"

def thumbnailKeys (userID : GoString) (avatarID : UUID) : GoMap :=
  [(thumbnailSmall,thumbnailObjectKey userID avatarID thumbnailSmall),
   (thumbnailLarge,thumbnailObjectKey userID avatarID thumbnailLarge)]

theorem validateUserID_ok {userID : GoString} (valid : validateUserID userID = .ok ()) :
    userID ≠ [] ∧ userID.length ≤ maxUserIDLen ∧ ∀ b ∈ userID, userIDByte b = true := by
  unfold validateUserID at valid
  split at valid
  · cases valid
  · next nonempty =>
    split at valid
    · cases valid
    · next short =>
      split at valid
      · next allowed => exact ⟨nonempty,by omega,List.all_eq_true.mp allowed⟩
      · cases valid

theorem validateUserID_errorf {userID : GoString} {e : Err}
    (refused : validateUserID userID = .error e) :
    ∃ format args, e = .errorf format args .invalidUserID := by
  unfold validateUserID at refused
  split at refused
  · cases refused; exact ⟨_,_,rfl⟩
  · split at refused
    · cases refused; exact ⟨_,_,rfl⟩
    · split at refused <;> cases refused
      exact ⟨_,_,rfl⟩

theorem validateUserID_error {userID : GoString} {e : Err} (refused : validateUserID userID = .error e) :
    e.is .invalidUserID = true := by
  obtain ⟨format,args,rfl⟩ := validateUserID_errorf refused
  rfl

end Domain

end GophProfile
