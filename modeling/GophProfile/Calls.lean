import GophProfile.Domain
import GophProfile.Library.Effect

/-! Everything the code asks of the world around it, one constructor for each SQL
statement, storage request and broker request, with the type of its answer. -/
namespace GophProfile

open Domain

/-- A parsed JSON document; `jsonb` keeps one value for each field name. -/
inductive Json where
  | null
  | bool (b : Bool)
  | num (text : GoString)
  | str (text : GoString)
  | arr (items : List Json)
  | obj (fields : List (GoString × Json))

/-- One row of the table `avatars`. -/
structure Row where
  id : UUID
  userID : GoString
  fileName : GoString
  mimeType : GoString
  sizeBytes : Int64
  width : Option Int64
  height : Option Int64
  s3Key : GoString
  thumbnailS3Keys : Json
  uploadStatus : UploadStatus
  processingStatus : ProcessingStatus
  createdAt : Time
  updatedAt : Time
  deletedAt : Option Time

def Row.live (r : Row) : Bool := r.deletedAt.isNone

structure Object where
  body : GoString
  contentType : GoString
  deriving DecidableEq

/-- How a publication on the service channel was confirmed. -/
inductive Confirmation where
  | missing | acked | nacked | waitFailed (e : Err)
  deriving DecidableEq

inductive Dependency where
  | postgres | s3 | rabbitmq
  deriving DecidableEq

/-- What a breaker makes of the error of a call. -/
inductive Outcome where
  | success | failure | excluded
  deriving DecidableEq

inductive Call where
  | newUUID
  /-- A Go map range, or the order in which a batch is worked off. -/
  | iterate (keys : List GoString)
  | insertAvatar (a : Avatar) (thumbs : Json)
  | selectByID (id : UUID)
  | selectCurrent (userID : GoString)
  | selectByUser (userID : GoString)
  | updateDeleted (id : UUID) (userID : GoString)
  | selectOwner (id : UUID)
  | updateResult (id : UUID) (thumbs : Json) (width height : Int64)
  | updateStatus (id : UUID) (status : ProcessingStatus)
  | selectPending (age limit : Nat)
  | countPending (age : Nat)
  | putObject (key : GoString) (object : Object)
  | getObject (key : GoString)
  | removeObject (key : GoString)
  | publishUpload (event : AvatarUploadEvent)
  | publishDelete (event : AvatarDeleteEvent)
  | receiveUpload
  | receiveDelete
  | settleUpload (event : AvatarUploadEvent) (ack : Bool)
  | settleDelete (event : AvatarDeleteEvent) (ack : Bool)
  /-- gobreaker's `beforeRequest` and `afterRequest`. -/
  | allow (dependency : Dependency)
  | report (dependency : Dependency) (outcome : Outcome)
  | breakerRejected (dependency : Dependency) (reason : GoString)

@[reducible] def Call.Answer : Call → Type
  | .newUUID => UUID
  | .iterate keys => { order : List GoString // order.Perm keys }
  | .insertAvatar _ _ => Except Err (Time × Time)
  | .selectByID _ => Except Err Row
  | .selectCurrent _ => Except Err Row
  | .selectByUser _ => Except Err (List Row)
  | .updateDeleted _ _ => Except Err (GoString × Json)
  | .selectOwner _ => Except Err GoString
  | .updateResult _ _ _ _ => Except Err Nat
  | .updateStatus _ _ => Except Err Unit
  | .selectPending _ _ => Except Err (List Row)
  | .countPending _ => Except Err Nat
  | .putObject _ _ => Except Err Unit
  | .getObject _ => Except Err Object
  | .removeObject _ => Except Err Unit
  | .publishUpload _ => Except Err Confirmation
  | .publishDelete _ => Except Err Confirmation
  | .receiveUpload => AvatarUploadEvent
  | .receiveDelete => AvatarDeleteEvent
  | .settleUpload _ _ => Except Err Unit
  | .settleDelete _ _ => Except Err Unit
  | .allow _ => Except Err Unit
  | .report _ _ => Unit
  | .breakerRejected _ _ => Unit

abbrev Prog := Effect.Prog Call Call.Answer

/-- The calls of a run with their answers. -/
abbrev Called := List ((c : Call) × c.Answer)

abbrev ask (c : Call) : Prog c.Answer := Effect.request c

/-- `image.Rectangle` -/
structure Rect where
  minX : Int64
  minY : Int64
  maxX : Int64
  maxY : Int64
  deriving DecidableEq

def Rect.dx (r : Rect) : Int64 := r.maxX - r.minX
def Rect.dy (r : Rect) : Int64 := r.maxY - r.minY

/-- The functions the code takes from packages that are not part of the repository,
with what their documentation says about them. -/
structure Packages where
  uuidParse : GoString → Except Err UUID
  uuidParse_string : ∀ id : UUID, uuidParse id.string = .ok id
  /-- `json.Unmarshal` of a message body into one of the two events. -/
  unmarshalUpload : GoString → Except Err AvatarUploadEvent
  unmarshalDelete : GoString → Except Err AvatarDeleteEvent
  Image : Type
  decodeConfig : GoString → Except Err (Int64 × Int64)
  decodeImage : GoString → Except Err Image
  bounds : Image → Rect
  /-- `draw.CatmullRom.Scale` of a part of an image onto a new square one. -/
  catmullRom : Image → Rect → Int64 → Image
  catmullRom_bounds : ∀ img part side, bounds (catmullRom img part side) = ⟨0,0,side,side⟩
  encodeJPEG : Image → Int64 → Except Err GoString
  /-- `jpeg.Encode` fails only on sides of 2^16 and more and on a failing writer. -/
  encodeJPEG_ok : ∀ img quality, (bounds img).dx < 65536 → (bounds img).dy < 65536 →
    ∃ bytes, encodeJPEG img quality = .ok bytes
  /-- The first 16 hexadecimal digits of a SHA-256 sum. -/
  sum256 : GoString → GoString
  /-- `time.Time.UTC().String()` -/
  utcString : Time → GoString
  /-- The placeholder picture built into the binary. -/
  defaultAvatar : GoString

namespace Packages

/-- The sides that a PNG file states in its header. -/
def pngSize (data : GoString) : Except Err (Int64 × Int64) :=
  let number (offset : Nat) : Int64 :=
    .ofNat (((data.drop offset).take 4).foldl (fun n b => n * 256 + b.toNat) 0)
  if data.take 16 = [137,80,78,71,13,10,26,10,0,0,0,13,73,72,68,82] then .ok (number 16,number 20)
  else .error (.new "image: unknown format" [])

/-- Functions with all the documented properties, for pictures that are only a size. -/
def sample : Packages where
  uuidParse text :=
    if h : text.length = 36 ∧ text.all isHexOrDash = true then .ok ⟨text,h.1,h.2⟩
    else .error (.new "invalid UUID format" [])
  uuidParse_string := by
    intro id
    simp [UUID.string,id.length,id.digits]
  unmarshalUpload _ := .error (.new "unexpected end of JSON input" [])
  unmarshalDelete _ := .error (.new "unexpected end of JSON input" [])
  Image := Int64 × Int64
  decodeConfig := pngSize
  decodeImage := pngSize
  bounds img := ⟨0,0,img.1,img.2⟩
  catmullRom _ _ side := (side,side)
  catmullRom_bounds := fun _ _ _ => rfl
  encodeJPEG img _ :=
    if img.1 < 65536 ∧ img.2 < 65536 then
      .ok [255,216,255,UInt8.ofNat (img.1.toInt.toNat / 256),UInt8.ofNat img.1.toInt.toNat,255,217]
    else .error (.new "jpeg: image is too large to encode" [])
  encodeJPEG_ok := by
    intro img quality width height
    have wide : img.1 < 65536 := by simpa [Rect.dx] using width
    have high : img.2 < 65536 := by simpa [Rect.dy] using height
    exact ⟨_,if_pos ⟨wide,high⟩⟩
  sum256 := id
  utcString t := List.replicate t 48
  defaultAvatar := [137,80,78,71]

theorem sample_utcString : Function.Injective sample.utcString := by
  intro t t' same
  have lengths := congrArg List.length same
  simpa [sample] using lengths

/-- A grey picture of ten by ten pixels. -/
def samplePicture : GoString :=
  [137,80,78,71,13,10,26,10,0,0,0,13,73,72,68,82,0,0,0,10,0,0,0,10,8,0,0,0,0,168,89,144,97,0,0,0,12,
    73,68,65,84,120,218,99,96,160,39,0,0,0,110,0,1,118,160,169,207,0,0,0,0,73,69,78,68,174,66,96,130]

end Packages

end GophProfile
