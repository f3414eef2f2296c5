import GophProfile.Calls

/-! The `imageproc` package: decoding under a pixel limit, and the square thumbnails. -/
namespace GophProfile.ImageProc

def jpegQuality : Int64 := 85
def thumbnailMIME : GoString := lit "image/jpeg"

variable (P : Packages)

/-- The limit is applied to the header, before anything is unpacked. -/
def decode (data : GoString) (maxPixels : Int64) : Except Err P.Image :=
  match P.decodeConfig data with
  | .error err => .error (.errorf "decode config: %w" [] err)
  | .ok (width,height) =>
    if width * height > maxPixels then
      .error (.new "изображение %dx%d превышает лимит в %d пикселей" [decimal width,decimal height,decimal maxPixels])
    else match P.decodeImage data with
      | .error err => .error (.errorf "decode image: %w" [] err)
      | .ok img => .ok img

/-- The limit decides whether an image is handed out, not which. -/
theorem decode_ok {data : GoString} {maxPixels : Int64} {img : P.Image}
    (decoded : decode P data maxPixels = .ok img) : P.decodeImage data = .ok img := by
  unfold decode at decoded
  split at decoded
  · cases decoded
  · split at decoded
    · cases decoded
    · split at decoded
      · cases decoded
      · next unpacked => cases decoded; exact unpacked

/-! ### The limit and what is unpacked -/

/-- A side as the image package reports it: not negative, below 2^31. -/
def Side (n : Int64) : Prop := 0 ≤ n.toInt ∧ n.toInt < 2147483648

/-- Two such sides have an exact product in 64 bits. -/
theorem mul_toInt {a b : Int64} (sideA : Side a) (sideB : Side b) :
    (a * b).toInt = a.toInt * b.toInt := by
  obtain ⟨lowA,highA⟩ := sideA
  obtain ⟨lowB,highB⟩ := sideB
  have low : 0 ≤ a.toInt * b.toInt := Int.mul_nonneg lowA lowB
  have high : a.toInt * b.toInt ≤ 2147483648 * 2147483648 :=
    Int.mul_le_mul (by omega) (by omega) lowB (by omega)
  rw [Int64.toInt_mul]
  exact Int.bmod_eq_of_le (by omega) (by omega)

def pixels (img : P.Image) : Int := (P.bounds img).dx.toInt * (P.bounds img).dy.toInt

/-- The pixels the header of a file announces. -/
def headerPixels (data : GoString) : Option Int :=
  match P.decodeConfig data with
  | .ok (width,height) => some (width.toInt * height.toInt)
  | .error _ => none

/-- The pixels the file unpacks to. -/
def framePixels (data : GoString) : Option Int :=
  match P.decodeImage data with
  | .ok img => some (pixels P img)
  | .error _ => none

theorem mem_framePixels {data : GoString} {n : Int} :
    n ∈ framePixels P data ↔ ∃ img, P.decodeImage data = .ok img ∧ pixels P img = n := by
  unfold framePixels
  cases P.decodeImage data <;> simp

/-- The file is unpacked if and only if both parses succeed and the first stays within
the limit. -/
theorem decode_ok_iff {data : GoString} {maxPixels : Int64} {img : P.Image}
    (header : ∀ width height, P.decodeConfig data = .ok (width,height) → Side width ∧ Side height) :
    decode P data maxPixels = .ok img ↔
      P.decodeImage data = .ok img ∧ ∃ n ∈ headerPixels P data, n ≤ maxPixels.toInt := by
  unfold decode headerPixels
  cases parsed : P.decodeConfig data with
  | error err => simp
  | ok sides =>
    obtain ⟨width,height⟩ := sides
    obtain ⟨sideW,sideH⟩ := header width height parsed
    have exact_ : width * height > maxPixels ↔ maxPixels.toInt < width.toInt * height.toInt := by
      rw [gt_iff_lt,Int64.lt_iff_toInt_lt,mul_toInt sideW sideH]
    by_cases large : width * height > maxPixels
    · have beyond := exact_.mp large
      simp [large,beyond]
    · have within : width.toInt * height.toInt ≤ maxPixels.toInt := by
        rw [exact_] at large
        omega
      simp only [if_neg large]
      cases P.decodeImage data <;> simp [within]

/-- Decoding keeps to the limit unless the limit lies between the two parses: the header
is within it, the frame is not. -/
theorem decode_bounded_iff {data : GoString} {maxPixels : Int64}
    (header : ∀ width height, P.decodeConfig data = .ok (width,height) → Side width ∧ Side height) :
    (∀ img, decode P data maxPixels = .ok img → pixels P img ≤ maxPixels.toInt) ↔
      ¬∃ announced ∈ headerPixels P data, ∃ unpacked ∈ framePixels P data,
        announced ≤ maxPixels.toInt ∧ maxPixels.toInt < unpacked := by
  constructor
  · rintro bounded ⟨announced,inHeader,unpacked,inFrame,within,beyond⟩
    obtain ⟨img,frame,rfl⟩ := (mem_framePixels P).mp inFrame
    have handed := bounded img ((decode_ok_iff P header).mpr ⟨frame,announced,inHeader,within⟩)
    omega
  · intro agree img decoded
    obtain ⟨frame,announced,inHeader,within⟩ := (decode_ok_iff P header).mp decoded
    by_contra beyond
    exact agree ⟨announced,inHeader,pixels P img,(mem_framePixels P).mpr ⟨img,frame,rfl⟩,within,
      by omega⟩

theorem decode_bounded_iff_sample :
    (∀ img, decode Packages.sample Packages.samplePicture 50000000 = .ok img →
      pixels Packages.sample img ≤ (50000000 : Int64).toInt) ↔
      ¬∃ announced ∈ headerPixels Packages.sample Packages.samplePicture,
        ∃ unpacked ∈ framePixels Packages.sample Packages.samplePicture,
          announced ≤ (50000000 : Int64).toInt ∧ (50000000 : Int64).toInt < unpacked :=
  decode_bounded_iff Packages.sample (by
    intro width height parsed
    have sides : Packages.sample.decodeConfig Packages.samplePicture = .ok (10,10) := by rfl
    rw [sides] at parsed
    cases parsed
    exact ⟨⟨by decide,by decide⟩,⟨by decide,by decide⟩⟩)

/-- Little-endian number. -/
def littleEndian (bytes : GoString) : Nat := bytes.foldr (fun b n => b.toNat + 256 * n) 0

/-- The canvas an extended WebP file announces. -/
def webpCanvas (data : GoString) : Except Err (Int64 × Int64) :=
  if data.take 4 = lit "RIFF" ∧ (data.drop 8).take 8 = lit "WEBPVP8X" then
    .ok (.ofNat (littleEndian ((data.drop 24).take 3) + 1),
      .ofNat (littleEndian ((data.drop 27).take 3) + 1))
  else .error (.new "image: unknown format" [])

/-- The sides of the lossless frame that follows the canvas. -/
def webpFrame (data : GoString) : Except Err (Int64 × Int64) :=
  if data.take 4 = lit "RIFF" ∧ (data.drop 30).take 4 = lit "VP8L" then
    .ok (.ofNat (littleEndian ((data.drop 39).take 4) % 16384 + 1),
      .ofNat (littleEndian ((data.drop 39).take 4) / 16384 % 16384 + 1))
  else .error (.new "image: unknown format" [])

/-- An image package that reads WebP files with one lossless frame. -/
def webpPackages : Packages :=
  { Packages.sample with
    decodeConfig := webpCanvas
    decodeImage := webpFrame }

/-- A canvas of one pixel over a black frame of 16384 by 16384, in 46 bytes. -/
def webpBomb : GoString :=
  [82,73,70,70,38,0,0,0,87,69,66,80,86,80,56,88,10,0,0,0,0,0,0,0,0,0,0,0,0,0,86,80,56,76,8,0,0,0,47,
    255,255,255,15,136,136,8]

theorem decode_not_bounded :
    ¬∀ data maxPixels, 0 < maxPixels → ∀ img, decode webpPackages data maxPixels = .ok img →
      pixels webpPackages img ≤ maxPixels.toInt := by
  intro bounded
  have unpacked : decode webpPackages webpBomb 50000000 = .ok (16384,16384) := by rfl
  have within := bounded webpBomb 50000000 (by decide) (16384,16384) unpacked
  revert within
  decide

/-- `image.Rect`: the corners may be given in any order. -/
def rect (x0 y0 x1 y1 : Int64) : Rect :=
  ⟨min x0 x1,min y0 y1,max x0 x1,max y0 y1⟩

/-- Crop to the central square first, scale it after that. -/
def thumbnail (src : P.Image) (size : Int64) : P.Image :=
  let b := P.bounds src
  let side := min b.dx b.dy
  let offsetX := b.minX + (b.dx - side) / 2
  let offsetY := b.minY + (b.dy - side) / 2
  P.catmullRom src (rect offsetX offsetY (offsetX + side) (offsetY + side)) size

def encodeJPEG (img : P.Image) : Except Err GoString :=
  match P.encodeJPEG img jpegQuality with
  | .error err => .error (.errorf "encode jpeg: %w" [] err)
  | .ok bytes => .ok bytes

def dimensions (img : P.Image) : Int64 × Int64 := ((P.bounds img).dx,(P.bounds img).dy)

/-- A thumbnail of less than 2^16 pixels a side can always be encoded. -/
theorem encodeJPEG_thumbnail (img : P.Image) (size : Int64) (small : size < 65536) :
    ∃ bytes, encodeJPEG P (thumbnail P img size) = .ok bytes := by
  have side : (⟨0,0,size,size⟩ : Rect).dx < 65536 ∧ (⟨0,0,size,size⟩ : Rect).dy < 65536 := by
    simpa [Rect.dx,Rect.dy] using small
  obtain ⟨bytes,encoded⟩ := P.encodeJPEG_ok (thumbnail P img size) jpegQuality
    (by simpa only [thumbnail,P.catmullRom_bounds] using side.1)
    (by simpa only [thumbnail,P.catmullRom_bounds] using side.2)
  exact ⟨bytes,by simp only [encodeJPEG,encoded]⟩

end GophProfile.ImageProc
