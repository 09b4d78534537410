import ZephyrSamples.Lib.Strides

/-!
# The geometry of the display sample

One buffer serves the rows that clear the screen and the rectangles in its corners, and its size is
reckoned in pixels first and then in bytes of the pixel format.  For the monochrome formats the
division by 8 drops what is left over, so there the buffer is too small unless the number of pixels
is a multiple of 8, which it is with vertical tiles.
-/

namespace ZephyrSamples
namespace Display

abbrev Byte := UInt8

/-- `enum corner` -/
inductive Corner where
  | topLeft
  | topRight
  | bottomRight
  | bottomLeft
  deriving DecidableEq

/-- The pixel formats that are supported. -/
inductive Format where
  | argb8888
  | rgb888
  | rgb565
  | bgr565
  | mono01
  | mono10
  deriving DecidableEq

/-- What is used of `struct display_capabilities`, with `SCREEN_INFO_MONO_VTILED`, and how small a
screen may be. -/
structure Capabilities where
  xResolution : Nat
  yResolution : Nat
  vtiled : Bool
  currentPixelFormat : Format
  x_ge : 8 ≤ xResolution
  y_ge : xResolution / 8 ≤ yResolution
  x_ge_of_vtiled : vtiled = true → 64 ≤ xResolution
  dvd_y_of_vtiled : vtiled = true → 8 ∣ yResolution

/-- `struct display_buffer_descriptor` -/
structure Descriptor where
  bufSize : Nat
  pitch : Nat
  width : Nat
  height : Nat

/-- The bytes that are written into the buffer, with their places, and the calls of
`display_write`. -/
inductive Call where
  | fill (writes : List (Byte × Nat))
  | display (x y : Nat) (desc : Descriptor)

/-! ## The fill functions -/

/-- The loop over the pixels of the buffer. -/
def fillPixels (pixel : List Byte) (bufSize : Nat) : List (Byte × Nat) :=
  (strides pixel.length bufSize).flatMap fun idx => pixel.zipIdx idx

def memset (c : Byte) (bufSize : Nat) : List (Byte × Nat) := (List.replicate bufSize c).zipIdx

/-- `color` of `fill_buffer_argb8888` and `fill_buffer_rgb888` -/
def color24 (corner : Corner) (grey : Byte) : UInt32 :=
  match corner with
  | .topLeft => 0x00FF0000
  | .topRight => 0x0000FF00
  | .bottomRight => 0x000000FF
  | .bottomLeft => grey.toUInt32 <<< 16 ||| grey.toUInt32 <<< 8 ||| grey.toUInt32

/-- `fill_buffer_argb8888`, which stores a word, lower byte first -/
def fillBufferArgb8888 (corner : Corner) (grey : Byte) (bufSize : Nat) : List (Byte × Nat) :=
  let color := color24 corner grey
  fillPixels [color.toUInt8, (color >>> 8).toUInt8, (color >>> 16).toUInt8,
    (color >>> 24).toUInt8] bufSize

/-- `fill_buffer_rgb888` -/
def fillBufferRgb888 (corner : Corner) (grey : Byte) (bufSize : Nat) : List (Byte × Nat) :=
  let color := color24 corner grey
  fillPixels [(color >>> 16).toUInt8, (color >>> 8).toUInt8, (color >>> 0).toUInt8] bufSize

/-- `get_rgb565_color` -/
def getRgb565Color (corner : Corner) (grey : Byte) : UInt16 :=
  match corner with
  | .topLeft => 0xF800
  | .topRight => 0x07E0
  | .bottomRight => 0x001F
  | .bottomLeft =>
    let grey5bit := (grey &&& 0x1F).toUInt16
    grey5bit <<< 11 ||| grey5bit <<< (5 + 1) ||| grey5bit

/-- `fill_buffer_rgb565` -/
def fillBufferRgb565 (corner : Corner) (grey : Byte) (bufSize : Nat) : List (Byte × Nat) :=
  let color := getRgb565Color corner grey
  fillPixels [((color >>> 8) &&& 0xFF).toUInt8, ((color >>> 0) &&& 0xFF).toUInt8] bufSize

/-- `fill_buffer_bgr565`, which stores a halfword, lower byte first -/
def fillBufferBgr565 (corner : Corner) (grey : Byte) (bufSize : Nat) : List (Byte × Nat) :=
  let color := getRgb565Color corner grey
  fillPixels [color.toUInt8, (color >>> 8).toUInt8] bufSize

/-- `fill_buffer_mono` -/
def fillBufferMono (corner : Corner) (grey : Byte) (bufSize : Nat) : List (Byte × Nat) :=
  match corner with
  | .bottomLeft => memset (if grey &&& 0x01 ≠ 0 then 0xFF else 0x00) bufSize
  | _ => memset 0 bufSize

/-- `fill_buffer_fnc` -/
def fillBufferFnc : Format → Corner → Byte → Nat → List (Byte × Nat)
  | .argb8888 => fillBufferArgb8888
  | .rgb888 => fillBufferRgb888
  | .rgb565 => fillBufferRgb565
  | .bgr565 => fillBufferBgr565
  | .mono01 | .mono10 => fillBufferMono

/-! ## The sizes of `main` -/

namespace Capabilities

variable (capabilities : Capabilities)

/-- `h_step` -/
def hStep : Nat := if capabilities.vtiled then 8 else 1

/-- `scale` -/
def scale : Nat := capabilities.xResolution / 8 / capabilities.hStep

/-- `rect_w` -/
def rectW : Nat := (if capabilities.vtiled then 16 else 2) * capabilities.scale

/-- `rect_h` -/
def rectH : Nat := capabilities.hStep * capabilities.scale

/-- `buf_size`, as long as it counts pixels -/
def bufPixels : Nat :=
  if capabilities.rectW * capabilities.rectH < capabilities.xResolution * capabilities.hStep then
    capabilities.xResolution * capabilities.hStep
  else capabilities.rectW * capabilities.rectH

/-- `buf_size` -/
def bufSize : Nat :=
  match capabilities.currentPixelFormat with
  | .argb8888 => capabilities.bufPixels * 4
  | .rgb888 => capabilities.bufPixels * 3
  | .rgb565 | .bgr565 => capabilities.bufPixels * 2
  | .mono01 | .mono10 => capabilities.bufPixels / 8

/-- The loop over the rows. -/
def rows : List Call :=
  let desc : Descriptor :=
    { bufSize := capabilities.bufSize
      pitch := capabilities.xResolution
      width := capabilities.xResolution
      height := capabilities.hStep }
  (strides capabilities.hStep capabilities.yResolution).map fun idx => .display 0 idx desc

/-- `buf_desc` of the rectangles -/
def rect : Descriptor where
  bufSize := capabilities.bufSize
  pitch := capabilities.rectW
  width := capabilities.rectW
  height := capabilities.rectH

/-- A rectangle is filled and displayed. -/
def corner (corner : Corner) (grey : Byte) (x y : Nat) : List Call :=
  [.fill (fillBufferFnc capabilities.currentPixelFormat corner grey capabilities.bufSize),
    .display x y capabilities.rect]

/-- `main`, when its last loop has been gone through `count` times. -/
def main (count : Nat) : List Call :=
  let x := capabilities.xResolution - capabilities.rectW
  let y := capabilities.yResolution - capabilities.rectH
  .fill (memset 0xFF capabilities.bufSize) :: capabilities.rows ++
    capabilities.corner .topLeft 0 0 0 ++
    capabilities.corner .topRight 0 x 0 ++
    capabilities.corner .bottomRight 0 x y ++
    (List.range count).flatMap fun greyCount =>
      capabilities.corner .bottomLeft (UInt8.ofNat greyCount) 0 y

end Capabilities

/-! ## What is to hold -/

/-- The bytes that pixels take. -/
def Format.bytes : Format → Nat → Nat
  | .argb8888, pixels => 4 * pixels
  | .rgb888, pixels => 3 * pixels
  | .rgb565, pixels => 2 * pixels
  | .bgr565, pixels => 2 * pixels
  | .mono01, pixels => (pixels + 7) / 8
  | .mono10, pixels => (pixels + 7) / 8

def Format.IsMono (format : Format) : Prop := format = .mono01 ∨ format = .mono10

/-- All bytes of the buffer are written, and no others; a region lies inside the screen, and the
buffer is large enough for it. -/
def Call.Fits (capabilities : Capabilities) : Call → Prop
  | .fill writes => writes.map Prod.snd = List.range capabilities.bufSize
  | .display x y desc =>
    x + desc.width ≤ capabilities.xResolution ∧ y + desc.height ≤ capabilities.yResolution ∧
      capabilities.currentPixelFormat.bytes (desc.pitch * desc.height) ≤ capabilities.bufSize

/-- The call displays the row. -/
def Call.coversRow (row : Nat) : Call → Bool
  | .fill _ => false
  | .display _ y desc => y ≤ row ∧ row < y + desc.height

/-- All calls are as they should be, and the loop over the rows covers each row of the screen
once. -/
def Good (capabilities : Capabilities) (count : Nat) : Prop :=
  (∀ call ∈ capabilities.main count, call.Fits capabilities) ∧
    ∀ row, capabilities.rows.countP (Call.coversRow row) =
      if row < capabilities.yResolution then 1 else 0

/-- The number of pixels that the buffer is reckoned from is a multiple of 8, where that matters. -/
def Whole (capabilities : Capabilities) : Prop :=
  capabilities.currentPixelFormat.IsMono → capabilities.vtiled = false →
    8 ∣ max (2 * (capabilities.xResolution / 8) * (capabilities.xResolution / 8))
      capabilities.xResolution

/-! ## What is filled -/

theorem fillPixels_places {pixel : List Byte} {bufSize : Nat} (hpixel : 0 < pixel.length)
    (hdvd : pixel.length ∣ bufSize) :
    (fillPixels pixel bufSize).map Prod.snd = List.range bufSize := by
  have htiles := (tiles_strides hpixel hdvd).flatMap_range'
  rw [List.flatMap_map] at htiles
  rw [fillPixels, List.map_flatMap, List.range_eq_range', ← htiles]
  simp only [List.zipIdx_map_snd]

theorem memset_places (c : Byte) (bufSize : Nat) :
    (memset c bufSize).map Prod.snd = List.range bufSize := by
  rw [memset, List.zipIdx_map_snd, List.length_replicate, List.range_eq_range']

namespace Capabilities

variable (capabilities : Capabilities)

theorem fillBufferFnc_places (corner : Corner) (grey : Byte) :
    (fillBufferFnc capabilities.currentPixelFormat corner grey capabilities.bufSize).map Prod.snd =
      List.range capabilities.bufSize := by
  have hmono (bufSize : Nat) :
      (fillBufferMono corner grey bufSize).map Prod.snd = List.range bufSize := by
    cases corner <;> exact memset_places _ bufSize
  unfold bufSize
  cases capabilities.currentPixelFormat with
  | argb8888 => exact fillPixels_places (Nat.succ_pos 3) (Nat.dvd_mul_left 4 _)
  | rgb888 => exact fillPixels_places (Nat.succ_pos 2) (Nat.dvd_mul_left 3 _)
  | rgb565 => exact fillPixels_places (Nat.succ_pos 1) (Nat.dvd_mul_left 2 _)
  | bgr565 => exact fillPixels_places (Nat.succ_pos 1) (Nat.dvd_mul_left 2 _)
  | mono01 => exact hmono _
  | mono10 => exact hmono _

/-! ## The sizes -/

theorem hStep_pos : 0 < capabilities.hStep := by
  unfold hStep
  split <;> decide

theorem hStep_dvd : capabilities.hStep ∣ capabilities.yResolution := by
  unfold hStep
  split
  · next h => exact capabilities.dvd_y_of_vtiled h
  · exact Nat.one_dvd _

theorem rectW_eq : capabilities.rectW = 2 * capabilities.rectH := by
  unfold rectW rectH hStep
  split <;> omega

theorem rectH_le : capabilities.rectH ≤ capabilities.xResolution / 8 :=
  Nat.mul_div_le (capabilities.xResolution / 8) capabilities.hStep

theorem rectW_le : capabilities.rectW ≤ capabilities.xResolution := by
  have hw := capabilities.rectW_eq
  have hh := capabilities.rectH_le
  omega

theorem rectH_le_y : capabilities.rectH ≤ capabilities.yResolution :=
  Nat.le_trans capabilities.rectH_le capabilities.y_ge

theorem bufPixels_eq_max :
    capabilities.bufPixels =
      max (capabilities.rectW * capabilities.rectH)
        (capabilities.xResolution * capabilities.hStep) := by
  unfold bufPixels
  split
  · next h => exact (Nat.max_eq_right (Nat.le_of_lt h)).symm
  · next h => exact (Nat.max_eq_left (Nat.le_of_not_lt h)).symm

theorem rows_le_bufPixels :
    capabilities.xResolution * capabilities.hStep ≤ capabilities.bufPixels := by
  rw [bufPixels_eq_max]
  exact Nat.le_max_right _ _

theorem rect_le_bufPixels : capabilities.rectW * capabilities.rectH ≤ capabilities.bufPixels := by
  rw [bufPixels_eq_max]
  exact Nat.le_max_left _ _

theorem bufPixels_of_not_vtiled (h : capabilities.vtiled = false) :
    capabilities.bufPixels =
      max (2 * (capabilities.xResolution / 8) * (capabilities.xResolution / 8))
        capabilities.xResolution := by
  have hstep : capabilities.hStep = 1 := by rw [hStep, h]; rfl
  have hrectH : capabilities.rectH = capabilities.xResolution / 8 := by
    rw [rectH, scale, hstep, Nat.div_one, Nat.one_mul]
  rw [bufPixels_eq_max, rectW_eq, hrectH, hstep, Nat.mul_one]

/-- With vertical tiles both regions are eight rows high, or a multiple of that. -/
theorem dvd_bufPixels_of_vtiled (h : capabilities.vtiled = true) : 8 ∣ capabilities.bufPixels := by
  have hstep : capabilities.hStep = 8 := by rw [hStep, h]; rfl
  have hrectH : 8 ∣ capabilities.rectH := by
    rw [rectH, hstep]
    exact Nat.dvd_mul_right 8 _
  have hrect : 8 ∣ capabilities.rectW * capabilities.rectH :=
    Nat.dvd_mul_left_of_dvd hrectH _
  have hrows : 8 ∣ capabilities.xResolution * capabilities.hStep := by
    rw [hstep]
    exact Nat.dvd_mul_left 8 _
  rw [bufPixels_eq_max]
  rcases Nat.le_total (capabilities.rectW * capabilities.rectH)
    (capabilities.xResolution * capabilities.hStep) with hle | hle
  · rwa [Nat.max_eq_right hle]
  · rwa [Nat.max_eq_left hle]

/-- The buffer is large enough for all the pixels, unless a part of a byte is dropped. -/
theorem bytes_le_bufSize_iff :
    capabilities.currentPixelFormat.bytes capabilities.bufPixels ≤ capabilities.bufSize ↔
      (capabilities.currentPixelFormat.IsMono → 8 ∣ capabilities.bufPixels) := by
  unfold bufSize
  cases capabilities.currentPixelFormat <;> simp [Format.bytes, Format.IsMono] <;> omega

end Capabilities

theorem Format.bytes_mono (format : Format) {m n : Nat} (h : m ≤ n) :
    format.bytes m ≤ format.bytes n := by
  cases format <;> simp only [Format.bytes] <;> omega

theorem whole_iff (capabilities : Capabilities) :
    Whole capabilities ↔
      capabilities.currentPixelFormat.bytes capabilities.bufPixels ≤ capabilities.bufSize := by
  rw [capabilities.bytes_le_bufSize_iff, Whole]
  cases h : capabilities.vtiled with
  | false =>
    rw [capabilities.bufPixels_of_not_vtiled h]
    exact forall_congr' fun _ => forall_prop_of_true rfl
  | true =>
    exact iff_of_true (fun _ h => nomatch h) fun _ => capabilities.dvd_bufPixels_of_vtiled h

/-! ## The calls -/

section

variable (capabilities : Capabilities)

/-- All that is asked of the buffer is that it is large enough for the rows and the rectangles. -/
def Large : Prop :=
  capabilities.currentPixelFormat.bytes (capabilities.xResolution * capabilities.hStep) ≤
      capabilities.bufSize ∧
    capabilities.currentPixelFormat.bytes (capabilities.rectW * capabilities.rectH) ≤
      capabilities.bufSize

/-- One of the two is all that the buffer is reckoned from. -/
theorem large_iff_whole : Large capabilities ↔ Whole capabilities := by
  rw [whole_iff]
  constructor
  · intro h
    rw [capabilities.bufPixels_eq_max]
    rcases Nat.le_total (capabilities.rectW * capabilities.rectH)
      (capabilities.xResolution * capabilities.hStep) with hle | hle
    · rw [Nat.max_eq_right hle]
      exact h.1
    · rw [Nat.max_eq_left hle]
      exact h.2
  · intro h
    exact ⟨Nat.le_trans (Format.bytes_mono _ capabilities.rows_le_bufPixels) h,
      Nat.le_trans (Format.bytes_mono _ capabilities.rect_le_bufPixels) h⟩

theorem fits_rows (h : Large capabilities) :
    ∀ call ∈ capabilities.rows, call.Fits capabilities := by
  intro call hcall
  obtain ⟨idx, hidx, rfl⟩ := List.mem_map.mp hcall
  have hend := add_le_of_mem_strides capabilities.hStep_pos capabilities.hStep_dvd hidx
  exact ⟨Nat.le_of_eq (Nat.zero_add _), hend, h.1⟩

theorem fits_corner (h : Large capabilities) (corner : Corner) (grey : Byte) {x y : Nat}
    (hx : x + capabilities.rectW ≤ capabilities.xResolution)
    (hy : y + capabilities.rectH ≤ capabilities.yResolution) :
    ∀ call ∈ capabilities.corner corner grey x y, call.Fits capabilities :=
  List.forall_mem_cons.mpr ⟨capabilities.fillBufferFnc_places corner grey,
    List.forall_mem_singleton.mpr ⟨hx, hy, h.2⟩⟩

theorem fits_main (h : Large capabilities) (count : Nat) :
    ∀ call ∈ capabilities.main count, call.Fits capabilities := by
  have hw := capabilities.rectW_le
  have hh := capabilities.rectH_le_y
  have hleft : 0 + capabilities.rectW ≤ capabilities.xResolution := by omega
  have htop : 0 + capabilities.rectH ≤ capabilities.yResolution := by omega
  have hright : capabilities.xResolution - capabilities.rectW + capabilities.rectW ≤
      capabilities.xResolution := by omega
  have hbottom : capabilities.yResolution - capabilities.rectH + capabilities.rectH ≤
      capabilities.yResolution := by omega
  intro call hcall
  simp only [Capabilities.main, List.cons_append, List.mem_cons, List.mem_append,
    List.mem_flatMap] at hcall
  rcases hcall with rfl | (((hrow | hcall) | hcall) | hcall) | ⟨greyCount, -, hcall⟩
  · exact memset_places 0xFF capabilities.bufSize
  · exact fits_rows capabilities h call hrow
  · exact fits_corner capabilities h .topLeft 0 hleft htop call hcall
  · exact fits_corner capabilities h .topRight 0 hright htop call hcall
  · exact fits_corner capabilities h .bottomRight 0 hright hbottom call hcall
  · exact fits_corner capabilities h .bottomLeft _ hleft hbottom call hcall

theorem large_of_fits (count : Nat)
    (h : ∀ call ∈ capabilities.main count, call.Fits capabilities) : Large capabilities := by
  have hy : 0 < capabilities.yResolution := by
    have hx := capabilities.x_ge
    have hy := capabilities.y_ge
    omega
  have hrow : ∃ desc, .display 0 0 desc ∈ capabilities.rows ∧
      desc.pitch * desc.height = capabilities.xResolution * capabilities.hStep :=
    ⟨_, List.mem_map.mpr ⟨0, zero_mem_strides capabilities.hStep_pos hy, rfl⟩, rfl⟩
  obtain ⟨desc, hmem, hpixels⟩ := hrow
  have hrows : (Call.display 0 0 desc).Fits capabilities :=
    h _ (by simp [Capabilities.main, hmem])
  have hrect : (Call.display 0 0 capabilities.rect).Fits capabilities :=
    h _ (by simp [Capabilities.main, Capabilities.corner])
  exact ⟨hpixels ▸ hrows.2.2, hrect.2.2⟩

/-- The loop over the rows covers each row of the screen exactly once. -/
theorem rows_cover (row : Nat) :
    capabilities.rows.countP (Call.coversRow row) =
      if row < capabilities.yResolution then 1 else 0 := by
  have honce := (tiles_strides capabilities.hStep_pos capabilities.hStep_dvd).once row
  rw [List.countP_map] at honce
  rw [Capabilities.rows, List.countP_map]
  simpa [Function.comp_def, Call.coversRow] using honce

/-- No size wraps where a resolution has 16 bits and a size 32. -/
theorem bufSize_lt (h : capabilities.xResolution < 65536) : capabilities.bufSize < 4294967296 := by
  have hw := capabilities.rectW_eq
  have hh := capabilities.rectH_le
  have hrect : capabilities.rectW * capabilities.rectH ≤ 16384 * 8192 :=
    Nat.mul_le_mul (by omega) (by omega)
  have hstep : capabilities.hStep ≤ 8 := by
    unfold Capabilities.hStep
    split <;> decide
  have hrows : capabilities.xResolution * capabilities.hStep ≤ 65536 * 8 :=
    Nat.mul_le_mul (by omega) hstep
  have hpixels := capabilities.bufPixels_eq_max
  unfold Capabilities.bufSize
  cases capabilities.currentPixelFormat <;> dsimp only <;> omega

end

/-- Everything is as it should be, exactly when with a monochrome format and without vertical tiles
the larger of a row and a rectangle has a multiple of 8 pixels. -/
theorem good_iff_whole (capabilities : Capabilities) (count : Nat) :
    Good capabilities count ↔ Whole capabilities := by
  rw [← large_iff_whole]
  constructor
  · exact fun h => large_of_fits capabilities count h.1
  · exact fun h => ⟨fits_main capabilities h count, rows_cover capabilities⟩

/-- A monochrome screen without tiles. -/
def monoScreen : Capabilities where
  xResolution := 40
  yResolution := 40
  vtiled := false
  currentPixelFormat := .mono01
  x_ge := by decide
  y_ge := by decide
  x_ge_of_vtiled := by decide
  dvd_y_of_vtiled := by decide

/-- Its rectangles have 10 times 5 pixels, which take 7 bytes, and the buffer has 6. -/
theorem small_mono_buffer : ¬ Good monoScreen 0 := by
  rintro ⟨hfits, -⟩
  have hmem : Call.display 0 0 monoScreen.rect ∈ monoScreen.main 0 := by
    simp [Capabilities.main, Capabilities.corner]
  have hrect := hfits _ hmem
  have hbytes : 7 ≤ 6 := hrect.2.2
  omega

end Display
end ZephyrSamples
