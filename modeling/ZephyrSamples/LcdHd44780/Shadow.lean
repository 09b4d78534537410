import Mathlib.Algebra.Group.Nat.Defs
import ZephyrSamples.Lib.Runs

/-!
# The shadow registers of the HD44780 driver

`lcd_data` keeps what the driver has last set of the display control and of the entry mode, since
the display is only written.  The display is modelled by what it latches from a command; the two
halves in which a command goes over the bus are taken together. -/

namespace ZephyrSamples
namespace LcdHd44780

open Runs

abbrev Byte := UInt8

def lcdClearDisplay : Byte := 0x01
def lcdReturnHome : Byte := 0x02
def lcdEntryModeSet : Byte := 0x04
def lcdDisplayControl : Byte := 0x08
def lcdCursorShift : Byte := 0x10
def lcdFunctionSet : Byte := 0x20
def lcdSetDdramAddr : Byte := 0x80

def lcdEntryLeft : Byte := 0x02
def lcdEntryShiftIncrement : Byte := 0x01
def lcdEntryShiftDecrement : Byte := 0x00

def lcdDisplayOn : Byte := 0x04
def lcdCursorOn : Byte := 0x02
def lcdCursorOff : Byte := 0x00
def lcdBlinkOn : Byte := 0x01
def lcdBlinkOff : Byte := 0x00

def lcdDisplayMove : Byte := 0x08
def lcdMoveRight : Byte := 0x04
def lcdMoveLeft : Byte := 0x00

def lcd8BitMode : Byte := 0x10
def lcd2Line : Byte := 0x08
def lcd5x10Dots : Byte := 0x04
def lcd5x8Dots : Byte := 0x00

/-- `struct pi_lcd_data` -/
structure LcdData where
  dispFunc : Byte
  dispCntl : Byte
  dispMode : Byte
  cfgRows : Byte
  rowOffsets : Vector Byte 4
  deriving DecidableEq

/-- What goes over the bus, by the level of the register select line. -/
inductive Transfer where
  | command (bits : Byte)
  | write (bits : Byte)
  deriving DecidableEq, Repr

structure Display where
  control : Byte
  entry : Byte
  address : Byte
  deriving DecidableEq, Repr

/-- What the display makes of a transfer. -/
def Display.latch (d : Display) : Transfer → Display
  | .write _ => d
  | .command c =>
    if 0x04 ≤ c ∧ c ≤ 0x07 then { d with entry := c &&& 0x03 }
    else if 0x08 ≤ c ∧ c ≤ 0x0F then { d with control := c &&& 0x07 }
    else if 0x80 ≤ c then { d with address := c &&& 0x7F }
    else d

/-! ## The driver's functions -/

/-- The row that `pi_lcd_set_cursor` looks up. -/
def cursorRow (cfgRows row : Byte) : Byte :=
  let row := if row ≥ 4 then 3 else row
  if row ≥ cfgRows then cfgRows - 1 else row

/-- A row outside the array would be read as 0; `cursorRow_lt` excludes it. -/
def piLcdSetCursor (lcd : LcdData) (col row : Byte) : LcdData × List Transfer :=
  let offset := lcd.rowOffsets.toList.getD (cursorRow lcd.cfgRows row).toNat 0
  (lcd, [.command (UInt8.ofNat (lcdSetDdramAddr.toNat ||| (col.toNat + offset.toNat)))])

def piLcdHome (lcd : LcdData) : LcdData × List Transfer := (lcd, [.command lcdReturnHome])

def piLcdClear (lcd : LcdData) : LcdData × List Transfer := (lcd, [.command lcdClearDisplay])

/-- The functions that change the display control write all of it. -/
def setControl (lcd : LcdData) (cntl : Byte) : LcdData × List Transfer :=
  ({ lcd with dispCntl := cntl }, [.command (lcdDisplayControl ||| cntl)])

def piLcdDisplayOn (lcd : LcdData) : LcdData × List Transfer :=
  setControl lcd (lcd.dispCntl ||| lcdDisplayOn)

def piLcdDisplayOff (lcd : LcdData) : LcdData × List Transfer :=
  setControl lcd (lcd.dispCntl &&& ~~~lcdDisplayOn)

def piLcdCursorOff (lcd : LcdData) : LcdData × List Transfer :=
  setControl lcd (lcd.dispCntl &&& ~~~lcdCursorOn)

def piLcdCursorOn (lcd : LcdData) : LcdData × List Transfer :=
  setControl lcd (lcd.dispCntl ||| lcdCursorOn)

def piLcdBlinkOff (lcd : LcdData) : LcdData × List Transfer :=
  setControl lcd (lcd.dispCntl &&& ~~~lcdBlinkOn)

def piLcdBlinkOn (lcd : LcdData) : LcdData × List Transfer :=
  setControl lcd (lcd.dispCntl ||| lcdBlinkOn)

def piLcdScrollLeft (lcd : LcdData) : LcdData × List Transfer :=
  (lcd, [.command (lcdCursorShift ||| lcdDisplayMove ||| lcdMoveLeft)])

def piLcdScrollRight (lcd : LcdData) : LcdData × List Transfer :=
  (lcd, [.command (lcdCursorShift ||| lcdDisplayMove ||| lcdMoveRight)])

/-- The functions that change the entry mode send `disp_cntl` with it, not `disp_mode`. -/
def setMode (lcd : LcdData) (mode : Byte) : LcdData × List Transfer :=
  ({ lcd with dispMode := mode }, [.command (lcdEntryModeSet ||| lcd.dispCntl)])

def piLcdLeftToRight (lcd : LcdData) : LcdData × List Transfer :=
  setMode lcd (lcd.dispMode ||| lcdEntryLeft)

def piLcdRightToLeft (lcd : LcdData) : LcdData × List Transfer :=
  setMode lcd (lcd.dispMode &&& ~~~lcdEntryLeft)

def piLcdAutoScrollRight (lcd : LcdData) : LcdData × List Transfer :=
  setMode lcd (lcd.dispMode ||| lcdEntryShiftIncrement)

def piLcdAutoScrollLeft (lcd : LcdData) : LcdData × List Transfer :=
  setMode lcd (lcd.dispMode &&& ~~~lcdEntryShiftIncrement)

def piLcdString (lcd : LcdData) (msg : List Byte) : LcdData × List Transfer :=
  (lcd, msg.map .write)

/-- The part of `pi_lcd_init` that configures `lcd_data`. -/
def configure (lcd : LcdData) (cols rows dotsize : Byte) : LcdData :=
  let func := if rows > 1 then lcd.dispFunc ||| lcd2Line else lcd.dispFunc
  let func := if dotsize ≠ lcd5x8Dots ∧ rows = 1 then func ||| lcd5x10Dots else func
  { lcd with
    dispFunc := func
    cfgRows := rows
    rowOffsets := #v[0x00, 0x40, 0x00 + cols, 0x40 + cols] }

def piLcdInit (lcd : LcdData) (cols rows dotsize : Byte) : LcdData × List Transfer :=
  let lcd := configure lcd cols rows dotsize
  let tries : List Transfer :=
    if lcd.dispFunc &&& lcd8BitMode ≠ 0 then
      [.command 0x30, .command 0x30, .command 0x30, .command 0x30]
    else [.command 0x03, .command 0x03, .command 0x03, .command 0x02]
  let func : Transfer := .command (lcdFunctionSet ||| lcd.dispFunc)
  let lcd := { lcd with dispCntl := lcdDisplayOn ||| lcdCursorOff ||| lcdBlinkOff }
  let (lcd, on) := piLcdDisplayOn lcd
  let (lcd, clear) := piLcdClear lcd
  let lcd := { lcd with dispMode := lcdEntryLeft ||| lcdEntryShiftDecrement }
  (lcd, tries ++ [func] ++ on ++ clear ++ [.command (lcdEntryModeSet ||| lcd.dispMode)])

inductive Call where
  | init (cols rows dotsize : Byte)
  | home
  | setCursor (col row : Byte)
  | clear
  | displayOn
  | displayOff
  | cursorOff
  | cursorOn
  | blinkOff
  | blinkOn
  | scrollLeft
  | scrollRight
  | leftToRight
  | rightToLeft
  | autoScrollRight
  | autoScrollLeft
  | string (msg : List Byte)

def perform (lcd : LcdData) : Call → LcdData × List Transfer
  | .init cols rows dotsize => piLcdInit lcd cols rows dotsize
  | .home => piLcdHome lcd
  | .setCursor col row => piLcdSetCursor lcd col row
  | .clear => piLcdClear lcd
  | .displayOn => piLcdDisplayOn lcd
  | .displayOff => piLcdDisplayOff lcd
  | .cursorOff => piLcdCursorOff lcd
  | .cursorOn => piLcdCursorOn lcd
  | .blinkOff => piLcdBlinkOff lcd
  | .blinkOn => piLcdBlinkOn lcd
  | .scrollLeft => piLcdScrollLeft lcd
  | .scrollRight => piLcdScrollRight lcd
  | .leftToRight => piLcdLeftToRight lcd
  | .rightToLeft => piLcdRightToLeft lcd
  | .autoScrollRight => piLcdAutoScrollRight lcd
  | .autoScrollLeft => piLcdAutoScrollLeft lcd
  | .string msg => piLcdString lcd msg

structure State where
  lcd : LcdData
  display : Display
  deriving DecidableEq

def step (s : State) (c : Call) : State :=
  let (lcd, sent) := perform s.lcd c
  { lcd := lcd, display := sent.foldl Display.latch s.display }

/-! ## What a call is to do -/

/-- The shadow registers hold what the display has latched. -/
def Agree (s : State) : Prop :=
  s.display.control = s.lcd.dispCntl ∧ s.display.entry = s.lcd.dispMode

/-- The bits of the display's state, and whether the address is among them. -/
structure Part where
  control : Byte
  entry : Byte
  address : Bool

/-- The part of the display's state that a call is named for. -/
def Call.part : Call → Part
  | .init .. => ⟨0x07, 0x03, true⟩
  | .setCursor .. => ⟨0, 0, true⟩
  | .displayOn | .displayOff => ⟨lcdDisplayOn, 0, false⟩
  | .cursorOff | .cursorOn => ⟨lcdCursorOn, 0, false⟩
  | .blinkOff | .blinkOn => ⟨lcdBlinkOn, 0, false⟩
  | .leftToRight | .rightToLeft => ⟨0, lcdEntryLeft, false⟩
  | .autoScrollRight | .autoScrollLeft => ⟨0, lcdEntryShiftIncrement, false⟩
  | .home | .clear | .scrollLeft | .scrollRight | .string _ => ⟨0, 0, false⟩

/-- Outside `p` the display is what it was. -/
def OnlyIn (p : Part) (before after : Display) : Prop :=
  after.control &&& ~~~p.control = before.control &&& ~~~p.control ∧
    after.entry &&& ~~~p.entry = before.entry &&& ~~~p.entry ∧
      (p.address = false → after.address = before.address)

/-- `pi_lcd_set_cursor` looks up a row of the array and sends the address, nothing else. -/
def Addressed (lcd : LcdData) : Call → Prop
  | .setCursor col row => (cursorRow lcd.cfgRows row).toNat < 4 ∧
      ∃ bits ≥ lcdSetDdramAddr, (perform lcd (.setCursor col row)).2 = [.command bits]
  | _ => True

/-- A call leaves shadow and display in agreement and changes what it is named for. -/
def Meets (s : State) (c : Call) : Prop :=
  Agree (step s c) ∧ OnlyIn c.part s.display (step s c).display ∧ Addressed s.lcd c

/-- The display has a row. -/
def HasRow (_ : State) : Call → Prop
  | .init _ rows _ => 1 ≤ rows
  | _ => True

/-- The cursor and blink bits of the display control happen to be the entry mode that the call is
to set. -/
def Coincides (s : State) : Call → Prop
  | .leftToRight =>
    s.lcd.dispCntl &&& 0x02 = 0x02 ∧ s.lcd.dispCntl &&& 0x01 = s.lcd.dispMode &&& 0x01
  | .rightToLeft =>
    s.lcd.dispCntl &&& 0x02 = 0 ∧ s.lcd.dispCntl &&& 0x01 = s.lcd.dispMode &&& 0x01
  | .autoScrollRight =>
    s.lcd.dispCntl &&& 0x01 = 0x01 ∧ s.lcd.dispCntl &&& 0x02 = s.lcd.dispMode &&& 0x02
  | .autoScrollLeft =>
    s.lcd.dispCntl &&& 0x01 = 0 ∧ s.lcd.dispCntl &&& 0x02 = s.lcd.dispMode &&& 0x02
  | _ => True

/-! ## What one call does -/

/-- The shadow registers as `pi_lcd_init` and the calls after it leave them. -/
structure Ready (lcd : LcdData) : Prop where
  cntl : lcd.dispCntl.toNat < 8
  mode : lcd.dispMode.toNat < 4
  rows : 1 ≤ lcd.cfgRows

theorem exists_fin {b : Byte} {n : Nat} (h : b.toNat < n) : ∃ k : Fin n, b = UInt8.ofNat k :=
  ⟨⟨b.toNat, h⟩, by simp⟩

theorem control_command : ∀ k : Fin 8,
    ¬ (0x04 ≤ lcdDisplayControl ||| UInt8.ofNat k ∧ lcdDisplayControl ||| UInt8.ofNat k ≤ 0x07) ∧
      (0x08 ≤ lcdDisplayControl ||| UInt8.ofNat k ∧ lcdDisplayControl ||| UInt8.ofNat k ≤ 0x0F) ∧
        (lcdDisplayControl ||| UInt8.ofNat k) &&& 0x07 = UInt8.ofNat k := by
  decide

theorem latch_control {cntl : Byte} (h : cntl.toNat < 8) (d : Display) :
    d.latch (.command (lcdDisplayControl ||| cntl)) = { d with control := cntl } := by
  obtain ⟨k, rfl⟩ := exists_fin h
  obtain ⟨hentry, hcontrol, hbits⟩ := control_command k
  rw [Display.latch, if_neg hentry, if_pos hcontrol, hbits]

theorem entry_command : ∀ k : Fin 8,
    (0x04 ≤ lcdEntryModeSet ||| UInt8.ofNat k ∧ lcdEntryModeSet ||| UInt8.ofNat k ≤ 0x07) ∧
      (lcdEntryModeSet ||| UInt8.ofNat k) &&& 0x03 = UInt8.ofNat k &&& 0x03 := by
  decide

theorem latch_entry {bits : Byte} (h : bits.toNat < 8) (d : Display) :
    d.latch (.command (lcdEntryModeSet ||| bits)) = { d with entry := bits &&& 0x03 } := by
  obtain ⟨k, rfl⟩ := exists_fin h
  obtain ⟨hentry, hbits⟩ := entry_command k
  rw [Display.latch, if_pos hentry, hbits]

theorem latch_address {bits : Byte} (h : 0x80 ≤ bits) (d : Display) :
    d.latch (.command bits) = { d with address := bits &&& 0x7F } := by
  have hbits := UInt8.le_iff_toNat_le.mp h
  have hentry : ¬ (0x04 ≤ bits ∧ bits ≤ 0x07) := by
    rintro ⟨-, hle⟩
    have hle := UInt8.le_iff_toNat_le.mp hle
    simp at hbits hle
    omega
  have hcontrol : ¬ (0x08 ≤ bits ∧ bits ≤ 0x0F) := by
    rintro ⟨-, hle⟩
    have hle := UInt8.le_iff_toNat_le.mp hle
    simp at hbits hle
    omega
  rw [Display.latch, if_neg hentry, if_neg hcontrol, if_pos h]

theorem foldl_write (msg : List Byte) (d : Display) :
    (msg.map Transfer.write).foldl Display.latch d = d := by
  induction msg with
  | nil => rfl
  | cons b msg ih => exact ih

theorem onlyIn_refl (p : Part) (d : Display) : OnlyIn p d d := ⟨rfl, rfl, fun _ => rfl⟩

/-! ### The cursor -/

theorem cursorRow_lt {cfgRows : Byte} (h : 1 ≤ cfgRows) (row : Byte) :
    (cursorRow cfgRows row).toNat < 4 := by
  have hrows := UInt8.le_iff_toNat_le.mp h
  have hone : (1 : Byte).toNat = 1 := rfl
  have hsub : (cfgRows - 1).toNat = cfgRows.toNat - 1 := UInt8.toNat_sub_of_le _ _ h
  have hfirst : (if row ≥ 4 then (3 : Byte) else row).toNat < 4 := by
    split
    · decide
    · next hrow => exact UInt8.lt_iff_toNat_lt.mp (UInt8.not_le.mp hrow)
  rw [cursorRow]
  generalize (if row ≥ 4 then (3 : Byte) else row) = row at *
  by_cases hle : row ≥ cfgRows
  · have hle' := UInt8.le_iff_toNat_le.mp hle
    rw [if_pos hle]
    omega
  · rw [if_neg hle]
    exact hfirst

theorem address_command (n : Nat) :
    lcdSetDdramAddr ≤ UInt8.ofNat (lcdSetDdramAddr.toNat ||| n) := by
  rw [UInt8.ofNat_or, UInt8.le_iff_toNat_le, UInt8.toNat_or]
  exact Nat.left_le_or

/-! ### The calls by what they set -/

theorem meets_quiet {s : State} {c : Call} (hlcd : (step s c).lcd = s.lcd)
    (hdisplay : (step s c).display = s.display) (hcall : Addressed s.lcd c) (hs : Agree s) :
    Meets s c := by
  refine ⟨?_, ?_, hcall⟩
  · rw [Agree, hlcd, hdisplay]
    exact hs
  · rw [hdisplay]
    exact onlyIn_refl _ _

theorem meets_setCursor {s : State} (hready : Ready s.lcd) (hs : Agree s) (col row : Byte) :
    Meets s (.setCursor col row) := by
  have hbits := address_command
    (col.toNat + (s.lcd.rowOffsets.toList.getD (cursorRow s.lcd.cfgRows row).toNat 0).toNat)
  have hdisplay := latch_address hbits s.display
  refine ⟨?_, ?_, cursorRow_lt hready.rows row, _, hbits, rfl⟩
  · show Agree ⟨s.lcd, s.display.latch (.command _)⟩
    rw [hdisplay]
    exact hs
  · show OnlyIn _ s.display (s.display.latch (.command _))
    rw [hdisplay]
    exact ⟨rfl, rfl, fun h => Bool.noConfusion h⟩

/-- A call that changes the display control in the bits of `mask`. -/
theorem meets_setControl {s : State} {c : Call} {cntl mask : Byte}
    (hcall : perform s.lcd c = setControl s.lcd cntl) (hpart : c.part = ⟨mask, 0, false⟩)
    (haddr : Addressed s.lcd c) (hcntl : cntl.toNat < 8)
    (hmask : cntl &&& ~~~mask = s.lcd.dispCntl &&& ~~~mask) (hs : Agree s) : Meets s c := by
  have hstep :
      step s c = ⟨{ s.lcd with dispCntl := cntl }, { s.display with control := cntl }⟩ := by
    simp only [step, hcall, setControl, List.foldl_cons, List.foldl_nil, latch_control hcntl]
  obtain ⟨hcontrol, hentry⟩ := hs
  rw [Meets, hstep, hpart]
  refine ⟨⟨rfl, hentry⟩, ⟨?_, rfl, fun _ => rfl⟩, haddr⟩
  show cntl &&& ~~~mask = s.display.control &&& ~~~mask
  rw [hcontrol, hmask]

/-- A call that changes the entry mode in the bits of `mask` meets its purpose when the display
control that it sends is the mode. -/
theorem meets_setMode {s : State} {c : Call} {mode mask : Byte}
    (hcall : perform s.lcd c = setMode s.lcd mode) (hpart : c.part = ⟨0, mask, false⟩)
    (haddr : Addressed s.lcd c) (hcntl : s.lcd.dispCntl.toNat < 8)
    (hmask : mode &&& ~~~mask = s.lcd.dispMode &&& ~~~mask) (hs : Agree s) :
    Meets s c ↔ s.lcd.dispCntl &&& 0x03 = mode := by
  have hstep : step s c = ⟨{ s.lcd with dispMode := mode },
      { s.display with entry := s.lcd.dispCntl &&& 0x03 }⟩ := by
    simp only [step, hcall, setMode, List.foldl_cons, List.foldl_nil, latch_entry hcntl]
  obtain ⟨hcontrol, hentry⟩ := hs
  rw [Meets, hstep, hpart]
  constructor
  · exact fun h => h.1.2
  · intro h
    refine ⟨⟨hcontrol, h⟩, ⟨rfl, ?_, fun _ => rfl⟩, haddr⟩
    show s.lcd.dispCntl &&& 0x03 &&& ~~~mask = s.display.entry &&& ~~~mask
    rw [h, hentry, hmask]

/-! ### Every call -/

theorem or_lt {a b : Byte} {n : Nat} (ha : a.toNat < 2 ^ n) (hb : b.toNat < 2 ^ n) :
    (a ||| b).toNat < 2 ^ n := by
  rw [UInt8.toNat_or]
  exact Nat.or_lt_two_pow ha hb

theorem and_lt {a : Byte} {n : Nat} (ha : a.toNat < n) (b : Byte) : (a &&& b).toNat < n := by
  rw [UInt8.toNat_and]
  exact Nat.lt_of_le_of_lt Nat.and_le_left ha

/-- Setting bits changes no others. -/
theorem or_and_not (a mask : Byte) : (a ||| mask) &&& ~~~mask = a &&& ~~~mask := by
  have hbits : (a.toBitVec ||| mask.toBitVec) &&& ~~~mask.toBitVec
      = a.toBitVec &&& ~~~mask.toBitVec := by
    rw [BitVec.and_or_distrib_right, BitVec.and_not_self]
    exact BitVec.or_zero
  exact UInt8.eq_of_toBitVec_eq hbits

/-- Nor does clearing them. -/
theorem and_not_and_not (a mask : Byte) : a &&& ~~~mask &&& ~~~mask = a &&& ~~~mask := by
  rw [UInt8.and_assoc, UInt8.and_self]

theorem meets_or {s : State} {c : Call} {mask : Byte}
    (hcall : perform s.lcd c = setControl s.lcd (s.lcd.dispCntl ||| mask))
    (hpart : c.part = ⟨mask, 0, false⟩) (haddr : Addressed s.lcd c) (hbit : mask.toNat < 8)
    (hready : Ready s.lcd) (hs : Agree s) : Meets s c :=
  meets_setControl hcall hpart haddr (or_lt (n := 3) hready.cntl hbit) (or_and_not _ _) hs

theorem meets_and_not {s : State} {c : Call} {mask : Byte}
    (hcall : perform s.lcd c = setControl s.lcd (s.lcd.dispCntl &&& ~~~mask))
    (hpart : c.part = ⟨mask, 0, false⟩) (haddr : Addressed s.lcd c) (hready : Ready s.lcd)
    (hs : Agree s) : Meets s c :=
  meets_setControl hcall hpart haddr (and_lt hready.cntl _) (and_not_and_not _ _) hs

/-- What the text direction calls make of the mode is what they send, by the bits of both. -/
theorem entry_bits : ∀ k : Fin 8, ∀ m : Fin 4,
    (UInt8.ofNat k &&& 0x03 = UInt8.ofNat m ||| lcdEntryLeft ↔
      UInt8.ofNat k &&& 0x02 = 0x02 ∧ UInt8.ofNat k &&& 0x01 = UInt8.ofNat m &&& 0x01) ∧
    (UInt8.ofNat k &&& 0x03 = UInt8.ofNat m &&& ~~~lcdEntryLeft ↔
      UInt8.ofNat k &&& 0x02 = 0 ∧ UInt8.ofNat k &&& 0x01 = UInt8.ofNat m &&& 0x01) ∧
    (UInt8.ofNat k &&& 0x03 = UInt8.ofNat m ||| lcdEntryShiftIncrement ↔
      UInt8.ofNat k &&& 0x01 = 0x01 ∧ UInt8.ofNat k &&& 0x02 = UInt8.ofNat m &&& 0x02) ∧
    (UInt8.ofNat k &&& 0x03 = UInt8.ofNat m &&& ~~~lcdEntryShiftIncrement ↔
      UInt8.ofNat k &&& 0x01 = 0 ∧ UInt8.ofNat k &&& 0x02 = UInt8.ofNat m &&& 0x02) := by
  decide

/-- The remaining commands change nothing of what the display is modelled by. -/
theorem latch_other {bits : Byte} (hbits : bits ∈ [0x01, 0x02, 0x18, 0x1C]) (d : Display) :
    d.latch (.command bits) = d := by
  have hother : ∀ c ∈ ([0x01, 0x02, 0x18, 0x1C] : List Byte),
      ¬ (0x04 ≤ c ∧ c ≤ 0x07) ∧ ¬ (0x08 ≤ c ∧ c ≤ 0x0F) ∧ ¬ 0x80 ≤ c := by
    decide +kernel
  obtain ⟨hentry, hcontrol, haddress⟩ := hother bits hbits
  rw [Display.latch, if_neg hentry, if_neg hcontrol, if_neg haddress]

theorem meets_other {s : State} {c : Call} {bits : Byte}
    (hcall : perform s.lcd c = (s.lcd, [.command bits])) (haddr : Addressed s.lcd c)
    (hbits : bits ∈ [0x01, 0x02, 0x18, 0x1C]) (hs : Agree s) : Meets s c := by
  have hstep : step s c = s := by
    simp only [step, hcall, List.foldl_cons, List.foldl_nil, latch_other hbits]
  exact meets_quiet (congrArg State.lcd hstep) (congrArg State.display hstep) haddr hs

theorem latch_function (f : Byte) (d : Display) :
    ∃ address, d.latch (.command (lcdFunctionSet ||| f)) = { d with address := address } := by
  have hle : 0x20 ≤ (lcdFunctionSet ||| f).toNat := by
    rw [UInt8.toNat_or]
    exact Nat.left_le_or
  have hentry : ¬ (0x04 ≤ lcdFunctionSet ||| f ∧ lcdFunctionSet ||| f ≤ 0x07) := by
    rintro ⟨-, h⟩
    have h : (lcdFunctionSet ||| f).toNat ≤ 7 := UInt8.le_iff_toNat_le.mp h
    omega
  have hcontrol : ¬ (0x08 ≤ lcdFunctionSet ||| f ∧ lcdFunctionSet ||| f ≤ 0x0F) := by
    rintro ⟨-, h⟩
    have h : (lcdFunctionSet ||| f).toNat ≤ 15 := UInt8.le_iff_toNat_le.mp h
    omega
  rw [Display.latch, if_neg hentry, if_neg hcontrol]
  split
  · exact ⟨_, rfl⟩
  · exact ⟨d.address, rfl⟩

theorem foldl_tries (p : Prop) [Decidable p] (d : Display) :
    (if p then [.command 0x30, .command 0x30, .command 0x30, .command 0x30]
      else [.command 0x03, .command 0x03, .command 0x03, .command 0x02]).foldl Display.latch d =
      d := by
  split
  · rfl
  · rfl

theorem step_init (s : State) (cols rows dotsize : Byte) :
    ∃ func address, step s (.init cols rows dotsize) =
      ⟨{ dispFunc := func, dispCntl := lcdDisplayOn, dispMode := lcdEntryLeft, cfgRows := rows,
         rowOffsets := #v[0x00, 0x40, 0x00 + cols, 0x40 + cols] },
       { control := lcdDisplayOn, entry := lcdEntryLeft, address := address }⟩ := by
  obtain ⟨address, hfunc⟩ :=
    latch_function (configure s.lcd cols rows dotsize).dispFunc s.display
  refine ⟨(configure s.lcd cols rows dotsize).dispFunc, address, ?_⟩
  simp only [step, perform, piLcdInit, piLcdDisplayOn, setControl, piLcdClear, List.foldl_append,
    foldl_tries, List.foldl_cons, List.foldl_nil, hfunc]
  rfl

theorem ready_init (s : State) (cols rows dotsize : Byte) (hrows : 1 ≤ rows) :
    Ready (step s (.init cols rows dotsize)).lcd := by
  obtain ⟨func, address, hstep⟩ := step_init s cols rows dotsize
  have hcntl : lcdDisplayOn.toNat < 8 := by decide
  have hmode : lcdEntryLeft.toNat < 4 := by decide
  rw [hstep]
  exact ⟨hcntl, hmode, hrows⟩

theorem agree_init (s : State) (cols rows dotsize : Byte) :
    Agree (step s (.init cols rows dotsize)) := by
  obtain ⟨func, address, hstep⟩ := step_init s cols rows dotsize
  rw [hstep]
  exact ⟨rfl, rfl⟩

theorem meets_init {s : State} {cols rows dotsize : Byte} (hready : Ready s.lcd) (hs : Agree s) :
    Meets s (.init cols rows dotsize) := by
  obtain ⟨func, address, hstep⟩ := step_init s cols rows dotsize
  obtain ⟨hcontrol, hentry⟩ := hs
  have hno : ∀ k : Fin 8, UInt8.ofNat k &&& ~~~0x07 = 0 := by decide
  have hno' : ∀ k : Fin 4, UInt8.ofNat k &&& ~~~0x03 = 0 := by decide
  obtain ⟨k, hk⟩ := exists_fin hready.cntl
  obtain ⟨m, hm⟩ := exists_fin hready.mode
  refine ⟨agree_init s cols rows dotsize, ?_, trivial⟩
  rw [hstep]
  refine ⟨?_, ?_, fun h => Bool.noConfusion h⟩
  · show lcdDisplayOn &&& ~~~0x07 = s.display.control &&& ~~~0x07
    rw [hcontrol, hk, hno]
    rfl
  · show lcdEntryLeft &&& ~~~0x03 = s.display.entry &&& ~~~0x03
    rw [hentry, hm, hno']
    rfl

theorem ready_step {s : State} {c : Call} (hready : Ready s.lcd) (hrow : HasRow s c) :
    Ready (step s c).lcd := by
  obtain ⟨hcntl, hmode, hrows⟩ := hready
  cases c with
  | init cols rows dotsize => exact ready_init s cols rows dotsize hrow
  | displayOn => exact ⟨or_lt (n := 3) hcntl (by decide), hmode, hrows⟩
  | cursorOn => exact ⟨or_lt (n := 3) hcntl (by decide), hmode, hrows⟩
  | blinkOn => exact ⟨or_lt (n := 3) hcntl (by decide), hmode, hrows⟩
  | displayOff => exact ⟨and_lt hcntl _, hmode, hrows⟩
  | cursorOff => exact ⟨and_lt hcntl _, hmode, hrows⟩
  | blinkOff => exact ⟨and_lt hcntl _, hmode, hrows⟩
  | leftToRight => exact ⟨hcntl, or_lt (n := 2) hmode (by decide), hrows⟩
  | autoScrollRight => exact ⟨hcntl, or_lt (n := 2) hmode (by decide), hrows⟩
  | rightToLeft => exact ⟨hcntl, and_lt hmode _, hrows⟩
  | autoScrollLeft => exact ⟨hcntl, and_lt hmode _, hrows⟩
  | home | setCursor | clear | scrollLeft | scrollRight | string => exact ⟨hcntl, hmode, hrows⟩

theorem meets_iff {s : State} {c : Call} (hready : Ready s.lcd) (hs : Agree s) :
    Meets s c ↔ Coincides s c := by
  obtain ⟨k, hk⟩ := exists_fin hready.cntl
  obtain ⟨m, hm⟩ := exists_fin hready.mode
  obtain ⟨hleft, hright, hincrement, hdecrement⟩ := entry_bits k m
  rw [← hk, ← hm] at hleft hright hincrement hdecrement
  cases c with
  | init cols rows dotsize => exact iff_of_true (meets_init hready hs) trivial
  | setCursor col row => exact iff_of_true (meets_setCursor hready hs col row) trivial
  | home => exact iff_of_true (meets_other rfl trivial (by decide) hs) trivial
  | clear => exact iff_of_true (meets_other rfl trivial (by decide) hs) trivial
  | scrollLeft => exact iff_of_true (meets_other rfl trivial (by decide) hs) trivial
  | scrollRight => exact iff_of_true (meets_other rfl trivial (by decide) hs) trivial
  | string msg => exact iff_of_true (meets_quiet rfl (foldl_write msg _) trivial hs) trivial
  | displayOn => exact iff_of_true (meets_or rfl rfl trivial (by decide) hready hs) trivial
  | cursorOn => exact iff_of_true (meets_or rfl rfl trivial (by decide) hready hs) trivial
  | blinkOn => exact iff_of_true (meets_or rfl rfl trivial (by decide) hready hs) trivial
  | displayOff => exact iff_of_true (meets_and_not rfl rfl trivial hready hs) trivial
  | cursorOff => exact iff_of_true (meets_and_not rfl rfl trivial hready hs) trivial
  | blinkOff => exact iff_of_true (meets_and_not rfl rfl trivial hready hs) trivial
  | leftToRight =>
    refine Iff.trans ?_ hleft
    exact meets_setMode rfl rfl trivial hready.cntl (or_and_not _ _) hs
  | rightToLeft =>
    refine Iff.trans ?_ hright
    exact meets_setMode rfl rfl trivial hready.cntl (and_not_and_not _ _) hs
  | autoScrollRight =>
    refine Iff.trans ?_ hincrement
    exact meets_setMode rfl rfl trivial hready.cntl (or_and_not _ _) hs
  | autoScrollLeft =>
    refine Iff.trans ?_ hdecrement
    exact meets_setMode rfl rfl trivial hready.cntl (and_not_and_not _ _) hs

/-- `pi_lcd_init` brings the shadow registers and the display into agreement, and the calls after
it keep them so and do what they are named for, exactly when at each text direction call the
display control happens to hold the mode that the call sets. -/
theorem meets_iff_coincides (lcd : LcdData) (display : Display) (cols rows dotsize : Byte)
    (hrows : 1 ≤ rows) (cs : List Call)
    (h : Along step HasRow (step ⟨lcd, display⟩ (.init cols rows dotsize)) cs) :
    (Agree (step ⟨lcd, display⟩ (.init cols rows dotsize)) ∧
      Along step Meets (step ⟨lcd, display⟩ (.init cols rows dotsize)) cs) ↔
        Along step Coincides (step ⟨lcd, display⟩ (.init cols rows dotsize)) cs := by
  have hready := ready_init ⟨lcd, display⟩ cols rows dotsize hrows
  have hagree := agree_init ⟨lcd, display⟩ cols rows dotsize
  have hiff := along_iff_of_invariant step (I := fun s => Ready s.lcd ∧ Agree s) (Q := Meets)
    (G := Coincides)
    (fun s c hI hrow hG => ⟨ready_step hI.1 hrow, ((meets_iff hI.1 hI.2).mpr hG).1⟩)
    (fun s c hI _ => meets_iff hI.1 hI.2) ⟨hready, hagree⟩ h
  exact (and_iff_right hagree).trans hiff

/-- The text direction is set while the cursor is on, and the display is set up once more. -/
def twoInits : List Call :=
  [.cursorOn, .leftToRight, .init 16 2 lcd5x8Dots, .displayOff, .setCursor 3 1]

theorem meets_iff_coincides_twoInits :
    (1 : Byte) ≤ 4 ∧
      Along step HasRow
        (step ⟨⟨0, 0, 0, 0, #v[0, 0, 0, 0]⟩, ⟨0, 0, 0⟩⟩ (.init 20 4 lcd5x8Dots)) twoInits ∧
      Agree (step ⟨⟨0, 0, 0, 0, #v[0, 0, 0, 0]⟩, ⟨0, 0, 0⟩⟩ (.init 20 4 lcd5x8Dots)) ∧
      Along step Meets
        (step ⟨⟨0, 0, 0, 0, #v[0, 0, 0, 0]⟩, ⟨0, 0, 0⟩⟩ (.init 20 4 lcd5x8Dots)) twoInits := by
  have hrow : Along step HasRow
      (step ⟨⟨0, 0, 0, 0, #v[0, 0, 0, 0]⟩, ⟨0, 0, 0⟩⟩ (.init 20 4 lcd5x8Dots)) twoInits := by
    have hrows : (1 : Byte) ≤ 2 := by decide
    exact ⟨trivial, trivial, hrows, trivial, trivial, trivial⟩
  have hcoincides : Along step Coincides
      (step ⟨⟨0, 0, 0, 0, #v[0, 0, 0, 0]⟩, ⟨0, 0, 0⟩⟩ (.init 20 4 lcd5x8Dots)) twoInits := by
    have hbits : (0x06 : Byte) &&& 0x02 = 0x02 ∧ (0x06 : Byte) &&& 0x01 = 0x02 &&& 0x01 := by decide
    exact ⟨trivial, hbits, trivial, trivial, trivial, trivial⟩
  exact ⟨by decide, hrow,
    (meets_iff_coincides _ _ 20 4 lcd5x8Dots (by decide) twoInits hrow).mpr hcoincides⟩

/-- The default direction, asked for again after `pi_lcd_init`, reaches the display as 0. -/
theorem left_to_right_disagrees :
    ¬ ∀ (lcd : LcdData) (display : Display) (cols rows dotsize : Byte), 1 ≤ rows →
        ∀ cs, Along step HasRow (step ⟨lcd, display⟩ (.init cols rows dotsize)) cs →
          Agree (step ⟨lcd, display⟩ (.init cols rows dotsize)) ∧
            Along step Meets (step ⟨lcd, display⟩ (.init cols rows dotsize)) cs := by
  intro h
  have hcall := (h ⟨0, 0, 0, 0, #v[0, 0, 0, 0]⟩ ⟨0, 0, 0⟩ 20 4 0 (by decide) [.leftToRight]
    ⟨trivial, trivial⟩).2.1.1.2
  have hentry : (0x00 : Byte) = 0x02 := hcall
  exact absurd hentry (by decide)

end LcdHd44780
end ZephyrSamples
