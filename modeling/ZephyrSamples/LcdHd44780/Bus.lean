import ZephyrSamples.LcdHd44780.Shadow

/-!
# The bus of the HD44780

How a transfer goes over the pins: as a byte on eight data lines, or as its two halves on the upper
four.  The display takes what is on the lines when the enable line falls, and as a byte or as half
of one by the mode that its last function set command put it in.  With the lower lines not wired it
reads anything there.

The tries of `pi_lcd_init` bring display and driver together from whatever state the display is in,
the middle of a byte included; from then on the display takes every byte the calls send, for the
register it is sent to, and the pins do what `perform` says the transfers do.
-/

namespace ZephyrSamples
namespace LcdHd44780

open Runs

/-! ## The driver's side -/

/-- `GPIO_PIN_PC12_D0` to `GPIO_PIN_PC21_D7`, `GPIO_PIN_PC28_RS` and `GPIO_PIN_PC25_E` -/
inductive Pin where
  | data (k : Fin 8)
  | rs
  | e
  deriving DecidableEq

/-- A `GPIO_PIN_WR` with its level. -/
abbrev PinWr := Pin × Bool

def piLcdToggleEnable : List PinWr := [(.e, false), (.e, true), (.e, false)]

/-- `(bits & BIT(k)) == BIT(k)` -/
def hasBit (bits : Byte) (k : Nat) : Bool := bits &&& UInt8.ofNat (2 ^ k) == UInt8.ofNat (2 ^ k)

/-- A data pin is set high if a bit is set. -/
def raise (pin : Fin 8) (bit : Bool) : List PinWr := if bit then [(.data pin, true)] else []

/-- Four bits from bit `first` on, on the upper four data pins. -/
def halfWr (bits : Byte) (first : Nat) : List PinWr :=
  [(.data 4, false), (.data 5, false), (.data 6, false), (.data 7, false)] ++
    raise 4 (hasBit bits first) ++ raise 5 (hasBit bits (first + 1)) ++
    raise 6 (hasBit bits (first + 2)) ++ raise 7 (hasBit bits (first + 3))

def piLcd4BitsWr (bits : Byte) : List PinWr :=
  (halfWr bits 4 ++ piLcdToggleEnable) ++ (halfWr bits 0 ++ piLcdToggleEnable)

def byteWr (bits : Byte) : List PinWr :=
  [(.data 7, false), (.data 6, false), (.data 5, false), (.data 4, false), (.data 3, false),
    (.data 2, false), (.data 1, false), (.data 0, false)] ++
    raise 0 (hasBit bits 0) ++ raise 1 (hasBit bits 1) ++ raise 2 (hasBit bits 2) ++
    raise 3 (hasBit bits 3) ++ raise 4 (hasBit bits 4) ++ raise 5 (hasBit bits 5) ++
    raise 6 (hasBit bits 6) ++ raise 7 (hasBit bits 7)

def piLcd8BitsWr (bits : Byte) : List PinWr := byteWr bits ++ piLcdToggleEnable

/-- `lcd_data.disp_func & LCD_8BIT_MODE` -/
def eightBit (lcd : LcdData) : Bool := lcd.dispFunc &&& lcd8BitMode != 0

def piLcdData (lcd : LcdData) (bits : Byte) : List PinWr :=
  if eightBit lcd then piLcd8BitsWr bits else piLcd4BitsWr bits

def piLcdCommand (lcd : LcdData) (bits : Byte) : List PinWr := (.rs, false) :: piLcdData lcd bits

def piLcdWrite (lcd : LcdData) (bits : Byte) : List PinWr := (.rs, true) :: piLcdData lcd bits

def Transfer.pins (lcd : LcdData) : Transfer → List PinWr
  | .command bits => piLcdCommand lcd bits
  | .write bits => piLcdWrite lcd bits

/-! ## The display's side -/

/-- The interface of the display: whether it takes bytes, the upper half of a byte whose lower half
it waits for, and what it has taken. -/
structure Face where
  eight : Bool
  pending : Option Byte
  display : Display
  taken : List Transfer
  deriving DecidableEq

/-- The mode after a command: a function set command has the mode in a bit. -/
def eightAfter (eight : Bool) (bits : Byte) : Bool :=
  if 0x20 ≤ bits ∧ bits < 0x40 then bits &&& lcd8BitMode != 0 else eight

namespace Face

variable (f : Face) (rs : Bool)

def accept (bits : Byte) : Face where
  eight := if rs then f.eight else eightAfter f.eight bits
  pending := none
  display := f.display.latch (if rs then .write bits else .command bits)
  taken := f.taken ++ [if rs then .write bits else .command bits]

/-- The enable line falls with `upper` and `lower` on the lines. -/
def strobe (upper lower : Byte) : Face :=
  if f.eight then f.accept rs (upper ||| lower)
  else
    match f.pending with
    | none => { f with pending := some upper }
    | some half => f.accept rs (half ||| upper >>> 4)

end Face

/-- The level of a data line as a bit of the byte on the lines. -/
def line (level : Pin → Bool) (k : Fin 8) : Byte :=
  if level (.data k) then UInt8.ofNat (2 ^ (k : Nat)) else 0

def upper (level : Pin → Bool) : Byte :=
  line level 4 ||| line level 5 ||| line level 6 ||| line level 7

def lower (level : Pin → Bool) : Byte :=
  line level 0 ||| line level 1 ||| line level 2 ||| line level 3

/-- The pins with the display behind them.  The strobes are counted for what is read on lines that
are not wired. -/
structure Link where
  level : Pin → Bool
  face : Face
  strobes : Nat

namespace Link

variable (wired : Bool) (stray : Nat → Byte) (l : Link)

def lowerRead : Byte := if wired then lower l.level else stray l.strobes &&& 0x0F

def set (w : PinWr) : Link := { l with level := fun pin => if pin = w.1 then w.2 else l.level pin }

def fall : Link :=
  { l with
    face := l.face.strobe (l.level .rs) (upper l.level) (l.lowerRead wired stray)
    strobes := l.strobes + 1 }

def write (w : PinWr) : Link :=
  if w = (.e, false) ∧ l.level .e = true then (l.set w).fall wired stray else l.set w

def writes (ws : List PinWr) : Link := ws.foldl (write wired stray) l

end Link

structure PinState where
  lcd : LcdData
  link : Link

/-- A call by what it does to the pins. -/
def pinStep (wired : Bool) (stray : Nat → Byte) (s : PinState) (c : Call) : PinState :=
  let (lcd, sent) := perform s.lcd c
  { lcd := lcd, link := s.link.writes wired stray (sent.flatMap (Transfer.pins lcd)) }

/-! ## One strobe -/

section Strobe

variable {wired : Bool} {stray : Nat → Byte} {l : Link} {bits : Byte}

theorem writes_append (l : Link) (as bs : List PinWr) :
    l.writes wired stray (as ++ bs) = (l.writes wired stray as).writes wired stray bs :=
  List.foldl_append

theorem writes_cons (l : Link) (w : PinWr) (ws : List PinWr) :
    l.writes wired stray (w :: ws) = (l.write wired stray w).writes wired stray ws := rfl

/-- Nothing but the enable line makes the display take anything. -/
theorem writes_eq_sets (l : Link) {ws : List PinWr} (h : ∀ w ∈ ws, w ≠ (.e, false)) :
    l.writes wired stray ws = ws.foldl Link.set l := by
  induction ws generalizing l with
  | nil => rfl
  | cons w ws ih =>
    have hw : l.write wired stray w = l.set w := if_neg fun hfall => h w List.mem_cons_self hfall.1
    show (l.write wired stray w).writes wired stray ws = ws.foldl Link.set (l.set w)
    rw [hw]
    exact ih (l.set w) fun w hmem => h w (List.mem_cons_of_mem _ hmem)

theorem raise_ne (k : Fin 8) (b : Bool) : ∀ w ∈ raise k b, w ≠ (.e, false) := by
  cases b with
  | false => exact fun _ hw => by cases hw
  | true =>
    intro w hw
    rw [List.mem_singleton.mp hw]
    exact fun h => by cases h

theorem halfWr_ne (bits : Byte) (first : Nat) : ∀ w ∈ halfWr bits first, w ≠ (.e, false) := by
  intro w hw
  simp only [halfWr, List.mem_append] at hw
  rcases hw with (((hw | hw) | hw) | hw) | hw
  · revert w
    decide
  all_goals exact raise_ne _ _ w hw

theorem byteWr_ne (bits : Byte) : ∀ w ∈ byteWr bits, w ≠ (.e, false) := by
  intro w hw
  simp only [byteWr, List.mem_append] at hw
  rcases hw with (((((((hw | hw) | hw) | hw) | hw) | hw) | hw) | hw) | hw
  · revert w
    decide
  all_goals exact raise_ne _ _ w hw

theorem sets_raise (l : Link) (k : Fin 8) (b : Bool) (pin : Pin) :
    ((raise k b).foldl Link.set l).level pin =
      if pin = .data k then b || l.level pin else l.level pin := by
  cases b with
  | false => exact (ite_self _).symm
  | true => rfl

theorem sets_face (l : Link) (ws : List PinWr) : (ws.foldl Link.set l).face = l.face := by
  induction ws generalizing l with
  | nil => rfl
  | cons w ws ih => exact ih (l.set w)

/-- Four bits of a byte, on the lines from the one of value `one` on. -/
def joined (one bits : Byte) (first : Nat) : Byte :=
  (if hasBit bits first then one else 0) ||| (if hasBit bits (first + 1) then one <<< 1 else 0) |||
    (if hasBit bits (first + 2) then one <<< 2 else 0) |||
    if hasBit bits (first + 3) then one <<< 3 else 0

theorem joined_bits : ∀ k : Fin 256,
    joined 0x10 (UInt8.ofNat k) 4 = UInt8.ofNat k &&& 0xF0 ∧
      joined 0x10 (UInt8.ofNat k) 0 = UInt8.ofNat k <<< 4 ∧
        joined 0x01 (UInt8.ofNat k) 0 = UInt8.ofNat k &&& 0x0F := by
  decide +kernel

/-- The driver has set the lines as it does before a strobe. -/
structure Driven (l l' : Link) : Prop where
  rs : l'.level .rs = l.level .rs
  e : l'.level .e = l.level .e
  face : l'.face = l.face

theorem level_halfWr (l : Link) (bits : Byte) (first k : Nat) (hk : k < 4) :
    ((halfWr bits first).foldl Link.set l).level (.data ⟨4 + k, by omega⟩) =
      hasBit bits (first + k) := by
  match k with
  | 0 | 1 | 2 | 3 => simp [halfWr, List.foldl_append, sets_raise, Link.set]

theorem set_halfWr (l : Link) (bits : Byte) (first : Nat) :
    Driven l ((halfWr bits first).foldl Link.set l) ∧
      upper ((halfWr bits first).foldl Link.set l).level = joined 0x10 bits first := by
  have hlevel := level_halfWr l bits first
  refine ⟨⟨?_, ?_, sets_face _ _⟩, ?_⟩
  · simp [halfWr, List.foldl_append, sets_raise, Link.set]
  · simp [halfWr, List.foldl_append, sets_raise, Link.set]
  · show line _ ⟨4 + 0, by decide⟩ ||| line _ ⟨4 + 1, by decide⟩ ||| line _ ⟨4 + 2, by decide⟩ |||
      line _ ⟨4 + 3, by decide⟩ = _
    unfold line
    rw [hlevel 0 (by decide), hlevel 1 (by decide), hlevel 2 (by decide), hlevel 3 (by decide)]
    rfl

theorem level_byteWr (l : Link) (bits : Byte) (k : Nat) (hk : k < 8) :
    ((byteWr bits).foldl Link.set l).level (.data ⟨k, hk⟩) = hasBit bits k := by
  match k with
  | 0 | 1 | 2 | 3 | 4 | 5 | 6 | 7 => simp [byteWr, List.foldl_append, sets_raise, Link.set]

theorem set_byteWr (l : Link) (bits : Byte) :
    Driven l ((byteWr bits).foldl Link.set l) ∧
      upper ((byteWr bits).foldl Link.set l).level = joined 0x10 bits 4 ∧
        lower ((byteWr bits).foldl Link.set l).level = joined 0x01 bits 0 := by
  have hlevel := level_byteWr l bits
  refine ⟨⟨?_, ?_, sets_face _ _⟩, ?_, ?_⟩
  · simp [byteWr, List.foldl_append, sets_raise, Link.set]
  · simp [byteWr, List.foldl_append, sets_raise, Link.set]
  · show line _ ⟨4, by decide⟩ ||| line _ ⟨5, by decide⟩ ||| line _ ⟨6, by decide⟩ |||
      line _ ⟨7, by decide⟩ = _
    unfold line
    rw [hlevel, hlevel, hlevel, hlevel]
    rfl
  · show line _ ⟨0, by decide⟩ ||| line _ ⟨1, by decide⟩ ||| line _ ⟨2, by decide⟩ |||
      line _ ⟨3, by decide⟩ = _
    unfold line
    rw [hlevel, hlevel, hlevel, hlevel]
    rfl

theorem lower_lt (level : Pin → Bool) : (lower level).toNat < 16 := by
  unfold lower line
  cases level (.data 0) <;> cases level (.data 1) <;> cases level (.data 2) <;>
    cases level (.data 3) <;> decide

theorem lowerRead_lt (l : Link) : (l.lowerRead wired stray).toNat < 16 := by
  unfold Link.lowerRead
  split
  · exact lower_lt l.level
  · rw [UInt8.toNat_and]
    exact Nat.lt_of_le_of_lt Nat.and_le_right (by decide)

/-- The enable line has fallen with `u` on the upper lines and a value of `P` on the lower ones;
once more before if it was high. -/
structure Strobed (P : Byte → Prop) (u : Byte) (l l' : Link) : Prop where
  rs : l'.level .rs = l.level .rs
  e : l'.level .e = false
  face : ∃ before low, P low ∧ l'.face = before.strobe (l.level .rs) u low ∧
    (before = l.face ∨
      l.level .e = true ∧ ∃ low, P low ∧ before = l.face.strobe (l.level .rs) u low)

theorem strobed_toggle {P : Byte → Prop} (l : Link)
    (hP : ∀ strobes, P ({ l with strobes := strobes }.lowerRead wired stray)) :
    Strobed P (upper l.level) l (l.writes wired stray piLcdToggleEnable) := by
  cases he : l.level .e with
  | false =>
    have hwrites : l.writes wired stray piLcdToggleEnable =
        (((l.set (.e, false)).set (.e, true)).set (.e, false)).fall wired stray := by
      have hfirst : l.write wired stray (.e, false) = l.set (.e, false) :=
        if_neg fun h => by rw [he] at h; cases h.2
      rw [piLcdToggleEnable, writes_cons, hfirst]
      rfl
    rw [hwrites]
    exact ⟨rfl, rfl, l.face, _, hP l.strobes, rfl, Or.inl rfl⟩
  | true =>
    have hwrites : l.writes wired stray piLcdToggleEnable =
        ((((l.set (.e, false)).fall wired stray).set (.e, true)).set (.e, false)).fall
          wired stray := by
      have hfirst : l.write wired stray (.e, false) = (l.set (.e, false)).fall wired stray :=
        if_pos ⟨rfl, he⟩
      rw [piLcdToggleEnable, writes_cons, hfirst]
      rfl
    rw [hwrites]
    exact ⟨rfl, rfl, _, _, hP (l.strobes + 1), rfl, Or.inr ⟨he, _, hP l.strobes, rfl⟩⟩

theorem Strobed.of_set {P : Byte → Prop} {u : Byte} {l₀ l l' : Link} (hset : Driven l₀ l)
    (h : Strobed P u l l') : Strobed P u l₀ l' := by
  obtain ⟨hrs, he, hface⟩ := h
  rw [hset.rs, hset.e, hset.face] at hface
  exact ⟨hrs.trans hset.rs, he, hface⟩

theorem Strobed.face_eq {P : Byte → Prop} {u : Byte} {l l' : Link} (h : Strobed P u l l')
    (he : l.level .e = false) :
    ∃ low, P low ∧ l'.face = l.face.strobe (l.level .rs) u low := by
  obtain ⟨before, low, hlow, hface, rfl | ⟨hhigh, _⟩⟩ := h.face
  · exact ⟨low, hlow, hface⟩
  · rw [he] at hhigh
    cases hhigh

/-- Half a byte, with anything on the lower lines. -/
theorem strobed_half (l : Link) (bits : Byte) (first : Nat) :
    Strobed (·.toNat < 16) (joined 0x10 bits first) l
      (l.writes wired stray (halfWr bits first ++ piLcdToggleEnable)) := by
  obtain ⟨hset, hupper⟩ := set_halfWr l bits first
  rw [writes_append, writes_eq_sets l (halfWr_ne bits first), ← hupper]
  exact (strobed_toggle _ fun strobes => lowerRead_lt _).of_set hset

/-- A byte, over lines that are all wired. -/
theorem strobed_byte (l : Link) (bits : Byte) (hwired : wired = true) :
    Strobed (· = joined 0x01 bits 0) (joined 0x10 bits 4) l
      (l.writes wired stray (piLcd8BitsWr bits)) := by
  obtain ⟨hset, hupper, hlower⟩ := set_byteWr l bits
  rw [piLcd8BitsWr, writes_append, writes_eq_sets l (byteWr_ne bits), ← hupper, ← hlower]
  exact (strobed_toggle _ fun strobes => if_pos hwired).of_set hset

end Strobe

/-! ## A transfer -/

section Transfers

variable {wired : Bool} {stray : Nat → Byte} {lcd : LcdData}

theorem exists_byte (b : Byte) : ∃ k : Fin 256, b = UInt8.ofNat k := exists_fin b.toNat_lt

theorem joined_byte (b : Byte) :
    joined 0x10 b 4 = b &&& 0xF0 ∧ joined 0x10 b 0 = b <<< 4 ∧ joined 0x01 b 0 = b &&& 0x0F := by
  obtain ⟨k, rfl⟩ := exists_byte b
  exact joined_bits k

theorem halves_bits : ∀ k : Fin 256,
    (UInt8.ofNat k &&& 0xF0) ||| (UInt8.ofNat k <<< (4 : Byte)) >>> (4 : Byte) = UInt8.ofNat k ∧
      (UInt8.ofNat k &&& 0xF0) ||| (UInt8.ofNat k &&& 0x0F) = UInt8.ofNat k := by
  decide +kernel

/-- The two halves of a byte, as it is put together of them. -/
theorem halves_byte (b : Byte) :
    (b &&& 0xF0) ||| (b <<< (4 : Byte)) >>> (4 : Byte) = b ∧ (b &&& 0xF0) ||| (b &&& 0x0F) = b := by
  obtain ⟨k, rfl⟩ := exists_byte b
  exact halves_bits k

/-- The display is where the driver has it: at the start of a byte, and in its mode. -/
structure Synced (lcd : LcdData) (l : Link) : Prop where
  e : l.level .e = false
  pending : l.face.pending = none
  eight : l.face.eight = eightBit lcd

theorem data_synced {l : Link} (h : Synced lcd l) (hwired : eightBit lcd = true → wired = true)
    (bits : Byte) :
    (l.writes wired stray (piLcdData lcd bits)).level .e = false ∧
      (l.writes wired stray (piLcdData lcd bits)).face = l.face.accept (l.level .rs) bits := by
  obtain ⟨hhigh, hlow, hrest⟩ := joined_byte bits
  unfold piLcdData
  cases hmode : eightBit lcd with
  | true =>
    have hbyte := @strobed_byte wired stray l bits (hwired hmode)
    obtain ⟨low, rfl, hface⟩ := hbyte.face_eq h.e
    have height : l.face.eight = true := h.eight.trans hmode
    rw [if_pos rfl]
    refine ⟨hbyte.e, hface.trans ?_⟩
    rw [Face.strobe, if_pos height, hhigh, hrest, (halves_byte bits).2]
  | false =>
    have hfirst := @strobed_half wired stray l bits 4
    obtain ⟨low, -, hface⟩ := hfirst.face_eq h.e
    have height : ¬ l.face.eight = true := by
      rw [h.eight, hmode]
      exact Bool.false_ne_true
    have hpending := h.pending
    have hface : (l.writes wired stray (halfWr bits 4 ++ piLcdToggleEnable)).face =
        { l.face with pending := some (joined 0x10 bits 4) } := by
      rw [hface, Face.strobe, if_neg height, hpending]
    have hsecond := @strobed_half wired stray
      (l.writes wired stray (halfWr bits 4 ++ piLcdToggleEnable)) bits 0
    obtain ⟨low, -, hface'⟩ := hsecond.face_eq hfirst.e
    rw [if_neg Bool.false_ne_true, piLcd4BitsWr, writes_append]
    refine ⟨hsecond.e, hface'.trans ?_⟩
    rw [hface, hfirst.rs, Face.strobe, if_neg height, hhigh, hlow]
    show Face.accept _ _ _ = _
    rw [(halves_byte bits).1]
    rfl

/-- The byte of a transfer, and whether it is data. -/
def Transfer.byte : Transfer → Byte
  | .command bits => bits
  | .write bits => bits

def Transfer.isData : Transfer → Bool
  | .command _ => false
  | .write _ => true

/-- A transfer that leaves the display in its mode. -/
def Keeps (eight : Bool) (t : Transfer) : Prop :=
  t.isData = false → eightAfter eight t.byte = eight

theorem pins_eq (t : Transfer) : t.pins lcd = (.rs, t.isData) :: piLcdData lcd t.byte := by
  cases t <;> rfl

theorem write_rs (l : Link) (b : Bool) : l.write wired stray (.rs, b) = l.set (.rs, b) :=
  if_neg fun h => Pin.noConfusion (congrArg Prod.fst h.1)

theorem accept_eq (f : Face) (t : Transfer) : f.accept t.isData t.byte =
    { eight := if t.isData then f.eight else eightAfter f.eight t.byte
      pending := none
      display := f.display.latch t
      taken := f.taken ++ [t] } := by
  cases t <;> rfl

theorem transfer_synced {l : Link} (h : Synced lcd l) (hwired : eightBit lcd = true → wired = true)
    {t : Transfer} (hkeeps : Keeps (eightBit lcd) t) :
    Synced lcd (l.writes wired stray (t.pins lcd)) ∧
      (l.writes wired stray (t.pins lcd)).face.display = l.face.display.latch t ∧
      (l.writes wired stray (t.pins lcd)).face.taken = l.face.taken ++ [t] := by
  have hset : Synced lcd (l.set (.rs, t.isData)) := ⟨h.e, h.pending, h.eight⟩
  obtain ⟨he, hface⟩ := @data_synced wired stray lcd _ hset hwired t.byte
  have hface : ((l.set (.rs, t.isData)).writes wired stray (piLcdData lcd t.byte)).face =
      l.face.accept t.isData t.byte := hface
  rw [accept_eq] at hface
  rw [pins_eq, writes_cons, write_rs]
  refine ⟨⟨he, congrArg Face.pending hface, (congrArg Face.eight hface).trans ?_⟩,
    congrArg Face.display hface, congrArg Face.taken hface⟩
  show (if t.isData then l.face.eight else eightAfter l.face.eight t.byte) = eightBit lcd
  rw [h.eight]
  cases hdata : t.isData with
  | true => rfl
  | false => exact hkeeps hdata

theorem transfers_synced {l : Link} (h : Synced lcd l)
    (hwired : eightBit lcd = true → wired = true) {ts : List Transfer}
    (hkeeps : ∀ t ∈ ts, Keeps (eightBit lcd) t) :
    Synced lcd (l.writes wired stray (ts.flatMap (Transfer.pins lcd))) ∧
      (l.writes wired stray (ts.flatMap (Transfer.pins lcd))).face.display =
        ts.foldl Display.latch l.face.display ∧
      (l.writes wired stray (ts.flatMap (Transfer.pins lcd))).face.taken = l.face.taken ++ ts := by
  induction ts generalizing l with
  | nil => exact ⟨h, rfl, (List.append_nil _).symm⟩
  | cons t ts ih =>
    obtain ⟨hsynced, hdisplay, htaken⟩ :=
      @transfer_synced wired stray lcd l h hwired t (hkeeps t List.mem_cons_self)
    obtain ⟨hrest, hdisplays, htakens⟩ :=
      ih hsynced fun t ht => hkeeps t (List.mem_cons_of_mem _ ht)
    rw [List.flatMap_cons, writes_append]
    refine ⟨hrest, hdisplays.trans (congrArg (ts.foldl Display.latch ·) hdisplay), ?_⟩
    rw [htakens, htaken, List.append_assoc, List.singleton_append]

/-! ## The tries -/

/-- The mode and the half of a byte, of which a command on the upper lines decides. -/
abbrev Mode := Bool × Option Byte

def Face.mode (f : Face) : Mode := (f.eight, f.pending)

def Mode.strobe (m : Mode) (u : Byte) : Mode :=
  match m with
  | (true, _) => (eightAfter true u, none)
  | (false, none) => (false, some u)
  | (false, some half) => (eightAfter false (half ||| u >>> 4), none)

theorem eightAfter_lower : ∀ u ∈ ([0x00, 0x20, 0x30] : List Byte), ∀ k : Fin 16,
    eightAfter true (u ||| UInt8.ofNat k) = eightAfter true u := by
  decide +kernel

theorem mode_strobe (f : Face) {u low : Byte} (hu : u ∈ ([0x00, 0x20, 0x30] : List Byte))
    (hlow : low.toNat < 16) : (f.strobe false u low).mode = f.mode.strobe u := by
  obtain ⟨eight, pending, display, taken⟩ := f
  cases eight with
  | true =>
    obtain ⟨k, rfl⟩ := exists_fin hlow
    exact congrArg (·, none) (eightAfter_lower u hu k)
  | false =>
    cases pending with
    | none => rfl
    | some half => rfl

/-- What a command puts on the upper lines, strobe by strobe. -/
def uppers (lcd : LcdData) (bits : Byte) : List Byte :=
  if eightBit lcd then [joined 0x10 bits 4] else [joined 0x10 bits 4, joined 0x10 bits 0]

/-- The commands of the tries. -/
def tryCommands : List Byte := [0x30, 0x03, 0x02]

theorem joined_mem : ∀ b ∈ tryCommands, joined 0x10 b 4 ∈ ([0x00, 0x20, 0x30] : List Byte) ∧
    joined 0x10 b 0 ∈ ([0x00, 0x20, 0x30] : List Byte) ∧ (joined 0x01 b 0).toNat < 16 := by
  decide +kernel

/-- A strobe, by what it makes of the mode; the first one counts twice if the enable line was
high. -/
theorem Strobed.mode {P : Byte → Prop} {u : Byte} {l l' : Link} (h : Strobed P u l l')
    (hrs : l.level .rs = false) (hu : u ∈ ([0x00, 0x20, 0x30] : List Byte))
    (hP : ∀ low, P low → low.toNat < 16) :
    l'.face.mode = l.face.mode.strobe u ∨
      l.level .e = true ∧ l'.face.mode = (l.face.mode.strobe u).strobe u := by
  obtain ⟨before, low, hlow, hface, hbefore⟩ := h.face
  rw [hrs] at hface hbefore
  rw [hface, mode_strobe before hu (hP low hlow)]
  rcases hbefore with rfl | ⟨hhigh, low', hlow', rfl⟩
  · exact Or.inl rfl
  · rw [mode_strobe l.face hu (hP low' hlow')]
    exact Or.inr ⟨hhigh, rfl⟩

theorem mode_command (l : Link) (hwired : eightBit lcd = true → wired = true) {b : Byte}
    (hb : b ∈ tryCommands) :
    (l.writes wired stray (piLcdCommand lcd b)).level .e = false ∧
      ((l.writes wired stray (piLcdCommand lcd b)).face.mode =
          (uppers lcd b).foldl Mode.strobe l.face.mode ∨
        l.level .e = true ∧ (l.writes wired stray (piLcdCommand lcd b)).face.mode =
          (joined 0x10 b 4 :: uppers lcd b).foldl Mode.strobe l.face.mode) := by
  obtain ⟨hhigh, hlow, hbyte⟩ := joined_mem b hb
  rw [piLcdCommand, writes_cons, write_rs]
  unfold piLcdData uppers
  cases hmode : eightBit lcd with
  | true =>
    have hstrobed := @strobed_byte wired stray (l.set (.rs, false)) b (hwired hmode)
    simp only [if_true]
    exact ⟨hstrobed.e, hstrobed.mode rfl hhigh fun low h => h ▸ hbyte⟩
  | false =>
    have hfirst := @strobed_half wired stray (l.set (.rs, false)) b 4
    have hsecond := @strobed_half wired stray
      ((l.set (.rs, false)).writes wired stray (halfWr b 4 ++ piLcdToggleEnable)) b 0
    rw [if_neg Bool.false_ne_true, piLcd4BitsWr, writes_append]
    refine ⟨hsecond.e, ?_⟩
    have hmode' := hsecond.mode hfirst.rs hlow fun low h => h
    rw [hfirst.e] at hmode'
    have hmode' := hmode'.resolve_right fun h => Bool.false_ne_true h.1
    rw [hmode']
    rcases hfirst.mode rfl hhigh fun low h => h with honce | ⟨he, htwice⟩
    · rw [honce]
      exact Or.inl rfl
    · rw [htwice]
      exact Or.inr ⟨he, rfl⟩

theorem mode_commands {l : Link} (hwired : eightBit lcd = true → wired = true)
    (he : l.level .e = false) {bs : List Byte} (hbs : ∀ b ∈ bs, b ∈ tryCommands) :
    (l.writes wired stray ((bs.map Transfer.command).flatMap (Transfer.pins lcd))).level .e =
        false ∧
      (l.writes wired stray ((bs.map Transfer.command).flatMap (Transfer.pins lcd))).face.mode =
        (bs.flatMap (uppers lcd)).foldl Mode.strobe l.face.mode := by
  induction bs generalizing l with
  | nil => exact ⟨he, rfl⟩
  | cons b bs ih =>
    obtain ⟨he', hmode⟩ := @mode_command wired stray lcd l hwired b (hbs b List.mem_cons_self)
    have hmode := hmode.resolve_right fun h => by rw [he] at h; exact Bool.false_ne_true h.1
    obtain ⟨hlast, hmodes⟩ := ih he' fun b hb => hbs b (List.mem_cons_of_mem _ hb)
    rw [List.map_cons, List.flatMap_cons, List.flatMap_cons, writes_append, List.foldl_append,
      ← hmode]
    exact ⟨hlast, hmodes⟩

/-- The commands that `pi_lcd_init` starts with. -/
def tries (lcd : LcdData) : List Byte :=
  if eightBit lcd then [0x30, 0x30, 0x30, 0x30] else [0x03, 0x03, 0x03, 0x02]

/-- A strobe ends a byte or begins one. -/
theorem strobe_mem (m : Mode) (u : Byte) :
    m.strobe u ∈ [(true, none), (false, none), (false, some u)] := by
  obtain ⟨eight, pending⟩ := m
  have hbyte (b : Bool) :
      (b, (none : Option Byte)) ∈ [(true, none), (false, none), (false, some u)] := by
    cases b <;> simp
  cases eight with
  | true => exact hbyte _
  | false =>
    cases pending with
    | none => simp [Mode.strobe]
    | some half => exact hbyte _

theorem strobes_eight : ∀ m ∈ ([(true, none), (false, none), (false, some 0x30)] : List Mode),
    ∀ us ∈ [List.replicate 3 0x30, List.replicate 4 0x30],
      us.foldl Mode.strobe m = (true, none) := by
  decide +kernel

theorem strobes_four : ∀ m ∈ ([(true, none), (false, none), (false, some 0x00)] : List Mode),
    ∀ us ∈ ([[0x30, 0x00, 0x30, 0x00, 0x30, 0x00, 0x20],
        [0x00, 0x30, 0x00, 0x30, 0x00, 0x30, 0x00, 0x20]] : List (List Byte)),
      us.foldl Mode.strobe m = (false, none) := by
  decide +kernel

/-- From every mode, and with a half byte before them, the tries lead to the driver's mode. -/
theorem tries_mode (lcd : LcdData) (m : Mode) {b : Byte} {bs : List Byte}
    (htries : tries lcd = b :: bs) {us : List Byte}
    (hus : us = uppers lcd b ∨ us = joined 0x10 b 4 :: uppers lcd b) :
    (us ++ bs.flatMap (uppers lcd)).foldl Mode.strobe m = (eightBit lcd, none) := by
  unfold tries at htries
  cases hmode : eightBit lcd with
  | true =>
    rw [hmode, if_pos rfl] at htries
    cases htries
    have huppers : uppers lcd 0x30 = [0x30] := by
      rw [uppers, hmode]
      decide
    rcases hus with rfl | rfl
    · simp only [huppers, List.flatMap_cons, List.flatMap_nil]
      exact strobes_eight _ (strobe_mem m 0x30) (List.replicate 3 0x30) (by decide)
    · simp only [huppers, List.flatMap_cons, List.flatMap_nil]
      exact strobes_eight _ (strobe_mem m 0x30) (List.replicate 4 0x30) (by decide)
  | false =>
    rw [hmode, if_neg Bool.false_ne_true] at htries
    cases htries
    have huppers3 : uppers lcd 0x03 = [0x00, 0x30] := by
      rw [uppers, hmode]
      decide
    have huppers2 : uppers lcd 0x02 = [0x00, 0x20] := by
      rw [uppers, hmode]
      decide
    rcases hus with rfl | rfl
    · simp only [huppers3, huppers2, List.flatMap_cons, List.flatMap_nil]
      exact strobes_four _ (strobe_mem m 0x00) [0x30, 0x00, 0x30, 0x00, 0x30, 0x00, 0x20]
        (by decide)
    · simp only [huppers3, huppers2, List.flatMap_cons, List.flatMap_nil]
      exact strobes_four _ (strobe_mem m 0x00) [0x00, 0x30, 0x00, 0x30, 0x00, 0x30, 0x00, 0x20]
        (by decide)

theorem tries_synced (l : Link) (hwired : eightBit lcd = true → wired = true) :
    Synced lcd (l.writes wired stray (((tries lcd).map Transfer.command).flatMap
      (Transfer.pins lcd))) := by
  have hboth : ∀ eight : Bool, ∀ b ∈ (if eight then [0x30, 0x30, 0x30, 0x30]
      else [0x03, 0x03, 0x03, 0x02] : List Byte), b ∈ tryCommands := by
    decide +kernel
  have hcommands : ∀ b ∈ tries lcd, b ∈ tryCommands := hboth (eightBit lcd)
  obtain ⟨b, bs, htries⟩ : ∃ b bs, tries lcd = b :: bs := by
    unfold tries
    split <;> exact ⟨_, _, rfl⟩
  rw [htries] at hcommands ⊢
  obtain ⟨he, hmode⟩ := @mode_command wired stray lcd l hwired b (hcommands b List.mem_cons_self)
  obtain ⟨hlast, hmodes⟩ := @mode_commands wired stray lcd _ hwired he bs
    fun b hb => hcommands b (List.mem_cons_of_mem _ hb)
  rw [List.map_cons, List.flatMap_cons, writes_append]
  have hfinal : ((l.writes wired stray (piLcdCommand lcd b)).writes wired stray
      ((bs.map Transfer.command).flatMap (Transfer.pins lcd))).face.mode =
        (eightBit lcd, none) := by
    rcases hmode with hmode | ⟨-, hmode⟩
    · rw [hmodes, hmode, ← List.foldl_append]
      exact tries_mode lcd _ htries (Or.inl rfl)
    · rw [hmodes, hmode, ← List.foldl_append]
      exact tries_mode lcd _ htries (Or.inr rfl)
  exact ⟨hlast, congrArg Prod.snd hfinal, congrArg Prod.fst hfinal⟩

end Transfers

/-! ## The calls -/

section Calls

variable {wired : Bool} {stray : Nat → Byte} {lcd : LcdData}

theorem keeps_of_lt {eight : Bool} {b : Byte} (h : b.toNat < 0x20) : Keeps eight (.command b) := by
  refine fun _ => if_neg fun hrange => ?_
  have hle : 0x20 ≤ b.toNat := UInt8.le_iff_toNat_le.mp hrange.1
  omega

theorem keeps_of_le {eight : Bool} {b : Byte} (h : 0x40 ≤ b) : Keeps eight (.command b) := by
  refine fun _ => if_neg fun hrange => ?_
  have hle : 0x40 ≤ b.toNat := UInt8.le_iff_toNat_le.mp h
  have hlt : b.toNat < 0x40 := UInt8.lt_iff_toNat_lt.mp hrange.2
  omega

theorem function_bits : ∀ k : Fin 256,
    eightAfter (UInt8.ofNat k &&& lcd8BitMode != 0) (lcdFunctionSet ||| UInt8.ofNat k) =
        (UInt8.ofNat k &&& lcd8BitMode != 0) ∧
      ((UInt8.ofNat k ||| lcd2Line) &&& lcd8BitMode) = UInt8.ofNat k &&& lcd8BitMode ∧
      ((UInt8.ofNat k ||| lcd5x10Dots) &&& lcd8BitMode) = UInt8.ofNat k &&& lcd8BitMode := by
  decide +kernel

theorem keeps_function (lcd : LcdData) :
    Keeps (eightBit lcd) (.command (lcdFunctionSet ||| lcd.dispFunc)) := by
  obtain ⟨k, hk⟩ := exists_byte lcd.dispFunc
  intro _
  show eightAfter (lcd.dispFunc &&& lcd8BitMode != 0) (lcdFunctionSet ||| lcd.dispFunc) = _
  rw [eightBit, hk]
  exact (function_bits k).1

/-- `pi_lcd_init` leaves the bit of the mode as it is. -/
theorem eightBit_configure (lcd : LcdData) (cols rows dotsize : Byte) :
    eightBit (configure lcd cols rows dotsize) = eightBit lcd := by
  have hline (f : Byte) : (f ||| lcd2Line) &&& lcd8BitMode = f &&& lcd8BitMode := by
    obtain ⟨k, rfl⟩ := exists_byte f
    exact (function_bits k).2.1
  have hdots (f : Byte) : (f ||| lcd5x10Dots) &&& lcd8BitMode = f &&& lcd8BitMode := by
    obtain ⟨k, rfl⟩ := exists_byte f
    exact (function_bits k).2.2
  unfold eightBit configure
  dsimp only
  split <;> split <;> simp only [hline, hdots]

theorem eightBit_perform (lcd : LcdData) (c : Call) :
    eightBit (perform lcd c).1 = eightBit lcd := by
  cases c with
  | init cols rows dotsize => exact eightBit_configure lcd cols rows dotsize
  | _ => rfl

theorem keeps_tries (lcd : LcdData) : ∀ b ∈ tries lcd, Keeps (eightBit lcd) (.command b) := by
  have hboth : ∀ eight : Bool, ∀ b ∈ (if eight then [0x30, 0x30, 0x30, 0x30]
      else [0x03, 0x03, 0x03, 0x02] : List Byte), eightAfter eight b = eight := by
    decide +kernel
  exact fun b hb _ => hboth (eightBit lcd) b hb

theorem perform_init (lcd : LcdData) (cols rows dotsize : Byte) :
    ∃ rest, (perform lcd (.init cols rows dotsize)).2 =
        (tries (perform lcd (.init cols rows dotsize)).1).map Transfer.command ++ rest ∧
      ∀ t ∈ rest, Keeps (eightBit (perform lcd (.init cols rows dotsize)).1) t := by
  let config := configure lcd cols rows dotsize
  have htries : (if config.dispFunc &&& lcd8BitMode ≠ 0 then
      [.command 0x30, .command 0x30, .command 0x30, .command 0x30]
      else [.command 0x03, .command 0x03, .command 0x03, .command 0x02] : List Transfer) =
      (tries (perform lcd (.init cols rows dotsize)).1).map Transfer.command := by
    show _ = (if config.dispFunc &&& lcd8BitMode != 0 then _ else _ : List Byte).map _
    by_cases h : config.dispFunc &&& lcd8BitMode = 0
    · rw [if_neg (by simpa using h), if_neg (by simpa using h)]
      rfl
    · rw [if_pos h, if_pos (by simpa using h)]
      rfl
  refine ⟨[.command (lcdFunctionSet ||| config.dispFunc),
    .command (lcdDisplayControl |||
      (lcdDisplayOn ||| lcdCursorOff ||| lcdBlinkOff ||| lcdDisplayOn)),
    .command lcdClearDisplay,
    .command (lcdEntryModeSet ||| (lcdEntryLeft ||| lcdEntryShiftDecrement))], ?_, ?_⟩
  · rw [← htries]
    show (_ ++ [_] ++ [_] ++ [_] ++ [_] : List Transfer) = _
    rw [List.append_assoc, List.append_assoc, List.append_assoc]
    rfl
  · intro t ht
    simp only [List.mem_cons, List.not_mem_nil, or_false] at ht
    rcases ht with rfl | rfl | rfl | rfl
    · exact keeps_function config
    · exact keeps_of_lt (by decide)
    · exact keeps_of_lt (by decide)
    · exact keeps_of_lt (by decide)

theorem keeps_setControl {cntl : Byte} (h : cntl.toNat < 8) :
    ∀ t ∈ (setControl lcd cntl).2, Keeps (eightBit lcd) t := by
  intro t ht
  rw [List.mem_singleton.mp ht]
  refine keeps_of_lt (Nat.lt_of_lt_of_le (or_lt (n := 4) (by decide) ?_) (by decide))
  omega

theorem keeps_setMode (hready : Ready lcd) (mode : Byte) :
    ∀ t ∈ (setMode lcd mode).2, Keeps (eightBit lcd) t := by
  intro t ht
  rw [List.mem_singleton.mp ht]
  exact keeps_of_lt (Nat.lt_of_lt_of_le (or_lt (n := 3) (by decide) hready.cntl) (by decide))

theorem keeps_command {b : Byte} (h : b.toNat < 0x20) :
    ∀ t ∈ [Transfer.command b], Keeps (eightBit lcd) t := by
  intro t ht
  rw [List.mem_singleton.mp ht]
  exact keeps_of_lt h

theorem keeps_perform (hready : Ready lcd) (c : Call) :
    ∀ t ∈ (perform lcd c).2, Keeps (eightBit (perform lcd c).1) t := by
  rw [eightBit_perform]
  have hcntl := hready.cntl
  cases c with
  | init cols rows dotsize =>
    obtain ⟨rest, hsent, hrest⟩ := perform_init lcd cols rows dotsize
    rw [eightBit_perform] at hrest
    rw [hsent]
    intro t ht
    rcases List.mem_append.mp ht with ht | ht
    · obtain ⟨b, hb, rfl⟩ := List.mem_map.mp ht
      have hkeeps := keeps_tries _ b hb
      rw [eightBit_perform] at hkeeps
      exact hkeeps
    · exact hrest t ht
  | setCursor col row =>
    intro t ht
    rw [List.mem_singleton.mp ht]
    exact keeps_of_le (UInt8.le_trans (by decide) (address_command _))
  | displayOn => exact keeps_setControl (or_lt (n := 3) hcntl (by decide))
  | cursorOn => exact keeps_setControl (or_lt (n := 3) hcntl (by decide))
  | blinkOn => exact keeps_setControl (or_lt (n := 3) hcntl (by decide))
  | displayOff => exact keeps_setControl (and_lt hcntl _)
  | cursorOff => exact keeps_setControl (and_lt hcntl _)
  | blinkOff => exact keeps_setControl (and_lt hcntl _)
  | leftToRight => exact keeps_setMode hready _
  | rightToLeft => exact keeps_setMode hready _
  | autoScrollRight => exact keeps_setMode hready _
  | autoScrollLeft => exact keeps_setMode hready _
  | home => exact keeps_command (by decide)
  | clear => exact keeps_command (by decide)
  | scrollLeft => exact keeps_command (by decide)
  | scrollRight => exact keeps_command (by decide)
  | string msg =>
    intro t ht
    obtain ⟨b, -, rfl⟩ := List.mem_map.mp ht
    exact fun h => Bool.noConfusion h

/-- The pins and the transfers have the same registers and the same display, which waits for a
byte in the driver's mode. -/
structure Sim (a : State) (s : PinState) : Prop where
  lcd : s.lcd = a.lcd
  display : s.link.face.display = a.display
  synced : Synced s.lcd s.link
  ready : Ready s.lcd

/-- The transfers of the calls. -/
def sent : LcdData → List Call → List Transfer
  | _, [] => []
  | lcd, c :: cs => (perform lcd c).2 ++ sent (perform lcd c).1 cs

theorem sim_step {a : State} {s : PinState} (h : Sim a s)
    (hwired : eightBit s.lcd = true → wired = true) {c : Call} (hrow : HasRow a c) :
    Sim (step a c) (pinStep wired stray s c) ∧
      (pinStep wired stray s c).link.face.taken = s.link.face.taken ++ (perform s.lcd c).2 := by
  obtain ⟨hlcd, hdisplay, hsynced, hready⟩ := h
  have hbit := eightBit_perform s.lcd c
  have hsynced' : Synced (perform s.lcd c).1 s.link :=
    ⟨hsynced.e, hsynced.pending, hsynced.eight.trans hbit.symm⟩
  obtain ⟨hnext, hdisplays, htaken⟩ :=
    @transfers_synced wired stray (perform s.lcd c).1 s.link hsynced' (hbit ▸ hwired)
      (perform s.lcd c).2 (keeps_perform hready c)
  have hstep : (step a c).lcd = (perform s.lcd c).1 := by rw [hlcd]; rfl
  refine ⟨⟨hstep.symm, ?_, hnext, ?_⟩, htaken⟩
  · refine hdisplays.trans ?_
    rw [hdisplay, hlcd]
    rfl
  · have hready' := ready_step (hlcd ▸ hready : Ready a.lcd) hrow
    rw [hstep] at hready'
    exact hready'

theorem sim_run {a : State} {s : PinState} (h : Sim a s)
    (hwired : eightBit s.lcd = true → wired = true) {cs : List Call}
    (hrows : Along step HasRow a cs) :
    Sim (run step a cs) (run (pinStep wired stray) s cs) ∧
      (run (pinStep wired stray) s cs).link.face.taken = s.link.face.taken ++ sent s.lcd cs := by
  induction cs generalizing a s with
  | nil => exact ⟨h, (List.append_nil _).symm⟩
  | cons c cs ih =>
    have hwired' : eightBit (perform s.lcd c).1 = true → wired = true :=
      (eightBit_perform s.lcd c).symm ▸ hwired
    obtain ⟨hsim, htaken⟩ := @sim_step wired stray a s h hwired c hrows.1
    obtain ⟨hsims, htakens⟩ := ih hsim hwired' hrows.2
    refine ⟨hsims, htakens.trans ?_⟩
    rw [htaken, List.append_assoc]
    rfl

theorem foldl_tryCommands (lcd : LcdData) (d : Display) :
    ((tries lcd).map Transfer.command).foldl Display.latch d = d := by
  unfold tries
  split <;> rfl

/-- `pi_lcd_init` finds a display to start from, wherever the pins and the interface are; after its
tries no byte gets lost. -/
theorem sim_init (lcd : LcdData) (link : Link) (cols rows dotsize : Byte) (hrows : 1 ≤ rows)
    (hwired : eightBit lcd = true → wired = true) :
    ∃ display before, Sim (step ⟨lcd, display⟩ (.init cols rows dotsize))
        (pinStep wired stray ⟨lcd, link⟩ (.init cols rows dotsize)) ∧
      (pinStep wired stray ⟨lcd, link⟩ (.init cols rows dotsize)).link.face.taken =
        before ++ (perform lcd (.init cols rows dotsize)).2.drop 4 := by
  obtain ⟨rest, hsent, hrest⟩ := perform_init lcd cols rows dotsize
  let lcd' := (perform lcd (.init cols rows dotsize)).1
  let tried := link.writes wired stray
    (((tries lcd').map Transfer.command).flatMap (Transfer.pins lcd'))
  have hwired' : eightBit lcd' = true → wired = true :=
    (eightBit_perform lcd (.init cols rows dotsize)).symm ▸ hwired
  have htries : Synced lcd' tried := tries_synced link hwired'
  obtain ⟨hnext, hdisplays, htaken⟩ :=
    @transfers_synced wired stray lcd' tried htries hwired' rest hrest
  have hlink : (pinStep wired stray ⟨lcd, link⟩ (.init cols rows dotsize)).link =
      tried.writes wired stray (rest.flatMap (Transfer.pins lcd')) := by
    show link.writes wired stray
      ((perform lcd (.init cols rows dotsize)).2.flatMap (Transfer.pins lcd')) = _
    rw [hsent, List.flatMap_append, writes_append]
  refine ⟨tried.face.display, tried.face.taken, ⟨rfl, ?_, ?_, ?_⟩, ?_⟩
  · show _ = (perform lcd (.init cols rows dotsize)).2.foldl Display.latch tried.face.display
    rw [hlink, hsent, List.foldl_append, foldl_tryCommands]
    exact hdisplays
  · rw [hlink]
    exact hnext
  · exact ready_init ⟨lcd, tried.face.display⟩ cols rows dotsize hrows
  · have hfour : ((tries lcd').map Transfer.command).length = 4 := by
      unfold tries
      split <;> rfl
    rw [hlink, hsent, htaken, List.drop_left' hfour]

/-! ### The characters -/

/-- The byte of a transfer to the display's memory. -/
def Transfer.char : Transfer → Option Byte
  | .command _ => none
  | .write bits => some bits

/-- The characters that a call is to write. -/
def Call.chars : Call → List Byte
  | .string msg => msg
  | _ => []

/-- No call but `pi_lcd_string` writes characters, and it writes all of the message. -/
theorem chars_perform (lcd : LcdData) (c : Call) :
    (perform lcd c).2.filterMap Transfer.char = c.chars := by
  cases c with
  | init cols rows dotsize =>
    show (piLcdInit lcd cols rows dotsize).2.filterMap Transfer.char = []
    unfold piLcdInit
    dsimp only
    split <;> rfl
  | string msg =>
    show (msg.map Transfer.write).filterMap Transfer.char = msg
    rw [List.filterMap_map]
    exact List.filterMap_some
  | _ => rfl

theorem chars_sent (lcd : LcdData) (cs : List Call) :
    (sent lcd cs).filterMap Transfer.char = cs.flatMap Call.chars := by
  induction cs generalizing lcd with
  | nil => rfl
  | cons c cs ih =>
    rw [sent, List.filterMap_append, chars_perform, ih, List.flatMap_cons]

end Calls

/-- From whatever state the pins and the interface of the display are in, `pi_lcd_init` and the
calls after it do to the display over the pins what they do to one that takes whole transfers.
What it takes from the tries on is what the calls send, and its characters are those of the
strings. -/
theorem pins_refine_transfers (wired : Bool) (stray : Nat → Byte) (lcd : LcdData) (link : Link)
    (cols rows dotsize : Byte) (hrows : 1 ≤ rows) (hwired : eightBit lcd = true → wired = true) :
    ∃ display before, ∀ cs,
      Along step HasRow (step ⟨lcd, display⟩ (.init cols rows dotsize)) cs →
      Sim (run step ⟨lcd, display⟩ (.init cols rows dotsize :: cs))
          (run (pinStep wired stray) ⟨lcd, link⟩ (.init cols rows dotsize :: cs)) ∧
        ∃ after,
          (run (pinStep wired stray) ⟨lcd, link⟩ (.init cols rows dotsize :: cs)).link.face.taken =
            before ++ after ∧
          after = (sent lcd (.init cols rows dotsize :: cs)).drop 4 ∧
          after.filterMap Transfer.char = cs.flatMap Call.chars := by
  obtain ⟨display, before, hsim, htaken⟩ :=
    @sim_init wired stray lcd link cols rows dotsize hrows hwired
  have hwired' : eightBit (perform lcd (.init cols rows dotsize)).1 = true → wired = true :=
    (eightBit_perform lcd (.init cols rows dotsize)).symm ▸ hwired
  refine ⟨display, before, fun cs hcs => ?_⟩
  obtain ⟨hsims, htakens⟩ := @sim_run wired stray _ _ hsim hwired' cs hcs
  have hsent : sent lcd (.init cols rows dotsize :: cs) =
      (perform lcd (.init cols rows dotsize)).2 ++
        sent (perform lcd (.init cols rows dotsize)).1 cs := rfl
  have hlong : 4 ≤ (perform lcd (.init cols rows dotsize)).2.length := by
    obtain ⟨rest, heq, -⟩ := perform_init lcd cols rows dotsize
    rw [heq, List.length_append, List.length_map, tries]
    split <;> exact Nat.le_add_right 4 _
  have hchars :
      ((perform lcd (.init cols rows dotsize)).2.drop 4).filterMap Transfer.char = [] := by
    have hall := chars_perform lcd (.init cols rows dotsize)
    rw [← List.take_append_drop 4 (perform lcd (.init cols rows dotsize)).2,
      List.filterMap_append] at hall
    exact (List.append_eq_nil_iff.mp hall).2
  refine ⟨hsims, _, ?_, rfl, ?_⟩
  · rw [hsent, List.drop_append_of_le_length hlong, ← List.append_assoc, ← htaken]
    exact htakens
  · rw [hsent, List.drop_append_of_le_length hlong, List.filterMap_append, hchars, chars_sent,
      List.nil_append]

/-- The display as `main` sets it up, found in the middle of a byte with the enable line high. -/
theorem pins_refine_transfers_main :
    (1 : Byte) ≤ 4 ∧ ∃ display before, Sim
        (run step ⟨⟨0, 0, 0, 0, #v[0, 0, 0, 0]⟩, display⟩
          [.init 20 4 lcd5x8Dots, .clear, .string [0x48, 0x69]])
        (run (pinStep false fun _ => 0x0F)
          ⟨⟨0, 0, 0, 0, #v[0, 0, 0, 0]⟩, ⟨fun _ => true, ⟨false, some 0x30, ⟨0, 0, 0⟩, []⟩, 0⟩⟩
          [.init 20 4 lcd5x8Dots, .clear, .string [0x48, 0x69]]) ∧
      ∃ after,
        (run (pinStep false fun _ => 0x0F)
          ⟨⟨0, 0, 0, 0, #v[0, 0, 0, 0]⟩, ⟨fun _ => true, ⟨false, some 0x30, ⟨0, 0, 0⟩, []⟩, 0⟩⟩
          [.init 20 4 lcd5x8Dots, .clear, .string [0x48, 0x69]]).link.face.taken =
            before ++ after ∧
        after = (sent ⟨0, 0, 0, 0, #v[0, 0, 0, 0]⟩
          [.init 20 4 lcd5x8Dots, .clear, .string [0x48, 0x69]]).drop 4 ∧
        after.filterMap Transfer.char = [0x48, 0x69] := by
  obtain ⟨display, before, hrun⟩ := pins_refine_transfers false (fun _ => 0x0F)
    ⟨0, 0, 0, 0, #v[0, 0, 0, 0]⟩ ⟨fun _ => true, ⟨false, some 0x30, ⟨0, 0, 0⟩, []⟩, 0⟩ 20 4
    lcd5x8Dots (by decide) (by decide)
  exact ⟨by decide, display, before,
    hrun [.clear, .string [0x48, 0x69]] ⟨trivial, trivial, trivial⟩⟩

end LcdHd44780
end ZephyrSamples
