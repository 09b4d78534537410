import ZephyrSamples.Lib.Runs
import Mathlib.Data.List.Basic

/-!
# The SPI FRAM

One routine builds the transfers of all commands.  For the commands that carry no address it leaves
the length of the command buffer at 0, so neither the command that sets the write enable latch nor
the one that asks for the identification reaches the device, and the identification is looked for
in a buffer that nothing is received into.  So a write has its effect only if the latch was set
before, or the memory holds the data already.
-/

namespace ZephyrSamples
namespace SpiFram

open Runs

abbrev Byte := UInt8

/-- The bytes of the memory. -/
def size : Nat := 8192

abbrev Memory := Fin size → Byte

/-- `MB85RS64V_MANUFACTURER_ID_CMD` -/
def manufacturerIdCmd : Byte := 0x9f

/-- `MB85RS64V_WRITE_ENABLE_CMD` -/
def writeEnableCmd : Byte := 0x06

/-- `MB85RS64V_READ_CMD` -/
def readCmd : Byte := 0x03

/-- `MB85RS64V_WRITE_CMD` -/
def writeCmd : Byte := 0x02

/-! ## The device -/

/-- Four identification bytes. -/
structure Id where
  b0 : Byte
  b1 : Byte
  b2 : Byte
  b3 : Byte
  deriving DecidableEq

def Id.bytes (id : Id) : List Byte := [id.b0, id.b1, id.b2, id.b3]

/-- The memory, the write enable latch, the identification, and the level of the line while the
device sends nothing. -/
structure Device where
  mem : Memory
  latch : Bool
  id : Id
  idle : Byte

/-- The `i`-th byte of the memory, if `data` is at `addr`. -/
def byteAt (addr : Nat) (data : List Byte) (i : Fin size) : Option Byte :=
  if addr ≤ i then data[i - addr]? else none

/-- The memory with `data` at `addr`. -/
def store (mem : Memory) (addr : Nat) (data : List Byte) : Memory :=
  fun i => (byteAt addr data i).getD (mem i)

namespace Device

/-- What is sent for an address. -/
def peek (d : Device) (addr : Nat) : Byte :=
  if h : addr < size then d.mem ⟨addr, h⟩ else d.idle

def silence (d : Device) (mosi : List Byte) : List Byte := mosi.map fun _ => d.idle

def address (hi lo : Byte) : Nat := 256 * hi.toNat + lo.toNat

/-- The bytes that are clocked out of the controller while the device is selected: what becomes of
the device, and the bytes that are clocked in meanwhile. -/
def exchange (d : Device) (mosi : List Byte) : Device × List Byte :=
  match mosi with
  | [] => (d, [])
  | cmd :: rest =>
    if cmd = writeEnableCmd then ({ d with latch := true }, d.silence mosi)
    else if cmd = writeCmd then
      match rest with
      | hi :: lo :: data =>
        if d.latch then
          ({ d with mem := store d.mem (address hi lo) data, latch := false }, d.silence mosi)
        else (d, d.silence mosi)
      | _ => (d, d.silence mosi)
    else if cmd = readCmd then
      match rest with
      | hi :: lo :: dummy =>
        (d, d.idle :: d.idle :: d.idle ::
          (List.range dummy.length).map fun i => d.peek (address hi lo + i))
      | _ => (d, d.silence mosi)
    else if cmd = manufacturerIdCmd then
      (d, d.idle :: (d.id.bytes ++ d.silence rest).take rest.length)
    else (d, d.silence mosi)

end Device

/-! ## The driver -/

/-- `struct spi_buf`: what is in the buffer, and how much of it is transferred -/
structure SpiBuf where
  buf : List Byte
  len : Nat := 0

/-- The bytes of a buffer set. -/
def clockedOut (bufs : List SpiBuf) : List Byte := bufs.flatMap fun b => b.buf.take b.len

/-- The buffers of a set with what is clocked in. -/
def clockIn : List SpiBuf → List Byte → List SpiBuf
  | [], _ => []
  | b :: bufs, miso =>
    { b with buf := miso.take b.len ++ b.buf.drop b.len } :: clockIn bufs (miso.drop b.len)

/-- `spi_write`, of a transfer that succeeds -/
def spiWrite (d : Device) (tx : List SpiBuf) : Device × Int :=
  ((d.exchange (clockedOut tx)).1, 0)

/-- `spi_transceive`, of a transfer that succeeds -/
def spiTransceive (d : Device) (tx rx : List SpiBuf) : Device × List SpiBuf × Int :=
  let (d, miso) := d.exchange (clockedOut tx)
  (d, clockIn rx miso, 0)

/-! ## The sample -/

/-- `-EIO` -/
def eio : Int := -5

/-- `mb85rs64v_access`: also what is in `data` afterwards.  Of the three bytes of `access`, those
that are not set here are not transferred. -/
def mb85rs64vAccess (d : Device) (cmd : Byte) (addr : UInt16) (data : List Byte) (len : Nat) :
    Device × List Byte × Int :=
  if cmd = writeCmd ∨ cmd = readCmd then
    let access := [cmd, ((addr >>> 8) &&& 0xFF).toUInt8, (addr &&& 0xFF).toUInt8]
    let bufs : List SpiBuf := [{ buf := access, len := 3 }, { buf := data, len }]
    if cmd = readCmd then
      let (d, bufs, err) := spiTransceive d bufs bufs
      (d, (bufs[1]?.map SpiBuf.buf).getD data, err)
    else
      let (d, err) := spiWrite d bufs
      (d, data, err)
  else
    let bufs : List SpiBuf := [{ buf := [cmd] }, { buf := data, len }]
    let (d, err) := spiWrite d (bufs.take 1)
    (d, data, err)

/-- `mb85rs64v_read_id`, where `stack` is in `id` at first: what it returns -/
def mb85rs64vReadId (d : Device) (stack : Id) : Device × Int :=
  let (d, id, err) := mb85rs64vAccess d manufacturerIdCmd 0 stack.bytes 4
  if err ≠ 0 then (d, eio)
  else if id.getD 0 0 ≠ 0x04 then (d, eio)
  else if id.getD 1 0 ≠ 0x7f then (d, eio)
  else if id.getD 2 0 ≠ 0x03 then (d, eio)
  else if id.getD 3 0 ≠ 0x02 then (d, eio)
  else (d, 0)

/-- `write_bytes` -/
def writeBytes (d : Device) (addr : UInt16) (data : List Byte) (numBytes : Nat) : Device × Int :=
  let (d, _, err) := mb85rs64vAccess d writeEnableCmd 0 [] 0
  if err ≠ 0 then (d, eio)
  else
    let (d, _, err) := mb85rs64vAccess d writeCmd addr data numBytes
    if err ≠ 0 then (d, eio) else (d, 0)

/-- `read_bytes`: also what is in `data` afterwards -/
def readBytes (d : Device) (addr : UInt16) (data : List Byte) (numBytes : Nat) :
    Device × List Byte × Int :=
  let (d, data, err) := mb85rs64vAccess d readCmd addr data numBytes
  if err ≠ 0 then (d, data, eio) else (d, data, 0)

/-! ## Calls -/

/-- An address and a buffer, which fits there. -/
structure Block where
  addr : UInt16
  data : List Byte
  fits : addr.toNat + data.length ≤ size

inductive Call where
  | write (b : Block)
  | read (b : Block)

/-- The device, and what the memory is to hold: what was written last, or was there at first. -/
structure System where
  dev : Device
  written : Memory

def step (s : System) : Call → System
  | .write b =>
    { dev := (writeBytes s.dev b.addr b.data b.data.length).1
      written := store s.written b.addr.toNat b.data }
  | .read b => { s with dev := (readBytes s.dev b.addr b.data b.data.length).1 }

/-- A write changes the addressed bytes and nothing else, and a read leaves what was written last in
the buffer and changes nothing. -/
def Right (s : System) : Call → Prop
  | .write b =>
    (writeBytes s.dev b.addr b.data b.data.length).1.mem = store s.dev.mem b.addr.toNat b.data
  | .read b =>
    let (d, data, _) := readBytes s.dev b.addr b.data b.data.length
    d.mem = s.dev.mem ∧ data.length = b.data.length ∧
      ∀ i, (byteAt b.addr.toNat b.data i).isSome → byteAt b.addr.toNat data i = some (s.written i)

/-- The latch is set, or the memory holds what is to be written. -/
def Effective (s : System) : Call → Prop
  | .write b =>
    s.dev.latch = true ∨ ∀ i byte, byteAt b.addr.toNat b.data i = some byte → s.dev.mem i = byte
  | .read _ => True

/-! ## The memory -/

theorem address_addr (addr : UInt16) :
    Device.address ((addr >>> 8) &&& 0xFF).toUInt8 (addr &&& 0xFF).toUInt8 = addr.toNat := by
  have hand (n : Nat) : n &&& 255 = n % 256 := Nat.and_two_pow_sub_one_eq_mod n 8
  have hlt := addr.toNat_lt
  have hhi : ((addr >>> 8) &&& 0xFF).toUInt8.toNat = addr.toNat / 256 := by
    have hshift : (addr >>> 8).toNat = addr.toNat / 256 := by
      rw [UInt16.toNat_shiftRight, Nat.shiftRight_eq_div_pow]
      rfl
    rw [UInt16.toNat_toUInt8, UInt16.toNat_and, hshift]
    show (addr.toNat / 256 &&& 255) % 2 ^ 8 = addr.toNat / 256
    rw [hand]
    omega
  have hlo : (addr &&& 0xFF).toUInt8.toNat = addr.toNat % 256 := by
    rw [UInt16.toNat_toUInt8, UInt16.toNat_and]
    show (addr.toNat &&& 255) % 2 ^ 8 = addr.toNat % 256
    rw [hand]
    omega
  rw [Device.address, hhi, hlo]
  exact Nat.div_add_mod addr.toNat 256

theorem byteAt_eq_some {addr : Nat} {data : List Byte} {i : Fin size} {byte : Byte} :
    byteAt addr data i = some byte ↔ addr ≤ i ∧ data[i - addr]? = some byte := by
  unfold byteAt
  split_ifs with h <;> simp [h]

theorem store_eq_self_iff {mem : Memory} {addr : Nat} {data : List Byte} :
    mem = store mem addr data ↔ ∀ i byte, byteAt addr data i = some byte → mem i = byte := by
  constructor
  · intro h i byte hi
    rw [h, store, hi]
    rfl
  · intro h
    funext i
    cases hi : byteAt addr data i with
    | none => rw [store, hi]; rfl
    | some byte => rw [store, hi, h i byte hi]; rfl

/-! ## What the calls do -/

/-- Commands without an address do not reach the device. -/
theorem access_without_addr {cmd : Byte} (hwrite : cmd ≠ writeCmd) (hread : cmd ≠ readCmd)
    (d : Device) (addr : UInt16) (data : List Byte) (len : Nat) :
    mb85rs64vAccess d cmd addr data len = (d, data, 0) := by
  have hneither : ¬ (cmd = writeCmd ∨ cmd = readCmd) := by
    rintro (h | h)
    · exact hwrite h
    · exact hread h
  rw [mb85rs64vAccess, if_neg hneither]
  rfl

theorem access_write (d : Device) (addr : UInt16) (data : List Byte) :
    mb85rs64vAccess d writeCmd addr data data.length =
      (if d.latch then { d with mem := store d.mem addr.toNat data, latch := false } else d,
        data, 0) := by
  have hne : writeCmd ≠ readCmd := by decide
  have hne' : writeCmd ≠ writeEnableCmd := by decide
  rw [mb85rs64vAccess, if_pos (Or.inl rfl), if_neg hne]
  simp only [spiWrite, clockedOut, List.flatMap_cons, List.flatMap_nil, List.take_length,
    List.append_nil, List.take_succ_cons, List.take_zero, List.cons_append, List.nil_append,
    Device.exchange, if_neg hne', if_true, address_addr]
  split_ifs <;> rfl

theorem access_read (d : Device) (addr : UInt16) (data : List Byte) :
    mb85rs64vAccess d readCmd addr data data.length =
      (d, (List.range data.length).map fun i => d.peek (addr.toNat + i), 0) := by
  have hne : readCmd ≠ writeEnableCmd := by decide
  have hne' : readCmd ≠ writeCmd := by decide
  have hall : ((List.range data.length).map fun i => d.peek (addr.toNat + i)).take data.length =
      (List.range data.length).map fun i => d.peek (addr.toNat + i) :=
    List.take_of_length_le (by simp)
  rw [mb85rs64vAccess, if_pos (Or.inr rfl), if_pos rfl]
  simp only [spiTransceive, clockedOut, List.flatMap_cons, List.flatMap_nil, List.take_length,
    List.append_nil, List.take_succ_cons, List.take_zero, List.cons_append, List.nil_append,
    Device.exchange, if_neg hne, if_neg hne', if_true, address_addr, clockIn, List.drop_succ_cons,
    List.drop_zero, List.drop_length]
  simp [hall]

theorem writeBytes_eq (d : Device) (addr : UInt16) (data : List Byte) :
    writeBytes d addr data data.length =
      (if d.latch then { d with mem := store d.mem addr.toNat data, latch := false } else d,
        0) := by
  rw [writeBytes, access_without_addr (by decide) (by decide)]
  simp only [access_write]
  rfl

theorem readBytes_eq (d : Device) (addr : UInt16) (data : List Byte) :
    readBytes d addr data data.length =
      (d, (List.range data.length).map fun i => d.peek (addr.toNat + i), 0) := by
  rw [readBytes, access_read]
  rfl

/-- The identification that `mb85rs64v_read_id` looks for. -/
def mb85rs64vId : Id := ⟨0x04, 0x7f, 0x03, 0x02⟩

/-- It looks for it in what was on the stack. -/
theorem readId_eq (d : Device) (stack : Id) :
    mb85rs64vReadId d stack = (d, if stack = mb85rs64vId then 0 else eio) := by
  rw [mb85rs64vReadId, access_without_addr (by decide) (by decide)]
  obtain ⟨b0, b1, b2, b3⟩ := stack
  simp only [Id.bytes, mb85rs64vId, Id.mk.injEq]
  by_cases h0 : b0 = 0x04 <;> by_cases h1 : b1 = 0x7f <;> by_cases h2 : b2 = 0x03 <;>
    by_cases h3 : b3 = 0x02 <;> simp [h0, h1, h2, h3]

theorem readId_eq_zero_iff (d : Device) (stack : Id) :
    (mb85rs64vReadId d stack).2 = 0 ↔ stack = mb85rs64vId := by
  rw [readId_eq]
  split_ifs with h
  · exact iff_of_true rfl h
  · exact iff_of_false (show eio ≠ 0 by decide) h

/-! ## Runs -/

theorem read_right {s : System} (hs : s.written = s.dev.mem) (b : Block) :
    Right s (.read b) := by
  show ((readBytes s.dev b.addr b.data b.data.length).1).mem = _ ∧
    (readBytes s.dev b.addr b.data b.data.length).2.1.length = _ ∧ ∀ i, _ →
      byteAt _ (readBytes s.dev b.addr b.data b.data.length).2.1 i = _
  rw [readBytes_eq]
  refine ⟨rfl, by simp, fun i hi => ?_⟩
  obtain ⟨byte, hbyte⟩ := Option.isSome_iff_exists.mp hi
  obtain ⟨hle, hget⟩ := byteAt_eq_some.mp hbyte
  have hlt : i - b.addr.toNat < b.data.length := by
    by_contra hge
    rw [List.getElem?_eq_none (by omega)] at hget
    exact nomatch hget
  have hpeek : s.dev.peek (b.addr.toNat + (i - b.addr.toNat)) = s.dev.mem i := by
    have hsum : b.addr.toNat + (i - b.addr.toNat) = i := by omega
    rw [hsum, Device.peek, dif_pos i.isLt]
  refine byteAt_eq_some.mpr ⟨hle, ?_⟩
  rw [List.getElem?_map, List.getElem?_range hlt, Option.map_some, hpeek, hs]

theorem right_iff {s : System} (hs : s.written = s.dev.mem) (call : Call) :
    Right s call ↔ Effective s call := by
  cases call with
  | read b => exact iff_of_true (read_right hs b) trivial
  | write b =>
    show (writeBytes s.dev b.addr b.data b.data.length).1.mem = _ ↔ _
    rw [writeBytes_eq]
    by_cases hlatch : s.dev.latch = true
    · rw [if_pos hlatch]
      exact iff_of_true rfl (Or.inl hlatch)
    · rw [if_neg hlatch]
      exact store_eq_self_iff.trans (or_iff_right hlatch).symm

theorem written_step {s : System} (hs : s.written = s.dev.mem) {call : Call}
    (hright : Right s call) : (step s call).written = (step s call).dev.mem := by
  cases call with
  | read b =>
    show s.written = (readBytes s.dev b.addr b.data b.data.length).1.mem
    rw [readBytes_eq]
    exact hs
  | write b =>
    show store s.written b.addr.toNat b.data = _
    rw [hs]
    exact hright.symm

/-- All calls do what they are to, exactly when every write finds the latch set or the memory as it
is to leave it; and the identification is told right, exactly when the stack holds the right one if
and only if the device does. -/
theorem right_iff_effective (d : Device) (calls : List Call) (stack : Id) :
    (Along step Right { dev := d, written := d.mem } calls ↔
        Along step Effective { dev := d, written := d.mem } calls) ∧
      (((mb85rs64vReadId d stack).2 = 0 ↔ d.id = mb85rs64vId) ↔
        (stack = mb85rs64vId ↔ d.id = mb85rs64vId)) := by
  refine ⟨?_, by rw [readId_eq_zero_iff]⟩
  refine along_iff_of_invariant step (H := fun _ _ => True)
    (I := fun s => s.written = s.dev.mem) (fun s call hs _ heffective => ?_)
    (fun s call hs _ => right_iff hs call) rfl (along_of_forall step fun _ _ _ => trivial)
  exact written_step hs ((right_iff hs call).mpr heffective)

/-- A device with the right identification and all bytes 0. -/
def fresh : Device := { mem := fun _ => 0, latch := false, id := mb85rs64vId, idle := 0xFF }

/-- The first write of the sample is ignored, and the stack does not hold the identification. -/
theorem first_write_lost :
    ¬ Along step Right { dev := fresh, written := fresh.mem } [.write ⟨0, [0xAE], by decide⟩] ∧
      ¬ ((mb85rs64vReadId fresh ⟨0, 0, 0, 0⟩).2 = 0 ↔ fresh.id = mb85rs64vId) := by
  constructor
  · rintro ⟨hwrite, -⟩
    have hbyte : (0 : Byte) = 0xAE := congrFun hwrite ⟨0, by decide⟩
    exact absurd hbyte (by decide)
  · intro h
    exact absurd (h.mpr rfl) (by decide)

end SpiFram
end ZephyrSamples
