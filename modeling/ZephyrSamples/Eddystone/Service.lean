import Mathlib.Logic.Function.Basic
import ZephyrSamples.Lib.Runs

/-!
# The Eddystone configuration service

The statics of `main.c`, the handlers of the characteristics of `eds_svc`, and what they and the
callbacks do to the advertising.  A result of the stack that the code does not determine comes with
the event: the outcome of `bt_rand` and of `bt_le_adv_start`, and what an uninitialised byte holds.
-/

namespace ZephyrSamples
namespace Eddystone

abbrev Byte := UInt8

/-- `NUMBER_OF_SLOTS` -/
def numberOfSlots : Nat := 1

/-- `EDS_URL_READ_OFFSET` -/
def edsUrlReadOffset : Nat := 2

/-- `EDS_URL_WRITE_OFFSET` -/
def edsUrlWriteOffset : Nat := 4

inductive EdsType where
  | uid
  | url
  | tlm
  | eid
  | none
  deriving DecidableEq, Repr

def EdsType.byte : EdsType → Byte
  | .uid => 0x00
  | .url => 0x10
  | .tlm => 0x20
  | .eid => 0x30
  | .none => 0xff

inductive EdsState where
  | locked
  | unlocked
  | unlockedNoRelocking
  deriving DecidableEq, Repr

def EdsState.byte : EdsState → Byte
  | .locked => 0x00
  | .unlocked => 0x01
  | .unlockedNoRelocking => 0x02

/-- Nothing for a value above EDS_UNLOCKED_NO_RELOCKING. -/
def EdsState.ofByte (value : Byte) : Option EdsState :=
  if value = 0x00 then some .locked
  else if value = 0x01 then some .unlocked
  else if value = 0x02 then some .unlockedNoRelocking
  else none

/-- The memory of a `u16_t` that is kept in big-endian order. -/
def be16 (value : UInt16) : List Byte := [(value >>> 8).toUInt8, value.toUInt8]

/-- `struct eds_capabilities`, with `slot_types` in big-endian order. -/
structure EdsCapabilities where
  version : Byte
  slots : Byte
  uids : Byte
  advTypes : Byte
  slotTypes : UInt16
  txPower : Byte
  deriving DecidableEq, Repr

def EdsCapabilities.bytes (caps : EdsCapabilities) : List Byte :=
  [caps.version, caps.slots, caps.uids, caps.advTypes] ++ be16 caps.slotTypes ++ [caps.txPower]

/-- `struct bt_data`, with the array that `data` points to. -/
structure BtData where
  type : Byte
  dataLen : Nat
  data : List Byte
  deriving DecidableEq, Repr

/-- The three elements of `slot->ad`; `svcData` is `ad[2]`. -/
structure SlotAd where
  flags : BtData
  uuid16All : BtData
  svcData : BtData
  deriving DecidableEq, Repr

/-- `struct eds_slot`, with `interval` in big-endian order. -/
structure EdsSlot where
  type : EdsType
  state : EdsState
  connectable : Byte
  interval : UInt16
  txPower : Byte
  advTxPower : Byte
  challenge : List Byte
  ad : SlotAd
  deriving DecidableEq, Repr

/-- What is advertised: nothing, the connectable configuration advertising, nothing while or after a
connection that has stopped that advertising until the stack resumes it, or a frame. -/
inductive Adv where
  | stopped
  | connectable
  | heldByConnection
  | nonConnectable (ad : SlotAd)
  deriving DecidableEq, Repr

/-- The statics, the advertising, and the memory that follows `eds_slots`. -/
structure Beacon where
  edsCaps : EdsCapabilities
  edsActiveSlot : Fin numberOfSlots
  edsSlots : Fin numberOfSlots → EdsSlot
  edsEcdh : Fin 32 → Byte
  edsEid : Fin 16 → Byte
  idleWork : Bool
  adv : Adv
  following : List Byte

/-- `ad[2]`: the frame `http://www.zephyrproject.org`. -/
def zephyrproject : BtData where
  type := 0x16
  dataLen := 19
  data := [0xaa, 0xfe, 0x10, 0x00, 0x00, 0x7a, 0x65, 0x70, 0x68, 0x79, 0x72, 0x70, 0x72, 0x6f, 0x6a,
    0x65, 0x63, 0x74, 0x08]

def initialSlot : EdsSlot where
  type := .none
  state := .unlocked
  connectable := 0
  interval := 0x00a0
  txPower := 0
  advTxPower := 0
  challenge := List.replicate 16 0
  ad := { flags := { type := 0x01, dataLen := 1, data := [0x04] },
          uuid16All := { type := 0x03, dataLen := 2, data := [0xaa, 0xfe] },
          svcData := zephyrproject }

/-- After a successful `bt_ready`. -/
def ready (following : List Byte) : Beacon where
  edsCaps := { version := 0x00, slots := 1, uids := 0, advTypes := 0, slotTypes := 0x0002,
               txPower := 0 }
  edsActiveSlot := ⟨0, Nat.one_pos⟩
  edsSlots := fun _ => initialSlot
  edsEcdh := fun _ => 0
  edsEid := fun _ => 0
  idleWork := true
  adv := .connectable
  following := following

def Beacon.slot (s : Beacon) : EdsSlot := s.edsSlots s.edsActiveSlot

def Beacon.setSlot (s : Beacon) (slot : EdsSlot) : Beacon :=
  { s with edsSlots := Function.update s.edsSlots s.edsActiveSlot slot }

@[simp] theorem slot_setSlot (s : Beacon) (slot : EdsSlot) : (s.setSlot slot).slot = slot :=
  Function.update_self _ _ _

/-! ## The handlers -/

inductive AttErr where
  | readNotPermitted
  | writeNotPermitted
  | invalidOffset
  | invalidAttributeLen
  | unlikely
  | notSupported
  deriving DecidableEq, Repr

/-- `bt_gatt_attr_read` -/
def btGattAttrRead (len offset : Nat) (value : List Byte) : Except AttErr (List Byte) :=
  if offset > value.length then .error .invalidOffset
  else .ok ((value.drop offset).take len)

/-- A read that is refused with `err` while the active slot is locked. -/
def readUnlessLocked (s : Beacon) (err : AttErr) (len offset : Nat) (value : List Byte) :
    Except AttErr (List Byte) :=
  if s.slot.state = .locked then .error err else btGattAttrRead len offset value

/-- The value of a one-byte variable after `memcpy(&value, buf, len)`. -/
def memcpyByte (value : Byte) (buf : List Byte) : Byte := buf.headD value

/-- A write of one byte of the active slot that is refused while the slot is locked. -/
def writeUnlessLocked (s : Beacon) (buf : List Byte) (offset : Nat) (slot : EdsSlot) :
    Except AttErr Nat × Beacon :=
  if s.slot.state = .locked then (.error .writeNotPermitted, s)
  else if offset + buf.length > 1 then (.error .invalidOffset, s)
  else (.ok buf.length, s.setSlot slot)

def readCaps (s : Beacon) (len offset : Nat) : Except AttErr (List Byte) :=
  btGattAttrRead len offset s.edsCaps.bytes

def readSlot (s : Beacon) (len offset : Nat) : Except AttErr (List Byte) :=
  btGattAttrRead len offset [UInt8.ofNat s.edsActiveSlot]

/-- `stale` is what the uninitialised `value` holds. -/
def writeSlot (s : Beacon) (buf : List Byte) (offset : Nat) (stale : Byte) :
    Except AttErr Nat × Beacon :=
  if offset + buf.length > 1 then (.error .invalidOffset, s)
  else
    let value := memcpyByte stale buf
    if h : value.toNat + 1 > numberOfSlots then (.error .writeNotPermitted, s)
    else (.ok buf.length, { s with edsActiveSlot := ⟨value.toNat, Nat.not_lt.mp h⟩ })

/-- There is one slot only. -/
theorem slot_of_edsActiveSlot (s : Beacon) (i : Fin numberOfSlots) :
    ({ s with edsActiveSlot := i } : Beacon).slot = s.slot := by
  have hone : Subsingleton (Fin numberOfSlots) := inferInstanceAs (Subsingleton (Fin 1))
  exact congrArg s.edsSlots (Subsingleton.elim i s.edsActiveSlot)

def readTxPower (s : Beacon) (len offset : Nat) : Except AttErr (List Byte) :=
  readUnlessLocked s .readNotPermitted len offset [s.slot.txPower]

def writeTxPower (s : Beacon) (buf : List Byte) (offset : Nat) : Except AttErr Nat × Beacon :=
  writeUnlessLocked s buf offset { s.slot with txPower := memcpyByte s.slot.txPower buf }

/-- The value that is read is that of the other characteristic. -/
def readAdvTxPower (s : Beacon) (len offset : Nat) : Except AttErr (List Byte) :=
  readUnlessLocked s .readNotPermitted len offset [s.slot.txPower]

def writeAdvTxPower (s : Beacon) (buf : List Byte) (offset : Nat) : Except AttErr Nat × Beacon :=
  writeUnlessLocked s buf offset { s.slot with advTxPower := memcpyByte s.slot.advTxPower buf }

def readInterval (s : Beacon) (len offset : Nat) : Except AttErr (List Byte) :=
  readUnlessLocked s .writeNotPermitted len offset (be16 s.slot.interval)

def readLock (s : Beacon) (len offset : Nat) : Except AttErr (List Byte) :=
  btGattAttrRead len offset [s.slot.state.byte]

def writeLock (s : Beacon) (buf : List Byte) (offset : Nat) : Except AttErr Nat × Beacon :=
  if s.slot.state = .locked then (.error .writeNotPermitted, s)
  else if offset ≠ 0 then (.error .invalidOffset, s)
  else
    match buf with
    | [value] =>
      match EdsState.ofByte value with
      | none => (.error .writeNotPermitted, s)
      | some state => (.ok 1, s.setSlot { s.slot with state := state })
    | _ => (.error .invalidAttributeLen, s)

/-- `rand` is what `bt_rand` gives, if it succeeds. -/
def readUnlock (s : Beacon) (len offset : Nat) (rand : Option (Fin 16 → Byte)) :
    Except AttErr (List Byte) × Beacon :=
  if s.slot.state ≠ .locked then (.error .readNotPermitted, s)
  else
    match rand with
    | none => (.error .unlikely, s)
    | some bytes =>
      (btGattAttrRead len offset (List.ofFn bytes),
        s.setSlot { s.slot with challenge := List.ofFn bytes })

def writeUnlock (s : Beacon) : Except AttErr Nat :=
  if s.slot.state ≠ .locked then .error .readNotPermitted else .error .notSupported

def readEcdh (s : Beacon) (len offset : Nat) : Except AttErr (List Byte) :=
  btGattAttrRead len offset (List.ofFn s.edsEcdh)

def readEid (s : Beacon) (len offset : Nat) : Except AttErr (List Byte) :=
  btGattAttrRead len offset (List.ofFn s.edsEid)

def readAdvData (s : Beacon) (len offset : Nat) : Except AttErr (List Byte) :=
  if s.slot.state = .locked then .error .readNotPermitted
  else if s.slot.type = .none then .ok []
  else
    let frame := s.slot.ad.svcData
    btGattAttrRead len offset
      ((frame.data.drop edsUrlReadOffset).take (frame.dataLen - edsUrlReadOffset))

/-- `eds_slot_restart` for the active slot; `err` says that `bt_le_adv_start` fails. -/
def edsSlotRestart (s : Beacon) (type : EdsType) (err : Bool) : Bool × Beacon :=
  let s := { s with adv := .stopped }
  if err then (false, s)
  else
    let adv := if type = .none then .connectable else .nonConnectable s.slot.ad
    (true, { s.setSlot { s.slot with type := type } with adv := adv })

theorem slot_edsSlotRestart (s : Beacon) (type : EdsType) (err : Bool) :
    (edsSlotRestart s type err).2.slot =
      if err then s.slot else { s.slot with type := type } := by
  cases err with
  | true => rfl
  | false => exact Function.update_self _ _ _

theorem adv_edsSlotRestart (s : Beacon) (type : EdsType) (err : Bool) :
    (edsSlotRestart s type err).2.adv =
      if err then .stopped
      else if type = .none then .connectable
      else .nonConnectable s.slot.ad := by
  cases err <;> rfl

/-- The destination is `&slot->ad[2].data + 4`: the pointers are four bytes long, so it is the
twelfth byte behind the slot. -/
def memcpyFollowing (following data : List Byte) : List Byte :=
  following.take 12 ++ data ++ following.drop (12 + data.length)

/-- What EDS_TYPE_URL does to the slot before it is restarted. -/
def setFrame (s : Beacon) (buf : List Byte) : Beacon :=
  let frame := s.slot.ad.svcData
  let dataLen := min frame.dataLen (buf.length + edsUrlWriteOffset)
  let ad := { s.slot.ad with svcData := { frame with dataLen := dataLen } }
  { s.setSlot { s.slot with ad := ad } with
    following := memcpyFollowing s.following (buf.take (dataLen - edsUrlWriteOffset)) }

theorem setFrame_type (s : Beacon) (buf : List Byte) :
    (setFrame s buf).slot.type = s.slot.type := by
  show (s.setSlot _).slot.type = s.slot.type
  rw [slot_setSlot]

def writeAdvData (s : Beacon) (buf : List Byte) (offset : Nat) (err : Bool) :
    Except AttErr Nat × Beacon :=
  if s.slot.state = .locked then (.error .readNotPermitted, s)
  else if offset ≠ 0 then (.error .invalidOffset, s)
  else if buf.length = 0 then (.ok 0, (edsSlotRestart s .none err).2)
  else if buf.length > 19 then (.error .invalidAttributeLen, s)
  else if buf.headD 0 = EdsType.url.byte then
    let (started, s) := edsSlotRestart (setFrame s buf) .url err
    if started then (.ok buf.length, s) else (.error .unlikely, s)
  else (.error .writeNotPermitted, s)

def writeReset : Except AttErr Nat := .error .writeNotPermitted

def readConnectable (len offset : Nat) : Except AttErr (List Byte) :=
  btGattAttrRead len offset [0x01]

def writeConnectable (s : Beacon) (buf : List Byte) (offset : Nat) : Except AttErr Nat × Beacon :=
  if s.slot.state = .locked then (.error .writeNotPermitted, s)
  else if offset ≠ 0 then (.error .invalidOffset, s)
  else if buf.length > 1 then (.error .invalidAttributeLen, s)
  else (.ok buf.length,
    s.setSlot { s.slot with connectable := memcpyByte s.slot.connectable buf })

/-! ## The service and the events -/

/-- The characteristics of `eds_svc`. -/
inductive Chrc where
  | caps
  | slot
  | intv
  | tx
  | advTx
  | lock
  | unlock
  | ecdh
  | eid
  | data
  | reset
  | connectable
  deriving DecidableEq, Repr

/-- The requests of a client, the connection callbacks (`err` is that of `connected`), the expiry of
`idle_work`, and the stack going on with the advertising that a connection has stopped. -/
inductive Event where
  | read (chrc : Chrc) (len offset : Nat) (rand : Option (Fin 16 → Byte))
  | write (chrc : Chrc) (buf : List Byte) (offset : Nat) (stale : Byte) (err : Bool)
  | connected (err : Bool)
  | disconnected
  | idleTimeout (err : Bool)
  | resumed

/-- The permissions of a characteristic without a read handler do not allow a read. -/
def read (s : Beacon) (len offset : Nat) (rand : Option (Fin 16 → Byte)) :
    Chrc → Except AttErr (List Byte) × Beacon
  | .caps => (readCaps s len offset, s)
  | .slot => (readSlot s len offset, s)
  | .intv => (readInterval s len offset, s)
  | .tx => (readTxPower s len offset, s)
  | .advTx => (readAdvTxPower s len offset, s)
  | .lock => (readLock s len offset, s)
  | .unlock => readUnlock s len offset rand
  | .ecdh => (readEcdh s len offset, s)
  | .eid => (readEid s len offset, s)
  | .data => (readAdvData s len offset, s)
  | .reset => (.error .readNotPermitted, s)
  | .connectable => (readConnectable len offset, s)

/-- The permissions of a characteristic without a write handler do not allow a write. -/
def write (s : Beacon) (buf : List Byte) (offset : Nat) (stale : Byte) (err : Bool) :
    Chrc → Except AttErr Nat × Beacon
  | .caps => (.error .writeNotPermitted, s)
  | .slot => writeSlot s buf offset stale
  | .intv => (.error .writeNotPermitted, s)
  | .tx => writeTxPower s buf offset
  | .advTx => writeAdvTxPower s buf offset
  | .lock => writeLock s buf offset
  | .unlock => (writeUnlock s, s)
  | .ecdh => (.error .writeNotPermitted, s)
  | .eid => (.error .writeNotPermitted, s)
  | .data => writeAdvData s buf offset err
  | .reset => (writeReset, s)
  | .connectable => writeConnectable s buf offset

/-- The connection ends the connectable advertising. -/
def connected (s : Beacon) (err : Bool) : Beacon :=
  if err then s
  else { s with
    idleWork := false
    adv := if s.adv = .connectable then .heldByConnection else s.adv }

def disconnected (s : Beacon) : Beacon :=
  if s.slot.connectable = 0 then { s with idleWork := true } else s

def idleTimeout (s : Beacon) (err : Bool) : Beacon :=
  if s.idleWork then
    let s := { s with idleWork := false }
    if s.slot.type = .none then (edsSlotRestart s .url err).2 else s
  else s

def resumed (s : Beacon) : Beacon :=
  if s.adv = .heldByConnection then { s with adv := .connectable } else s

def step (s : Beacon) : Event → Beacon
  | .read chrc len offset rand => (read s len offset rand chrc).2
  | .write chrc buf offset stale err => (write s buf offset stale err chrc).2
  | .connected err => connected s err
  | .disconnected => disconnected s
  | .idleTimeout err => idleTimeout s err
  | .resumed => resumed s

/-! ## What a request can change -/

/-- What no request changes. -/
structure SameKeys (s t : Beacon) : Prop where
  edsCaps : s.edsCaps = t.edsCaps
  edsEcdh : s.edsEcdh = t.edsEcdh
  edsEid : s.edsEid = t.edsEid

theorem SameKeys.trans {s t u : Beacon} (h : SameKeys s t) (h' : SameKeys t u) : SameKeys s u :=
  ⟨h.edsCaps.trans h'.edsCaps, h.edsEcdh.trans h'.edsEcdh, h.edsEid.trans h'.edsEid⟩

/-- The slot has other values, but neither the advertising nor its record changes, and a locked slot
stays locked. -/
structure Edited (s t : Beacon) : Prop where
  keys : SameKeys t s
  ad : t.slot.ad = s.slot.ad
  type : t.slot.type = s.slot.type
  locked : s.slot.state = .locked → t.slot.state = .locked
  adv : t.adv = s.adv

section

variable {s : Beacon} {len offset : Nat} {buf : List Byte}

theorem edited_self (s : Beacon) : Edited s s := ⟨⟨rfl, rfl, rfl⟩, rfl, rfl, id, rfl⟩

theorem edited_setSlot {slot : EdsSlot} (had : slot.ad = s.slot.ad)
    (htype : slot.type = s.slot.type) (hlocked : s.slot.state = .locked → slot.state = .locked) :
    Edited s (s.setSlot slot) := by
  refine ⟨⟨rfl, rfl, rfl⟩, ?_, ?_, ?_, rfl⟩
  · rw [slot_setSlot]
    exact had
  · rw [slot_setSlot]
    exact htype
  · rw [slot_setSlot]
    exact hlocked

theorem edited_writeUnlessLocked {slot : EdsSlot} (had : slot.ad = s.slot.ad)
    (htype : slot.type = s.slot.type) (hstate : slot.state = s.slot.state) :
    Edited s (writeUnlessLocked s buf offset slot).2 := by
  unfold writeUnlessLocked
  split
  · exact edited_self s
  · split
    · exact edited_self s
    · exact edited_setSlot had htype fun h => hstate.trans h

theorem edited_writeSlot (stale : Byte) : Edited s (writeSlot s buf offset stale).2 := by
  unfold writeSlot
  simp only
  split
  · exact edited_self s
  · split
    · exact edited_self s
    · have hslot := slot_of_edsActiveSlot s
      exact ⟨⟨rfl, rfl, rfl⟩, congrArg EdsSlot.ad (hslot _), congrArg EdsSlot.type (hslot _),
        (congrArg EdsSlot.state (hslot _)).trans, rfl⟩

theorem edited_writeLock : Edited s (writeLock s buf offset).2 := by
  unfold writeLock
  split
  · exact edited_self s
  split
  · exact edited_self s
  split
  · split
    · exact edited_self s
    · exact edited_setSlot rfl rfl fun h => absurd h ‹_›
  · exact edited_self s

theorem edited_writeConnectable : Edited s (writeConnectable s buf offset).2 := by
  unfold writeConnectable
  split
  · exact edited_self s
  split
  · exact edited_self s
  split
  · exact edited_self s
  · exact edited_setSlot rfl rfl id

theorem edited_read (chrc : Chrc) (rand : Option (Fin 16 → Byte)) :
    Edited s (read s len offset rand chrc).2 := by
  cases chrc with
  | unlock =>
    simp only [read, readUnlock]
    split
    · exact edited_self s
    · cases rand with
      | none => exact edited_self s
      | some bytes => exact edited_setSlot rfl rfl id
  | _ => exact edited_self s

/-- Only a write of slot data is about the advertising. -/
theorem edited_write {chrc : Chrc} (hchrc : chrc ≠ .data) (stale : Byte) (err : Bool) :
    Edited s (write s buf offset stale err chrc).2 := by
  cases chrc with
  | slot => exact edited_writeSlot stale
  | tx => exact edited_writeUnlessLocked rfl rfl rfl
  | advTx => exact edited_writeUnlessLocked rfl rfl rfl
  | lock => exact edited_writeLock
  | data => exact absurd rfl hchrc
  | connectable => exact edited_writeConnectable
  | _ => exact edited_self s

end

/-- What the client is told. -/
inductive Answer where
  | none
  | error (err : AttErr)
  | value (bytes : List Byte)
  | written (len : Nat)
  deriving DecidableEq, Repr

def Answer.ofRead : Except AttErr (List Byte) → Answer
  | .error err => .error err
  | .ok bytes => .value bytes

def Answer.ofWrite : Except AttErr Nat → Answer
  | .error err => .error err
  | .ok len => .written len

def answer (s : Beacon) : Event → Answer
  | .read chrc len offset rand => .ofRead (read s len offset rand chrc).1
  | .write chrc buf offset stale err => .ofWrite (write s buf offset stale err chrc).1
  | .connected _ => .none
  | .disconnected => .none
  | .idleTimeout _ => .none
  | .resumed => .none

end Eddystone
end ZephyrSamples
