import ZephyrSamples.Lib.Memory
import ZephyrSamples.Lib.Runs

/-!
# The vendor attribute of the peripheral and the attrs sample

`vnd_value`, respectively `test_value`, behind the handlers of its characteristics.  A write is
bounded by the size of the array.  A read takes the length of the value from `strlen`, although a
write can put a terminator anywhere in the array or leave none in it. -/

namespace ZephyrSamples
namespace VendorAttr

open Memory Runs

abbrev Byte := UInt8

inductive AttErr where
  | invalidOffset
  | writeReqRejected
  deriving DecidableEq, Repr

/-- An array of `size` bytes. -/
structure Value (size : Nat) where
  bytes : List Byte
  length_eq : bytes.length = size

/-- `vnd_value`, which has no terminator. -/
def vndValue : Value 6 where
  bytes := [0x56, 0x65, 0x6e, 0x64, 0x6f, 0x72]
  length_eq := rfl

/-- `test_value` -/
def testValue : Value 5 where
  bytes := [0x54, 0x65, 0x73, 0x74, 0x00]
  length_eq := rfl

variable {size : Nat}

/-! ## The handlers -/

/-- `strlen`; the result is `none` if it leaves the array. -/
def strlen : List Byte → Option Nat
  | [] => none
  | b :: rest => if b = 0 then some 0 else (strlen rest).map (· + 1)

/-- `bt_gatt_attr_read` -/
def btGattAttrRead (len offset : Nat) (value : List Byte) : Except AttErr (List Byte) :=
  if offset > value.length then .error .invalidOffset
  else .ok ((value.drop offset).take len)

/-- A read of a value whose length is that of a string; the result is `none` if it leaves the
array. -/
def readString (v : Value size) (len offset : Nat) : Option (Except AttErr (List Byte)) :=
  (strlen v.bytes).map fun n => btGattAttrRead len offset (v.bytes.take n)

def readVnd (v : Value 6) (len offset : Nat) : Option (Except AttErr (List Byte)) :=
  readString v len offset

def readTest (v : Value 5) (len offset : Nat) : Option (Except AttErr (List Byte)) :=
  readString v len offset

/-- A `memcpy` into the array. -/
def Value.memcpy (v : Value size) (offset : Nat) (buf : List Byte)
    (h : offset + buf.length ≤ size) : Value size where
  bytes := overwrite v.bytes offset buf
  length_eq := (length_overwrite (by rw [v.length_eq]; exact h)).trans v.length_eq

/-- A write that is bounded by the size of the array. -/
def writeArray (v : Value size) (buf : List Byte) (offset : Nat) : Except AttErr Nat × Value size :=
  if h : offset + buf.length > size then (.error .invalidOffset, v)
  else (.ok buf.length, v.memcpy offset buf (Nat.not_lt.mp h))

def writeVnd (v : Value 6) (buf : List Byte) (offset : Nat) : Except AttErr Nat × Value 6 :=
  writeArray v buf offset

def writeTest (v : Value 5) (buf : List Byte) (offset : Nat) : Except AttErr Nat × Value 5 :=
  writeArray v buf offset

/-- `cmd` says that the flags have BT_GATT_WRITE_FLAG_CMD. -/
def writeWithoutRspVnd (v : Value 6) (buf : List Byte) (offset : Nat) (cmd : Bool) :
    Except AttErr Nat × Value 6 :=
  if cmd = false then (.error .writeReqRejected, v) else writeArray v buf offset

/-! ## Requests -/

structure Write where
  buf : List Byte
  offset : Nat

/-- A write of the peripheral sample, to one of the characteristics that share `vnd_value`. -/
inductive VndRequest where
  | write (w : Write)
  | writeWithoutRsp (w : Write) (cmd : Bool)

def VndRequest.toWrite : VndRequest → Write
  | .write w => w
  | .writeWithoutRsp w _ => w

def handleVnd (v : Value 6) : VndRequest → Except AttErr Nat × Value 6
  | .write w => writeVnd v w.buf w.offset
  | .writeWithoutRsp w cmd => writeWithoutRspVnd v w.buf w.offset cmd

def handleTest (v : Value 5) (w : Write) : Except AttErr Nat × Value 5 :=
  writeTest v w.buf w.offset

section

variable {ρ : Type} (handle : Value size → ρ → Except AttErr Nat × Value size) (toWrite : ρ → Write)

def step (v : Value size) (r : ρ) : Value size := (handle v r).2

/-- What the accepted writes of a run make of some bytes, one after the other. -/
def replay : Value size → List ρ → List Byte → List Byte
  | _, [], bytes => bytes
  | v, r :: rs, bytes =>
    replay (step handle v r) rs
      (if (handle v r).1.isOk then overwrite bytes (toWrite r).offset (toWrite r).buf else bytes)

/-- After a history of writes: the array is what the accepted ones make of it, each of them lay in
it, a rejected one changed nothing, and a read stays in the array and gives the bytes from its
offset on. -/
structure Meets (read : Value size → Nat → Nat → Option (Except AttErr (List Byte)))
    (initial : Value size) (rs : List ρ) (len offset : Nat) : Prop where
  value : (run (step handle) initial rs).bytes = replay handle toWrite initial rs initial.bytes
  writes : Along (step handle)
    (fun v r => (handle v r).1.isOk → (toWrite r).offset + (toWrite r).buf.length ≤ size) initial rs
  rejected : Along (step handle)
    (fun v r => (handle v r).1.isOk = false → step handle v r = v) initial rs
  read : read (run (step handle) initial rs) len offset
    = some (btGattAttrRead len offset (run (step handle) initial rs).bytes)

/-- A request is a write in the array, or is rejected and changes nothing. -/
def Bounded : Prop :=
  ∀ v r, (∃ h, handle v r
      = (.ok (toWrite r).buf.length, v.memcpy (toWrite r).offset (toWrite r).buf h)) ∨
    ∃ err, handle v r = (.error err, v)

/-- There is a terminator, and what is read ends in front of the first one or begins behind the
array. -/
def Terminated (bytes : List Byte) (len offset : Nat) : Prop :=
  0 ∈ bytes ∧ (offset + len ≤ bytes.idxOf 0 ∨ bytes.length < offset)

variable {handle toWrite}

theorem bytes_run (h : Bounded handle toWrite) (v : Value size) (rs : List ρ) :
    (run (step handle) v rs).bytes = replay handle toWrite v rs v.bytes := by
  induction rs generalizing v with
  | nil => rfl
  | cons r rs ih =>
    rw [run_cons, ih, replay]
    rcases h v r with ⟨hin, heq⟩ | ⟨err, heq⟩
    · rw [step, heq]
      rfl
    · rw [step, heq]
      rfl

theorem writes_in_array (h : Bounded handle toWrite) (v : Value size) (rs : List ρ) :
    Along (step handle) (fun v r => (handle v r).1.isOk →
      (toWrite r).offset + (toWrite r).buf.length ≤ size) v rs := by
  refine along_of_forall _ fun v r _ hok => ?_
  rcases h v r with ⟨hin, -⟩ | ⟨err, heq⟩
  · exact hin
  · rw [heq] at hok
    exact absurd hok Bool.false_ne_true

theorem rejected_changes_nothing (h : Bounded handle toWrite) (v : Value size) (rs : List ρ) :
    Along (step handle) (fun v r => (handle v r).1.isOk = false → step handle v r = v) v rs := by
  refine along_of_forall _ fun v r _ hno => ?_
  rcases h v r with ⟨hin, heq⟩ | ⟨err, heq⟩
  · rw [heq] at hno
    exact absurd hno.symm Bool.false_ne_true
  · rw [step, heq]

end

/-! ### Reads -/

theorem strlen_eq (bytes : List Byte) :
    strlen bytes = if 0 ∈ bytes then some (bytes.idxOf 0) else none := by
  induction bytes with
  | nil => rfl
  | cons b rest ih =>
    rw [strlen, ih]
    by_cases hb : b = 0
    · subst hb
      rw [if_pos rfl, if_pos List.mem_cons_self, List.idxOf_cons_self]
    · have hmem : (0 : Byte) ∈ b :: rest ↔ 0 ∈ rest := by
        rw [List.mem_cons, or_iff_right (Ne.symm hb)]
      rw [if_neg hb, List.idxOf_cons_ne _ hb]
      by_cases hrest : (0 : Byte) ∈ rest
      · rw [if_pos hrest, if_pos (hmem.mpr hrest)]
        rfl
      · rw [if_neg hrest, if_neg (mt hmem.mp hrest)]
        rfl

/-- A read of the first `n` bytes gives what a read of all gives, as long as it stays in them. -/
theorem btGattAttrRead_take_iff {bytes : List Byte} {n : Nat} (hn : n < bytes.length)
    (len offset : Nat) :
    btGattAttrRead len offset (bytes.take n) = btGattAttrRead len offset bytes ↔
      offset + len ≤ n ∨ bytes.length < offset := by
  have hlength : (bytes.take n).length = n := by
    rw [List.length_take, Nat.min_eq_left (Nat.le_of_lt hn)]
  unfold btGattAttrRead
  rw [hlength]
  by_cases hbehind : offset > bytes.length
  · rw [if_pos hbehind, if_pos (by omega)]
    exact ⟨fun _ => Or.inr hbehind, fun _ => rfl⟩
  · rw [if_neg hbehind]
    by_cases hpast : offset > n
    · rw [if_pos hpast]
      exact ⟨fun hno => absurd hno nofun, fun h => by omega⟩
    · rw [if_neg hpast, Except.ok.injEq, List.drop_take, List.take_take]
      constructor
      · intro h
        have hlen := congrArg List.length h
        rw [List.length_take, List.length_take, List.length_drop] at hlen
        omega
      · intro h
        rw [Nat.min_eq_left (by omega)]

theorem readString_iff (v : Value size) (len offset : Nat) :
    readString v len offset = some (btGattAttrRead len offset v.bytes) ↔
      Terminated v.bytes len offset := by
  rw [readString, strlen_eq, Terminated]
  by_cases h : (0 : Byte) ∈ v.bytes
  · rw [if_pos h, Option.map_some, Option.some.injEq, and_iff_right h,
      btGattAttrRead_take_iff (List.idxOf_lt_length_of_mem h)]
  · rw [if_neg h]
    exact ⟨fun hno => absurd hno nofun, fun hmem => absurd hmem.1 h⟩

/-! ### The two samples -/

theorem writeArray_bounded (v : Value size) (buf : List Byte) (offset : Nat) :
    (∃ h, writeArray v buf offset = (.ok buf.length, v.memcpy offset buf h)) ∨
      ∃ err, writeArray v buf offset = (.error err, v) := by
  unfold writeArray
  split
  · exact Or.inr ⟨_, rfl⟩
  · exact Or.inl ⟨Nat.not_lt.mp ‹_›, rfl⟩

theorem handleVnd_bounded : Bounded handleVnd VndRequest.toWrite := by
  intro v r
  cases r with
  | write w => exact writeArray_bounded v w.buf w.offset
  | writeWithoutRsp w cmd =>
    show (∃ h, writeWithoutRspVnd v w.buf w.offset cmd = _) ∨
      ∃ err, writeWithoutRspVnd v w.buf w.offset cmd = _
    unfold writeWithoutRspVnd
    split
    · exact Or.inr ⟨_, rfl⟩
    · exact writeArray_bounded v w.buf w.offset

theorem handleTest_bounded : Bounded handleTest id :=
  fun v w => writeArray_bounded v w.buf w.offset

theorem meets_iff {ρ : Type} {handle : Value size → ρ → Except AttErr Nat × Value size}
    {toWrite : ρ → Write} (h : Bounded handle toWrite) (initial : Value size) (rs : List ρ)
    (len offset : Nat) :
    Meets handle toWrite readString initial rs len offset ↔
      Terminated (run (step handle) initial rs).bytes len offset := by
  rw [← readString_iff]
  refine ⟨fun hm => hm.read, fun hread => ?_⟩
  exact ⟨bytes_run h initial rs, writes_in_array h initial rs,
    rejected_changes_nothing h initial rs, hread⟩

/-- After every history of writes, and for every read: all is as it should be exactly when the
array has a terminator and the read ends in front of the first one, or begins behind the array. -/
theorem vendor_attr_iff (rs : List VndRequest) (ws : List Write) (len offset : Nat) :
    (Meets handleVnd VndRequest.toWrite readVnd vndValue rs len offset ↔
      Terminated (run (step handleVnd) vndValue rs).bytes len offset) ∧
    (Meets handleTest id readTest testValue ws len offset ↔
      Terminated (run (step handleTest) testValue ws).bytes len offset) :=
  ⟨meets_iff handleVnd_bounded vndValue rs len offset,
    meets_iff handleTest_bounded testValue ws len offset⟩

/-- The first read of `vnd_value` leaves the array, and a read of `test_value` after a write of a
terminator at its begin gives nothing. -/
theorem vendor_attr_not_read_back :
    ¬ Meets handleVnd VndRequest.toWrite readVnd vndValue [] 6 0 ∧
      ¬ Meets handleTest id readTest testValue [{ buf := [0], offset := 0 }] 5 0 := by
  constructor
  · intro h
    exact absurd ((readString_iff _ _ _).mp h.read).1 (by decide)
  · intro h
    exact absurd ((readString_iff _ _ _).mp h.read).2 (by decide)

end VendorAttr
end ZephyrSamples
