import Mathlib.Algebra.Group.Nat.Defs
import ZephyrSamples.Lib.Message

/-!
# Buffers that are read from the front

A buffer is a window of a memory.  `pull` moves its front and takes what was moved over from its
length, which has 16 bits and wraps where it takes more than there is; `short` records that it did.
`bytes` is what the window holds, and as long as no pull is short, pulling drops bytes from it.
-/

namespace ZephyrSamples

structure NetBuf where
  mem : Nat → UInt8
  data : Nat
  len : BitVec 16
  short : Bool

namespace NetBuf

/-- `net_buf_pull` -/
def pull (b : NetBuf) (n : Nat) : NetBuf :=
  { b with
    data := b.data + n
    len := b.len - BitVec.ofNat 16 n
    short := b.short || decide (b.len.toNat < n) }

/-- `net_buf_pull_u8` -/
def pullU8 (b : NetBuf) : UInt8 × NetBuf := (b.mem b.data, b.pull 1)

/-- `net_buf_pull_be16` -/
def pullBe16 (b : NetBuf) : Nat × NetBuf :=
  (256 * (b.mem b.data).toNat + (b.mem (b.data + 1)).toNat, b.pull 2)

/-- What the window holds. -/
def bytes (b : NetBuf) : List UInt8 := (List.range b.len.toNat).map fun i => b.mem (b.data + i)

/-- The memory up to the end of the window. -/
def message (b : NetBuf) : Message := { mem := b.mem, len := b.data + b.len.toNat }

/-- A buffer with some bytes, in a memory that holds anything behind them. -/
def load (behind : Nat → UInt8) (bytes : List UInt8) : NetBuf where
  mem i := bytes.getD i (behind i)
  data := 0
  len := BitVec.ofNat 16 bytes.length
  short := false

variable {b : NetBuf} {n : Nat} {x : UInt8} {xs : List UInt8}

@[simp] theorem length_bytes : b.bytes.length = b.len.toNat := by
  simp [bytes]

@[simp] theorem mem_pull : (b.pull n).mem = b.mem := rfl

@[simp] theorem data_pull : (b.pull n).data = b.data + n := rfl

theorem pullU8_fst : b.pullU8.1 = b.mem b.data := rfl

theorem pullU8_snd : b.pullU8.2 = b.pull 1 := rfl

theorem short_pull : (b.pull n).short = (b.short || decide (b.len.toNat < n)) := rfl

/-- A buffer that was short once is short for good. -/
theorem short_pull_of_short (h : b.short = true) : (b.pull n).short = true := by
  rw [short_pull, h, Bool.true_or]

theorem short_pull_eq_false_iff :
    (b.pull n).short = false ↔ b.short = false ∧ n ≤ b.bytes.length := by
  simp [short_pull]

theorem short_pull_of_le (h : n ≤ b.bytes.length) : (b.pull n).short = b.short := by
  rw [length_bytes] at h
  rw [short_pull, decide_eq_false (Nat.not_lt.mpr h), Bool.or_false]

theorem short_pull_one_iff : (b.pull 1).short = false ↔ b.short = false ∧ b.bytes ≠ [] := by
  rw [short_pull_eq_false_iff, Nat.one_le_iff_ne_zero, Ne, Ne, List.length_eq_zero_iff]

theorem toNat_len_pull (h : n ≤ b.bytes.length) : (b.pull n).len.toNat = b.len.toNat - n := by
  rw [length_bytes] at h
  have hlt := b.len.isLt
  simp only [pull, BitVec.toNat_sub, BitVec.toNat_ofNat]
  omega

/-- A pull of no more than there is drops bytes. -/
theorem bytes_pull (h : n ≤ b.bytes.length) : (b.pull n).bytes = b.bytes.drop n := by
  refine List.ext_getElem ?_ fun i hi hi' => ?_
  · rw [length_bytes, toNat_len_pull h, List.length_drop, length_bytes]
  · simp [bytes, Nat.add_assoc]

/-- The first byte is the one that is pulled. -/
theorem mem_data_of_bytes (h : b.bytes = x :: xs) : b.mem b.data = x := by
  have hpos : 0 < b.len.toNat := by
    rw [← length_bytes, h]
    exact Nat.succ_pos _
  have hget : b.bytes[0]? = some (b.mem b.data) := by
    simp [bytes, List.getElem?_range hpos]
  rw [h] at hget
  exact (Option.some.inj hget).symm

theorem mem_data_add {i : Nat} (h : i < b.bytes.length) (d : UInt8) :
    b.mem (b.data + i) = b.bytes.getD i d := by
  have hlt : i < b.len.toNat := by rwa [length_bytes] at h
  simp [bytes, List.getD_eq_getElem?_getD, List.getElem?_range hlt]

theorem bytes_eq_read : b.bytes = b.message.read b.data b.len.toNat := rfl

/-- Bytes read from the front of the window. -/
theorem read_eq_take (h : n ≤ b.bytes.length) : b.message.read b.data n = b.bytes.take n := by
  rw [length_bytes] at h
  rw [bytes_eq_read, Message.take_read, Nat.min_eq_left h]

theorem bytes_eq_cons (h : 0 < b.len.toNat) : b.bytes = b.mem b.data :: (b.pull 1).bytes := by
  have hrest : (b.pull 1).len.toNat = b.len.toNat - 1 :=
    toNat_len_pull (by rw [length_bytes]; exact h)
  rw [bytes_eq_read, bytes_eq_read, hrest, ← Nat.sub_add_cancel h, Message.read_succ]
  rfl

theorem bytes_pull_one (h : b.bytes = x :: xs) : (b.pull 1).bytes = xs := by
  rw [bytes_pull (by simp [h]), h]
  rfl

theorem short_pull_one (h : b.bytes = x :: xs) : (b.pull 1).short = b.short :=
  short_pull_of_le (h ▸ Nat.succ_le_succ (Nat.zero_le xs.length))

theorem short_pull_of_nil (h : b.bytes = []) (hn : 0 < n) : (b.pull n).short = true := by
  have hlen := length_bytes (b := b)
  rw [h, List.length_nil] at hlen
  rw [short_pull, decide_eq_true (by omega), Bool.or_true]

theorem bytes_load (behind : Nat → UInt8) (h : xs.length < 2 ^ 16) :
    (load behind xs).bytes = xs := by
  have hlen : (load behind xs).len.toNat = xs.length := by
    simp only [load, BitVec.toNat_ofNat]
    exact Nat.mod_eq_of_lt h
  refine List.ext_getElem (by rw [length_bytes, hlen]) fun i hi hi' => ?_
  simp [bytes, load, hi']

end NetBuf
end ZephyrSamples
