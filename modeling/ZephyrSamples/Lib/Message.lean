import Mathlib.Data.List.Range

/-!
# Messages and the buffers they are copied to

A message is the first `len` bytes of a memory, and what it is copied to has a fixed size.  Nothing
stops a copy at either end: `outside` tells whether bytes are read from behind the message, and
`overrun` whether some were appended behind the end of the buffer.
-/

namespace ZephyrSamples

/-- A received message, and the memory behind it. -/
structure Message where
  mem : Nat → UInt8
  len : Nat

namespace Message

/-- The bytes a copy of `n` bytes from `off` on gets. -/
def read (msg : Message) (off n : Nat) : List UInt8 :=
  (List.range n).map fun i => msg.mem (off + i)

/-- Some of these bytes are behind the message. -/
def outside (msg : Message) (off n : Nat) : Bool := decide (0 < n ∧ msg.len < off + n)

variable {msg : Message} {off n k : Nat}

@[simp] theorem length_read : (msg.read off n).length = n := by
  simp [read]

theorem outside_eq (hoff : off ≤ msg.len) :
    msg.outside off n = decide (msg.len < off + n) := by
  rw [outside, decide_eq_decide]
  omega

theorem outside_eq_false_iff (hoff : off ≤ msg.len) :
    msg.outside off n = false ↔ off + n ≤ msg.len := by
  rw [outside_eq hoff, decide_eq_false_iff_not, Nat.not_lt]

theorem read_append : msg.read off n ++ msg.read (off + n) k = msg.read off (n + k) := by
  simp only [read, List.range_add, List.map_append, List.map_map]
  congr 1
  refine List.map_congr_left fun i _ => ?_
  rw [Function.comp_apply, Nat.add_assoc]

theorem read_zero : msg.read off 0 = [] := rfl

theorem read_succ : msg.read off (n + 1) = msg.mem off :: msg.read (off + 1) n := by
  rw [Nat.add_comm n 1, ← read_append]
  rfl

theorem take_read : (msg.read off n).take k = msg.read off (min k n) := by
  simp only [read, ← List.map_take, List.take_range]

theorem drop_read : (msg.read off n).drop k = msg.read (off + k) (n - k) := by
  induction k generalizing off n with
  | zero => rfl
  | succ k ih =>
    cases n with
    | zero => simp [read_zero]
    | succ n =>
      rw [read_succ, List.drop_succ_cons, ih, Nat.add_assoc, Nat.add_comm 1 k,
        Nat.add_sub_add_right]

end Message

/-- A buffer of a fixed size, filled from the front. -/
structure Sink where
  size : Nat
  data : List UInt8 := []
  overrun : Bool := false

namespace Sink

/-- `net_buf_add_mem` -/
def addMem (sink : Sink) (bytes : List UInt8) : Sink :=
  { sink with
    data := sink.data ++ bytes
    overrun := sink.overrun || decide (sink.size - sink.data.length < bytes.length) }

variable {size : Nat} {as bs : List UInt8}

theorem data_addMem_addMem : ((addMem { size := size } as).addMem bs).data = as ++ bs := rfl

theorem overrun_addMem : (addMem { size := size } as).overrun = decide (size < as.length) := rfl

theorem overrun_addMem_addMem : ((addMem { size := size } as).addMem bs).overrun =
    decide (size < as.length + bs.length) := by
  rw [Bool.eq_iff_iff]
  simp only [addMem, List.nil_append, Bool.false_or, Bool.or_eq_true, decide_eq_true_eq,
    List.length_nil]
  omega

end Sink
end ZephyrSamples
