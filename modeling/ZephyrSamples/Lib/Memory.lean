import Mathlib.Data.List.Basic

/-!
# Writing into a memory

A memory is a list of cells.  `overwrite mem start data` puts `data` at `start`; it leaves the cells
before it, and those behind it, as they are.
-/

namespace ZephyrSamples
namespace Memory

variable {α : Type*}

/-- The memory with `data` at `start`. -/
def overwrite (mem : List α) (start : Nat) (data : List α) : List α :=
  mem.take start ++ data ++ mem.drop (start + data.length)

variable {mem data : List α} {start : Nat}

theorem length_overwrite (h : start + data.length ≤ mem.length) :
    (overwrite mem start data).length = mem.length := by
  simp only [overwrite, List.length_append, List.length_take, List.length_drop]
  omega

/-- The memory up to the end of what was written. -/
theorem take_overwrite (h : start ≤ mem.length) :
    (overwrite mem start data).take (start + data.length) = mem.take start ++ data := by
  have hlength : (mem.take start ++ data).length = start + data.length := by
    rw [List.length_append, List.length_take, Nat.min_eq_left h]
  rw [overwrite, ← hlength, List.take_left]

end Memory
end ZephyrSamples
