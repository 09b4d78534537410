import ZephyrSamples.Lib.Pieces

/-!
# Loops with a stride

The values of `idx` in `for (idx = 0; idx < bound; idx += step)`.  If the step divides the bound,
the intervals of `step` from each of them are the interval up to the bound, in pieces.
-/

namespace ZephyrSamples

/-- The values from `idx` on.  With a step of 0 the loop would not end; here it ends at once. -/
def stridesFrom (step bound idx : Nat) : List Nat :=
  if idx < bound ∧ 0 < step then idx :: stridesFrom step bound (idx + step) else []
termination_by bound - idx

def strides (step bound : Nat) : List Nat := stridesFrom step bound 0

variable {step bound idx : Nat}

theorem tiles_stridesFrom (hstep : 0 < step) (hidx : idx ≤ bound) (hdvd : step ∣ bound - idx) :
    Tiles step idx (bound - idx) ((stridesFrom step bound idx).map fun i => (i, step)) := by
  fun_induction stridesFrom step bound idx with
  | case1 idx h ih =>
    have hle : step ≤ bound - idx := Nat.le_of_dvd (by omega) hdvd
    have hrest : bound - (idx + step) = bound - idx - step := Nat.sub_add_eq bound idx step
    have htiles := ih (by omega) (hrest ▸ Nat.dvd_sub hdvd (Nat.dvd_refl step))
    rw [hrest] at htiles
    exact Tiles.cons_full hle htiles
  | case2 idx h =>
    have hend : bound - idx = 0 := by omega
    exact hend

theorem tiles_strides (hstep : 0 < step) (hdvd : step ∣ bound) :
    Tiles step 0 bound ((strides step bound).map fun i => (i, step)) :=
  tiles_stridesFrom hstep (Nat.zero_le bound) hdvd

/-- Each of the intervals ends within the bound. -/
theorem add_le_of_mem_strides (hstep : 0 < step) (hdvd : step ∣ bound) {i : Nat}
    (hi : i ∈ strides step bound) : i + step ≤ bound := by
  have hmem : (i, step) ∈ (strides step bound).map fun i => (i, step) :=
    List.mem_map.mpr ⟨i, hi, rfl⟩
  have hend := (tiles_strides hstep hdvd).within _ hmem
  omega

theorem zero_mem_strides (hstep : 0 < step) (hbound : 0 < bound) : 0 ∈ strides step bound := by
  rw [strides, stridesFrom, if_pos ⟨hbound, hstep⟩]
  exact List.mem_cons_self

end ZephyrSamples
