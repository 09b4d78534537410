import Mathlib.Data.Nat.Sqrt
import Mathlib.Algebra.BigOperators.Group.List.Basic
import Mathlib.Algebra.Order.BigOperators.Group.List
import Mathlib.Tactic.Ring
import ZephyrSamples.MetairqDispatch.Statistics

/-!
# The figures of the metairq dispatch sample

`isqrt` and `calc_stats`: the smallest and the largest latency, the mean and the deviation.  The
square root is exact for every number of 64 bits.  The deviation is computed from differences cast
to `s32_t` and summed in 64 bits, so it is exact for as long as what the casts and the sum drop
does not take it below the square of the root. -/

namespace ZephyrSamples
namespace MetairqDispatch

/-! ## `isqrt` -/

theorem toNat_shiftRight_two_lt {n : BitVec 64} (h : 1 < n) : (n >>> 2).toNat < n.toNat := by
  have h1 : 1 < n.toNat := h
  rw [BitVec.toNat_ushiftRight, Nat.shiftRight_eq_div_pow]
  omega

/-- The shift of the recursive result is one of 32 bits, what follows has 64. -/
def isqrt (n : BitVec 64) : BitVec 32 :=
  if 1 < n then
    let lo : BitVec 64 := (isqrt (n >>> 2) <<< 1).setWidth 64
    let hi := lo + 1
    if n < hi * hi then lo.setWidth 32 else hi.setWidth 32
  else n.setWidth 32
termination_by n.toNat
decreasing_by exact toNat_shiftRight_two_lt ‹_›

/-- The root of a number is twice the root of its fourth part, or one more. -/
theorem sqrt_eq_of_div_four (n : Nat) :
    Nat.sqrt n = 2 * Nat.sqrt (n / 4) +
      if n < (2 * Nat.sqrt (n / 4) + 1) * (2 * Nat.sqrt (n / 4) + 1) then 0 else 1 := by
  have hle := Nat.sqrt_le (n / 4)
  have hlt := Nat.lt_succ_sqrt (n / 4)
  generalize Nat.sqrt (n / 4) = r at hle hlt
  have hsucc : Nat.succ r * Nat.succ r = r * r + 2 * r + 1 := by
    rw [Nat.succ_eq_add_one]
    ring
  have hodd : (2 * r + 1) * (2 * r + 1) = 4 * (r * r) + 4 * r + 1 := by ring
  symm
  rw [Nat.eq_sqrt]
  by_cases h : n < (2 * r + 1) * (2 * r + 1)
  · rw [if_pos h, Nat.add_zero, show 2 * r * (2 * r) = 4 * (r * r) by ring]
    exact ⟨by omega, h⟩
  · rw [if_neg h, show (2 * r + 1 + 1) * (2 * r + 1 + 1) = 4 * (r * r) + 8 * r + 4 by ring]
    omega

/-- `isqrt` is the root rounded down, for every number of 64 bits. -/
theorem toNat_isqrt (n : BitVec 64) : (isqrt n).toNat = Nat.sqrt n.toNat := by
  have hn := n.isLt
  rw [isqrt]
  by_cases h : 1 < n
  · have ih := toNat_isqrt (n >>> 2)
    rw [BitVec.toNat_ushiftRight, Nat.shiftRight_eq_div_pow] at ih
    have hroot : Nat.sqrt (n.toNat / 4) < 2 ^ 31 := Nat.sqrt_lt.mpr (by omega)
    rw [if_pos h, sqrt_eq_of_div_four n.toNat]
    generalize Nat.sqrt (n.toNat / 4) = r at ih hroot
    have hlo : ((isqrt (n >>> 2) <<< 1).setWidth 64).toNat = 2 * r := by
      rw [BitVec.toNat_setWidth_of_le (by decide), BitVec.toNat_shiftLeft, ih, Nat.shiftLeft_eq,
        Nat.mod_eq_of_lt (by omega)]
      omega
    generalize (isqrt (n >>> 2) <<< 1).setWidth 64 = lo at hlo
    have hhi : (lo + 1).toNat = 2 * r + 1 := by
      have hone : (1 : BitVec 64).toNat = 1 := rfl
      rw [BitVec.toNat_add, hlo, hone, Nat.mod_eq_of_lt (by omega)]
    have hsq : ((lo + 1) * (lo + 1)).toNat = (2 * r + 1) * (2 * r + 1) := by
      have hbound : (2 * r + 1) * (2 * r + 1) < 2 ^ 32 * 2 ^ 32 :=
        Nat.mul_lt_mul'' (by omega) (by omega)
      rw [BitVec.toNat_mul, hhi, Nat.mod_eq_of_lt (by omega)]
    have hcmp : n < (lo + 1) * (lo + 1) ↔ n.toNat < (2 * r + 1) * (2 * r + 1) := by
      rw [BitVec.lt_def, hsq]
    show (if n < (lo + 1) * (lo + 1) then lo.setWidth 32 else (lo + 1).setWidth 32).toNat = _
    by_cases hlt : n.toNat < (2 * r + 1) * (2 * r + 1)
    · rw [if_pos (hcmp.mpr hlt), if_pos hlt, BitVec.toNat_setWidth, hlo,
        Nat.mod_eq_of_lt (by omega)]
      rfl
    · rw [if_neg (mt hcmp.mp hlt), if_neg hlt, BitVec.toNat_setWidth, hhi,
        Nat.mod_eq_of_lt (by omega)]
  · have h1 : n.toNat ≤ 1 := Nat.not_lt.mp h
    rw [if_neg h, BitVec.toNat_setWidth, Nat.mod_eq_of_lt (by omega)]
    rcases Nat.le_one_iff_eq_zero_or_eq_one.mp h1 with h0 | h1
    · rw [h0]
      rfl
    · rw [h1]
      rfl
termination_by n.toNat
decreasing_by exact toNat_shiftRight_two_lt h

/-! ## `calc_stats` -/

def intMax : BitVec 32 := 0x7FFFFFFF

/-- An array with its length as the `u32_t` it is passed as. -/
structure Samples where
  values : List (BitVec 32)
  ne : values ≠ []
  length_lt : values.length < 2 ^ 32

namespace Samples

def n (array : Samples) : BitVec 32 := BitVec.ofNat 32 array.values.length

/-- `array[i]`, by an index that is an `int`. -/
def entry (array : Samples) (i : Nat) : Option (BitVec 32) :=
  if i < 2 ^ 31 then array.values[i]? else none

end Samples

/-- The variables of the first loop. -/
structure Totals where
  lo : BitVec 32
  hi : BitVec 32
  tot : BitVec 64

def Totals.start : Totals := { lo := intMax, hi := 0, tot := 0 }

/-- `MIN` -/
def min32 (a b : BitVec 32) : BitVec 32 := if a < b then a else b

/-- `MAX` -/
def max32 (a b : BitVec 32) : BitVec 32 := if b < a then a else b

/-- The body of the first loop. -/
def Totals.add (t : Totals) (v : BitVec 32) : Totals :=
  { lo := min32 t.lo v, hi := max32 t.hi v, tot := t.tot + v.setWidth 64 }

/-- The body of the second loop. -/
def addSquare (mean : BitVec 32) (totsq : BitVec 64) (v : BitVec 32) : BitVec 64 :=
  let d := (v - mean).signExtend 64
  totsq + d * d

/-- A loop of `n` rounds over the array. -/
def loop {σ : Type} (array : Samples) (body : σ → BitVec 32 → σ) (init : σ) : Nat → Option σ
  | 0 => some init
  | i + 1 => do
    let s ← loop array body init i
    let v ← array.entry i
    return body s v

/-- What `calc_stats` stores. -/
structure Stats where
  lo : BitVec 32
  hi : BitVec 32
  mean : BitVec 32
  stdev : BitVec 32

/-- `*mean`, from the total of the first loop. -/
def meanOf (array : Samples) (tot : BitVec 64) : BitVec 32 :=
  ((tot + (array.n / 2).setWidth 64) / array.n.setWidth 64).setWidth 32

/-- `*stdev`, from the sum of the second loop. -/
def stdevOf (array : Samples) (totsq : BitVec 64) : BitVec 32 :=
  isqrt ((totsq + (array.n / 2).setWidth 64) / array.n.setWidth 64)

/-- The result is `none` if an index leaves the array. -/
def calcStats (array : Samples) : Option Stats := do
  let t ← loop array Totals.add .start array.n.toNat
  let mean := meanOf array t.tot
  let totsq ← loop array (addSquare mean) 0 array.n.toNat
  return { lo := t.lo, hi := t.hi, mean, stdev := stdevOf array totsq }

/-! ### The loops -/

theorem Samples.toNat_n (array : Samples) : array.n.toNat = array.values.length := by
  rw [n, BitVec.toNat_ofNat, Nat.mod_eq_of_lt array.length_lt]

/-- As long as the index is an `int`, a loop of `i` rounds is a fold over the first `i` values. -/
theorem loop_eq {σ : Type} (array : Samples) (body : σ → BitVec 32 → σ) (init : σ) {i : Nat}
    (hi : i ≤ array.values.length) (hint : i ≤ 2 ^ 31) :
    loop array body init i = some ((array.values.take i).foldl body init) := by
  induction i with
  | zero => rfl
  | succ i ih =>
    have hlt : i < array.values.length := hi
    rw [loop, ih (Nat.le_of_lt hlt) (by omega), Samples.entry, if_pos (by omega),
      List.getElem?_eq_getElem hlt, List.take_succ_eq_append_getElem hlt, List.foldl_concat]
    rfl

/-- One round more and the index has wrapped. -/
theorem loop_eq_none {σ : Type} (array : Samples) (body : σ → BitVec 32 → σ) (init : σ) {i : Nat}
    (h : 2 ^ 31 < i) : loop array body init i = none := by
  induction i with
  | zero => exact absurd h (Nat.not_lt_zero _)
  | succ i ih =>
    rw [loop]
    by_cases hi : 2 ^ 31 < i
    · rw [ih hi]
      rfl
    · rw [Samples.entry, if_neg (by omega)]
      cases loop array body init i <;> rfl

/-! ### What the figures should be -/

namespace Samples

def sum (array : Samples) : Nat := (array.values.map BitVec.toNat).sum

/-- The mean, rounded to the nearest number. -/
def trueMean (array : Samples) : Nat :=
  (array.sum + array.values.length / 2) / array.values.length

/-- How far a value is from the mean. -/
def delta (array : Samples) (v : BitVec 32) : Int := (v.toNat : Int) - array.trueMean

def square (array : Samples) (v : BitVec 32) : Nat := (array.delta v).natAbs ^ 2

def squares (array : Samples) : Nat := (array.values.map array.square).sum

/-- The square as the code has it, of the difference cast to `s32_t`. -/
def castSquare (array : Samples) (v : BitVec 32) : Nat :=
  ((array.delta v).bmod (2 ^ 32)).natAbs ^ 2

def castSquares (array : Samples) : Nat := (array.values.map array.castSquare).sum

/-- How much smaller the square becomes by the cast. -/
def excessOf (array : Samples) (v : BitVec 32) : Nat :=
  2 ^ 33 * ((array.delta v).natAbs - 2 ^ 31)

def excess (array : Samples) : Nat := (array.values.map array.excessOf).sum

/-- The square of the deviation. -/
def variance (array : Samples) : Nat :=
  (array.squares + array.values.length / 2) / array.values.length

/-- What the rounded sum of the squares has beyond the square of the root. -/
def slack (array : Samples) : Nat :=
  array.squares + array.values.length / 2
    - array.values.length * (Nat.sqrt array.variance * Nat.sqrt array.variance)

end Samples

/-- The figures are those of the array, and for as many values as there are events no sum leaves
its 64 bits. -/
structure Exact (array : Samples) (s : Stats) : Prop where
  lo : s.lo ∈ array.values ∧ ∀ v ∈ array.values, s.lo.toNat ≤ v.toNat
  hi : s.hi ∈ array.values ∧ ∀ v ∈ array.values, v.toNat ≤ s.hi.toNat
  mean : s.mean.toNat = array.trueMean
  stdev : s.stdev.toNat = Nat.sqrt array.variance
  noWrap : array.values.length ≤ maxEvents →
    (∀ i, ((array.values.take i).map BitVec.toNat).sum < 2 ^ 64) ∧
      array.sum + array.values.length / 2 < 2 ^ 64 ∧
      (∀ i, ((array.values.take i).map array.castSquare).sum < 2 ^ 64) ∧
      array.castSquares + array.values.length / 2 < 2 ^ 64

/-! ### The first loop -/

/-- A fold that keeps one of two values each time, the one that is before the other in an order:
what it ends with is the start or in the list, and before all of them. -/
theorem foldl_pick {α : Type} {r : α → α → Prop} (hrefl : ∀ a, r a a)
    (htrans : ∀ {a b c}, r a b → r b c → r a c) {pick : α → α → α}
    (hpick : ∀ a v, pick a v = a ∧ r a v ∨ pick a v = v ∧ r v a) (l : List α) (a : α) :
    (l.foldl pick a = a ∨ l.foldl pick a ∈ l) ∧ r (l.foldl pick a) a ∧
      ∀ v ∈ l, r (l.foldl pick a) v := by
  induction l generalizing a with
  | nil => exact ⟨Or.inl rfl, hrefl a, fun v hv => absurd hv List.not_mem_nil⟩
  | cons w l ih =>
    obtain ⟨hmem, hle, hall⟩ := ih (pick a w)
    rw [List.foldl_cons]
    rcases hpick a w with ⟨heq, hcmp⟩ | ⟨heq, hcmp⟩ <;> rw [heq] at hmem hle hall ⊢
    · refine ⟨hmem.imp id (List.mem_cons_of_mem w), hle, fun v hv => ?_⟩
      rcases List.mem_cons.mp hv with rfl | hv
      · exact htrans hle hcmp
      · exact hall v hv
    · refine ⟨Or.inr (List.mem_cons.mpr hmem), htrans hle hcmp, fun v hv => ?_⟩
      rcases List.mem_cons.mp hv with rfl | hv
      · exact hle
      · exact hall v hv

theorem min32_pick (a v : BitVec 32) :
    min32 a v = a ∧ a.toNat ≤ v.toNat ∨ min32 a v = v ∧ v.toNat ≤ a.toNat := by
  unfold min32
  by_cases h : a < v
  · rw [if_pos h]
    exact Or.inl ⟨rfl, Nat.le_of_lt h⟩
  · rw [if_neg h]
    exact Or.inr ⟨rfl, Nat.not_lt.mp h⟩

theorem max32_pick (a v : BitVec 32) :
    max32 a v = a ∧ v.toNat ≤ a.toNat ∨ max32 a v = v ∧ a.toNat ≤ v.toNat := by
  unfold max32
  by_cases h : v < a
  · rw [if_pos h]
    exact Or.inl ⟨rfl, Nat.le_of_lt h⟩
  · rw [if_neg h]
    exact Or.inr ⟨rfl, Nat.not_lt.mp h⟩

theorem foldl_lo (l : List (BitVec 32)) (t : Totals) :
    (l.foldl Totals.add t).lo = l.foldl min32 t.lo := by
  induction l generalizing t with
  | nil => rfl
  | cons w l ih => exact ih (t.add w)

theorem foldl_hi (l : List (BitVec 32)) (t : Totals) :
    (l.foldl Totals.add t).hi = l.foldl max32 t.hi := by
  induction l generalizing t with
  | nil => rfl
  | cons w l ih => exact ih (t.add w)

theorem foldl_tot (l : List (BitVec 32)) (t : Totals) :
    (l.foldl Totals.add t).tot.toNat = (t.tot.toNat + (l.map BitVec.toNat).sum) % 2 ^ 64 := by
  induction l generalizing t with
  | nil => exact (Nat.mod_eq_of_lt t.tot.isLt).symm
  | cons w l ih =>
    have htot : (t.add w).tot.toNat = (t.tot.toNat + w.toNat) % 2 ^ 64 := by
      show (t.tot + w.setWidth 64).toNat = _
      rw [BitVec.toNat_add, BitVec.toNat_setWidth_of_le (by decide)]
    rw [List.foldl_cons, ih, htot, List.map_cons, List.sum_cons, Nat.mod_add_mod, Nat.add_assoc]

/-- The smallest value is found if there is one that an `int` holds. -/
theorem lo_exact_iff (array : Samples) :
    ((array.values.foldl Totals.add .start).lo ∈ array.values ∧
      ∀ v ∈ array.values, (array.values.foldl Totals.add .start).lo.toNat ≤ v.toNat) ↔
      ∃ v ∈ array.values, v.toNat ≤ intMax.toNat := by
  rw [foldl_lo]
  obtain ⟨hmem, hle, hall⟩ := foldl_pick (r := fun a b : BitVec 32 => a.toNat ≤ b.toNat)
    (fun _ => Nat.le_refl _) Nat.le_trans min32_pick array.values Totals.start.lo
  refine ⟨fun h => ⟨_, h.1, hle⟩, fun ⟨v, hv, hmax⟩ => ⟨?_, hall⟩⟩
  rcases hmem with heq | hmem
  · have hbound := hall v hv
    rw [heq] at hbound
    have hveq : v = Totals.start.lo := BitVec.eq_of_toNat_eq (Nat.le_antisymm hmax hbound)
    rw [heq, ← hveq]
    exact hv
  · exact hmem

/-- The largest value is always found. -/
theorem hi_exact (array : Samples) :
    (array.values.foldl Totals.add .start).hi ∈ array.values ∧
      ∀ v ∈ array.values, v.toNat ≤ (array.values.foldl Totals.add .start).hi.toNat := by
  rw [foldl_hi]
  obtain ⟨hmem, -, hall⟩ := foldl_pick (r := fun a b : BitVec 32 => b.toNat ≤ a.toNat)
    (fun _ => Nat.le_refl _) (fun hab hbc => Nat.le_trans hbc hab) max32_pick array.values
    Totals.start.hi
  refine ⟨?_, hall⟩
  rcases hmem with heq | hmem
  · obtain ⟨v, hv⟩ := List.exists_mem_of_ne_nil _ array.ne
    have hbound := hall v hv
    rw [heq] at hbound
    have hveq : v = Totals.start.hi := BitVec.eq_of_toNat_eq (Nat.le_zero.mp hbound)
    rw [heq, ← hveq]
    exact hv
  · exact hmem

/-! ### The mean -/

namespace Samples

theorem length_pos (array : Samples) : 0 < array.values.length :=
  List.length_pos_of_ne_nil array.ne

theorem sum_le (array : Samples) : array.sum ≤ array.values.length * (2 ^ 32 - 1) := by
  have h := List.sum_le_card_nsmul (array.values.map BitVec.toNat) (2 ^ 32 - 1) (by
    intro x hx
    obtain ⟨v, -, rfl⟩ := List.mem_map.mp hx
    exact Nat.le_sub_one_of_lt v.isLt)
  rwa [List.length_map] at h

/-- The sum of the values never leaves its 64 bits, and neither does the rounded sum. -/
theorem sum_lt (array : Samples) : array.sum + array.values.length / 2 < 2 ^ 64 := by
  have hsum := array.sum_le
  have hlen := array.length_lt
  omega

theorem trueMean_lt (array : Samples) : array.trueMean < 2 ^ 32 := by
  have hsum := array.sum_le
  have hpos := array.length_pos
  refine (Nat.div_lt_iff_lt_mul hpos).mpr ?_
  omega

/-- Half of the number of values, in the 64 bits of the sums. -/
theorem toNat_half (array : Samples) :
    ((array.n / 2).setWidth 64).toNat = array.values.length / 2 := by
  rw [BitVec.toNat_setWidth_of_le (by decide), BitVec.toNat_udiv, toNat_n]
  rfl

/-- A rounded sum of 64 bits, divided by the number of values. -/
theorem toNat_rounded (array : Samples) (x : BitVec 64) :
    ((x + (array.n / 2).setWidth 64) / array.n.setWidth 64).toNat
      = (x.toNat + array.values.length / 2) % 2 ^ 64 / array.values.length := by
  rw [BitVec.toNat_udiv, BitVec.toNat_add, toNat_half, BitVec.toNat_setWidth_of_le (by decide),
    toNat_n]

end Samples

/-- The mean is exact for every array. -/
theorem toNat_mean (array : Samples) :
    (meanOf array (array.values.foldl Totals.add .start).tot).toNat = array.trueMean := by
  have hstart : Totals.start.tot.toNat = 0 := rfl
  have hsum := array.sum_lt
  have hmean := array.trueMean_lt
  rw [Samples.trueMean] at hmean
  rw [meanOf, BitVec.toNat_setWidth, array.toNat_rounded, foldl_tot, hstart, Nat.zero_add]
  change (array.sum % 2 ^ 64 + _) % 2 ^ 64 / _ % 2 ^ 32 = _
  rw [Nat.mod_eq_of_lt (show array.sum < 2 ^ 64 by omega), Nat.mod_eq_of_lt hsum,
    Nat.mod_eq_of_lt hmean]
  rfl

/-! ### The second loop -/

/-- The difference of two values as the code has it, with the sign of its 32 bits. -/
theorem toInt_difference (v m : BitVec 32) :
    ((v - m).signExtend 64).toInt = ((v.toNat : Int) - m.toNat).bmod (2 ^ 32) := by
  rw [BitVec.toInt_signExtend_of_le (by decide), BitVec.toInt_sub, BitVec.toInt_eq_toNat_bmod v,
    BitVec.toInt_eq_toNat_bmod m, Int.bmod_sub_bmod, Int.sub_bmod_bmod]

/-- A difference of 32 bits squared fits 64 bits, also as a signed number. -/
theorem toNat_square (v m : BitVec 32) :
    ((v - m).signExtend 64 * (v - m).signExtend 64).toNat
      = (((v.toNat : Int) - m.toNat).bmod (2 ^ 32)).natAbs ^ 2 := by
  have he := toInt_difference v m
  have hlow := Int.le_bmod (x := (v.toNat : Int) - m.toNat) (m := 2 ^ 32) (by decide)
  have hhigh := Int.bmod_lt (x := (v.toNat : Int) - m.toNat) (m := 2 ^ 32) (by decide)
  generalize ((v.toNat : Int) - m.toNat).bmod (2 ^ 32) = e at he hlow hhigh ⊢
  generalize (v - m).signExtend 64 = d at he ⊢
  have habs : e.natAbs ≤ 2 ^ 31 := by omega
  have hsq : e.natAbs * e.natAbs ≤ 2 ^ 31 * 2 ^ 31 := Nat.mul_le_mul habs habs
  have hmul : e * e = (e.natAbs * e.natAbs : Nat) := (Int.natAbs_mul_self (a := e)).symm
  have htoInt : (d * d).toInt = (e.natAbs * e.natAbs : Nat) := by
    rw [BitVec.toInt_mul, he, hmul]
    exact Int.bmod_eq_of_le (by omega) (by omega)
  have hlt := (d * d).isLt
  rw [BitVec.toInt_eq_toNat_cond] at htoInt
  rw [Nat.pow_two]
  split at htoInt <;> omega

theorem foldl_addSquare (m : BitVec 32) (l : List (BitVec 32)) (totsq : BitVec 64) :
    (l.foldl (addSquare m) totsq).toNat
      = (totsq.toNat
        + (l.map fun v =>
            (((v.toNat : Int) - m.toNat).bmod (2 ^ 32)).natAbs ^ 2).sum) % 2 ^ 64 := by
  induction l generalizing totsq with
  | nil => exact (Nat.mod_eq_of_lt totsq.isLt).symm
  | cons w l ih =>
    rw [List.foldl_cons, ih, addSquare, BitVec.toNat_add, toNat_square, List.map_cons,
      List.sum_cons, Nat.mod_add_mod, Nat.add_assoc]

/-- What the second loop comes to, with the mean of the first. -/
theorem toNat_totsq (array : Samples) :
    (array.values.foldl (addSquare (meanOf array (array.values.foldl Totals.add .start).tot))
      0).toNat = array.castSquares % 2 ^ 64 := by
  have hzero : (0 : BitVec 64).toNat = 0 := rfl
  rw [foldl_addSquare, toNat_mean, hzero, Nat.zero_add]
  rfl

/-! ### The casts -/

namespace Samples

theorem natAbs_delta_lt (array : Samples) (v : BitVec 32) : (array.delta v).natAbs < 2 ^ 32 := by
  have hv := v.isLt
  have hm := array.trueMean_lt
  rw [delta]
  omega

/-- A difference beyond 31 bits is as far from `2 ^ 32` when it is cast. -/
theorem natAbs_bmod {d : Int} (h : d.natAbs < 2 ^ 32) :
    (d.bmod (2 ^ 32)).natAbs = if d.natAbs ≤ 2 ^ 31 then d.natAbs else 2 ^ 32 - d.natAbs := by
  rw [Int.bmod_eq_emod]
  split <;> split <;> omega

/-- Two numbers as far from `p` on either side: the larger has the larger square, by `4 * p` times
the distance. -/
theorem sq_eq_of_add_eq {a b k p : Nat} (ha : a = p + k) (hb : p = b + k) :
    a ^ 2 = b ^ 2 + 4 * p * k := by
  subst ha hb
  ring

/-- The square of a number of 32 bits, and that of its distance to the nearest multiple of `2 ^ 32`.
-/
theorem sq_eq_of_cast {a : Nat} (hlt : a < 2 ^ 32) :
    a ^ 2 = (if a ≤ 2 ^ 31 then a else 2 ^ 32 - a) ^ 2 + 2 ^ 33 * (a - 2 ^ 31) := by
  by_cases h : a ≤ 2 ^ 31
  · rw [if_pos h, Nat.sub_eq_zero_of_le h, Nat.mul_zero, Nat.add_zero]
  · have hfactor : (2 : Nat) ^ 33 = 4 * 2 ^ 31 := by norm_num
    have ha : a = 2 ^ 31 + (a - 2 ^ 31) := by omega
    have hb : 2 ^ 31 = 2 ^ 32 - a + (a - 2 ^ 31) := by omega
    rw [if_neg h, hfactor]
    exact sq_eq_of_add_eq ha hb

/-- A cast takes from the square what its difference has beyond 31 bits, times `2 ^ 33`. -/
theorem square_eq (array : Samples) (v : BitVec 32) :
    array.square v = array.castSquare v + array.excessOf v := by
  have hlt := array.natAbs_delta_lt v
  have hcast : array.castSquare v = _ ^ 2 := congrArg (· ^ 2) (natAbs_bmod hlt)
  rw [hcast]
  exact sq_eq_of_cast hlt

theorem squares_eq (array : Samples) : array.squares = array.castSquares + array.excess := by
  rw [squares, castSquares, excess, ← List.sum_map_add]
  exact congrArg List.sum (List.map_congr_left fun v _ => array.square_eq v)

theorem squares_le (array : Samples) :
    array.squares ≤ array.values.length * ((2 ^ 32 - 1) * (2 ^ 32 - 1)) := by
  have h := List.sum_le_card_nsmul (array.values.map array.square)
    ((2 ^ 32 - 1) * (2 ^ 32 - 1)) (by
      intro x hx
      obtain ⟨v, -, rfl⟩ := List.mem_map.mp hx
      have hlt := array.natAbs_delta_lt v
      have hd : (array.delta v).natAbs ≤ 2 ^ 32 - 1 := by omega
      rw [square, Nat.pow_two]
      exact Nat.mul_le_mul hd hd)
  rwa [List.length_map] at h

/-- The slack of an array that an `int` can index is less than `2 ^ 64`. -/
theorem slack_lt (array : Samples) (h : array.values.length ≤ 2 ^ 31) : array.slack < 2 ^ 64 := by
  have hpos := array.length_pos
  have hsquares := array.squares_le
  have hlt := Nat.lt_succ_sqrt array.variance
  have hroot : Nat.sqrt array.variance < 2 ^ 32 := by
    refine Nat.sqrt_lt.mpr ((Nat.div_lt_iff_lt_mul hpos).mpr ?_)
    omega
  rw [slack]
  rw [variance] at hlt hroot ⊢
  generalize array.values.length = n at *
  generalize array.squares + n / 2 = x at *
  have hbound := (Nat.div_lt_iff_lt_mul hpos).mp hlt
  generalize Nat.sqrt (x / n) = r at *
  have hexpand : Nat.succ r * Nat.succ r * n = n * (r * r) + n * (2 * r + 1) := by
    rw [Nat.succ_eq_add_one]
    ring
  have hprod : n * (2 * r + 1) < 2 ^ 31 * 2 ^ 33 :=
    Nat.mul_lt_mul_of_le_of_lt h (by omega) (by omega)
  omega

end Samples

/-- The root of a smaller number is the same as long as the number is not below its square. -/
theorem sqrt_eq_iff_of_le {m n : Nat} (h : m ≤ n) :
    Nat.sqrt m = Nat.sqrt n ↔ Nat.sqrt n * Nat.sqrt n ≤ m := by
  constructor
  · intro heq
    rw [← heq]
    exact Nat.sqrt_le m
  · intro hle
    exact Nat.le_antisymm (Nat.sqrt_le_sqrt h) (Nat.le_sqrt.mpr hle)

/-- The deviation is exact when what the casts and the 64 bits of the sum take leaves it above the
square of the root. -/
theorem stdev_exact_iff (array : Samples) (h : array.values.length ≤ 2 ^ 31) {totsq : BitVec 64}
    (htotsq : totsq.toNat = array.castSquares % 2 ^ 64) :
    (stdevOf array totsq).toNat = Nat.sqrt array.variance ↔
      array.squares + array.values.length / 2 < 2 ^ 64 + array.excess ∧
        array.excess ≤ array.slack := by
  have hpos := array.length_pos
  have hslack := array.slack_lt h
  have hx : array.squares + array.values.length / 2
      = array.castSquares + array.values.length / 2 + array.excess := by
    have hsquares := array.squares_eq
    omega
  rw [Samples.slack] at hslack ⊢
  rw [stdevOf, toNat_isqrt, array.toNat_rounded, htotsq, Nat.mod_add_mod]
  have hsqrt := Nat.sqrt_le array.variance
  rw [Samples.variance] at hsqrt hslack ⊢
  rw [Nat.le_div_iff_mul_le hpos, Nat.mul_comm] at hsqrt
  generalize array.values.length = n at *
  rw [hx] at hsqrt hslack ⊢
  generalize array.castSquares + n / 2 = c at *
  generalize array.excess = e at *
  have hmod : c % 2 ^ 64 ≤ c := Nat.mod_le _ _
  have hdiv : c % 2 ^ 64 / n ≤ (c + e) / n := Nat.div_le_div_right (by omega)
  rw [sqrt_eq_iff_of_le hdiv, Nat.le_div_iff_mul_le hpos, Nat.mul_comm _ n]
  generalize n * (Nat.sqrt ((c + e) / n) * Nat.sqrt ((c + e) / n)) = q at *
  -- a sum that leaves its 64 bits loses more than the slack
  omega

/-! ### The figures -/

theorem calcStats_eq_none {array : Samples} (h : 2 ^ 31 < array.values.length) :
    calcStats array = none := by
  rw [calcStats, loop_eq_none array _ _ (by rwa [array.toNat_n])]
  rfl

/-- What `calc_stats` stores for an array that an `int` can index. -/
theorem calcStats_eq {array : Samples} (h : array.values.length ≤ 2 ^ 31) :
    calcStats array = some
      (let t := array.values.foldl Totals.add .start
       { lo := t.lo, hi := t.hi, mean := meanOf array t.tot
         stdev := stdevOf array (array.values.foldl (addSquare (meanOf array t.tot)) 0) }) := by
  have hfold : ∀ {σ : Type} (body : σ → BitVec 32 → σ) (init : σ),
      loop array body init array.n.toNat = some (array.values.foldl body init) := by
    intro σ body init
    rw [array.toNat_n, loop_eq array body init (Nat.le_refl _) h, List.take_length]
  rw [calcStats, hfold]
  show (loop array (addSquare _) 0 array.n.toNat).bind _ = _
  rw [hfold]
  rfl

theorem sum_map_take_lt {array : Samples} {f : BitVec 32 → Nat} {b : Nat}
    (h : (array.values.map f).sum + array.values.length / 2 < b) (i : Nat) :
    ((array.values.take i).map f).sum < b := by
  have hle := ((List.take_sublist i array.values).map f).sum_le_sum (fun _ _ => Nat.zero_le _)
  omega

/-- The figures are exact exactly when an `int` can index the array, a value is at most `INT_MAX`,
and the casts and the sum take from the squares no more than the slack; the root is exact always. -/
theorem calcStats_exact_iff (array : Samples) :
    (∀ x, (isqrt x).toNat = Nat.sqrt x.toNat) ∧
      ((∃ s, calcStats array = some s ∧ Exact array s) ↔
        array.values.length ≤ 2 ^ 31 ∧ (∃ v ∈ array.values, v.toNat ≤ intMax.toNat) ∧
          array.squares + array.values.length / 2 < 2 ^ 64 + array.excess ∧
          array.excess ≤ array.slack) := by
  refine ⟨toNat_isqrt, ?_⟩
  constructor
  · rintro ⟨s, hs, hexact⟩
    have hlen : array.values.length ≤ 2 ^ 31 := by
      by_contra hlong
      rw [calcStats_eq_none (Nat.not_le.mp hlong)] at hs
      exact absurd hs nofun
    rw [calcStats_eq hlen] at hs
    obtain rfl := Option.some.inj hs
    refine ⟨hlen, (lo_exact_iff array).mp hexact.lo, ?_⟩
    exact (stdev_exact_iff array hlen (toNat_totsq array)).mp hexact.stdev
  · rintro ⟨hlen, hlo, hstdev⟩
    refine ⟨_, calcStats_eq hlen, (lo_exact_iff array).mpr hlo, hi_exact array, toNat_mean array,
      (stdev_exact_iff array hlen (toNat_totsq array)).mpr hstdev, fun _ => ?_⟩
    have hcast : array.castSquares + array.values.length / 2 < 2 ^ 64 := by
      have hsquares := array.squares_eq
      omega
    exact ⟨sum_map_take_lt array.sum_lt, array.sum_lt, sum_map_take_lt hcast, hcast⟩

/-- A single latency above `INT_MAX`: the smallest value comes out as `INT_MAX`. -/
def late : Samples where
  values := [0x80000000]
  ne := List.cons_ne_nil _ _
  length_lt := by
    show 1 < 2 ^ 32
    omega

theorem calcStats_late_not_exact : ¬ ∃ s, calcStats late = some s ∧ Exact late s := by
  rintro ⟨s, hs, hexact⟩
  have hlen : late.values.length ≤ 2 ^ 31 := by
    show 1 ≤ 2 ^ 31
    omega
  rw [calcStats_eq hlen] at hs
  obtain rfl := Option.some.inj hs
  obtain ⟨v, hv, hmax⟩ := (lo_exact_iff late).mp hexact.lo
  rw [List.mem_singleton.mp hv] at hmax
  exact absurd hmax (by decide)

end MetairqDispatch
end ZephyrSamples
