import Mathlib.Algebra.Order.Field.Power
import Mathlib.Algebra.Order.Round
import Mathlib.Data.Int.Log
import Mathlib.Data.Rat.Floor
import Mathlib.Tactic.FieldSimp
import Mathlib.Tactic.Linarith
import Mathlib.Tactic.NormNum
import Mathlib.Tactic.Positivity
import Mathlib.Tactic.Ring

/-!
# Rounding to binary32

IEEE 754 single precision as arithmetic on rationals: `rnd q` is the binary32 value nearest to `q`,
ties to the even significand, for magnitudes that do not overflow.  A C expression on `float`s is
then the exact operation followed by `rnd`, and a conversion to an integer type truncates.

Two facts carry most bounds: `rnd` is monotone and it fixes every number with a 24-bit significand,
so a bound by such a number survives rounding.  `rnd_le_of_normal` adds the relative error for the
bounds that are not themselves representable.
-/

namespace ZephyrSamples
namespace Binary32

/-! ## The nearest integer, ties to even -/

def roundEven (q : ℚ) : ℤ :=
  if Int.fract q < 1 / 2 then ⌊q⌋
  else if 1 / 2 < Int.fract q then ⌊q⌋ + 1
  else if ⌊q⌋ % 2 = 0 then ⌊q⌋ else ⌊q⌋ + 1

theorem floor_le_roundEven (q : ℚ) : ⌊q⌋ ≤ roundEven q := by
  unfold roundEven
  split_ifs <;> omega

theorem roundEven_le_floor_add_one (q : ℚ) : roundEven q ≤ ⌊q⌋ + 1 := by
  unfold roundEven
  split_ifs <;> omega

@[simp] theorem roundEven_intCast (n : ℤ) : roundEven (n : ℚ) = n := by
  simp [roundEven]

theorem roundEven_mono {q r : ℚ} (h : q ≤ r) : roundEven q ≤ roundEven r := by
  rcases (Int.floor_mono h).lt_or_eq with hlt | heq
  · have h₁ := roundEven_le_floor_add_one q
    have h₂ := floor_le_roundEven r
    omega
  · have hf : Int.fract q ≤ Int.fract r := by
      have h₁ := Int.floor_add_fract q
      have h₂ := Int.floor_add_fract r
      have h₃ : (⌊q⌋ : ℚ) = ⌊r⌋ := by rw [heq]
      linarith
    unfold roundEven
    rw [heq]
    split_ifs <;> first | omega | linarith

/-- Rounding moves a number by at most one half. -/
theorem abs_roundEven_sub_le (q : ℚ) : |(roundEven q : ℚ) - q| ≤ 1 / 2 := by
  have hq := Int.floor_add_fract q
  have h₀ := Int.fract_nonneg q
  have h₁ := Int.fract_lt_one q
  rw [abs_le]
  unfold roundEven
  split_ifs <;> push_cast <;> constructor <;> linarith

theorem roundEven_neg (q : ℚ) : roundEven (-q) = -roundEven q := by
  rcases eq_or_ne (Int.fract q) 0 with h0 | h0
  · have hq : q = (⌊q⌋ : ℚ) := by
      have := Int.floor_add_fract q
      linarith
    rw [hq, ← Int.cast_neg, roundEven_intCast, roundEven_intCast]
  · have hfract : Int.fract (-q) = 1 - Int.fract q := Int.fract_neg h0
    have hfloor : ⌊-q⌋ = -⌊q⌋ - 1 := by
      have h₁ := Int.floor_add_fract (-q)
      have h₂ := Int.floor_add_fract q
      have h₃ : ((⌊-q⌋ : ℤ) : ℚ) = ((-⌊q⌋ - 1 : ℤ) : ℚ) := by
        push_cast
        linarith
      exact_mod_cast h₃
    unfold roundEven
    rw [hfract, hfloor]
    split_ifs <;> first | omega | linarith

/-! ## Rounding to a 24-bit significand -/

/-- The exponent of the last place of the binary32 numbers of `q`'s magnitude. -/
def ulpExp (q : ℚ) : ℤ := max (Int.log 2 |q| - 23) (-149)

/-- The binary32 number nearest to `q`, ties to the even significand. -/
def rnd (q : ℚ) : ℚ := roundEven (q / 2 ^ ulpExp q) * 2 ^ ulpExp q

theorem ulp_pos (q : ℚ) : (0 : ℚ) < 2 ^ ulpExp q := by positivity

@[simp] theorem ulpExp_neg (q : ℚ) : ulpExp (-q) = ulpExp q := by
  rw [ulpExp, ulpExp, abs_neg]

@[simp] theorem rnd_neg (q : ℚ) : rnd (-q) = -rnd q := by
  rw [rnd, rnd, ulpExp_neg, neg_div, roundEven_neg]
  push_cast
  ring

/-- A number with a significand of at most 24 bits is its own rounding. -/
theorem rnd_eq_self {m e : ℤ} (hm : |m| < 2 ^ 24) (he : -149 ≤ e) :
    rnd ((m : ℚ) * 2 ^ e) = (m : ℚ) * 2 ^ e := by
  rcases eq_or_ne m 0 with rfl | hm0
  · simp [rnd, roundEven]
  · have hpos : (0 : ℚ) < |(m : ℚ) * 2 ^ e| := by
      rw [abs_pos]
      positivity
    have hlt : |(m : ℚ) * 2 ^ e| < ((2 : ℕ) : ℚ) ^ (24 + e) := by
      have hm' : |(m : ℚ)| < 2 ^ 24 := by exact_mod_cast hm
      rw [abs_mul, abs_of_pos (by positivity : (0 : ℚ) < 2 ^ e), Nat.cast_ofNat,
        zpow_add₀ (by norm_num : (2 : ℚ) ≠ 0)]
      exact mul_lt_mul_of_pos_right (by exact_mod_cast hm') (by positivity)
    have hlog : Int.log 2 |(m : ℚ) * 2 ^ e| < 24 + e :=
      (Int.lt_zpow_iff_log_lt (by norm_num) hpos).mp hlt
    have hu : ulpExp ((m : ℚ) * 2 ^ e) ≤ e := by
      rw [ulpExp]
      omega
    obtain ⟨k, hk⟩ := Int.le.dest hu
    have hdiv : (m : ℚ) * 2 ^ e / 2 ^ ulpExp ((m : ℚ) * 2 ^ e) = ((m * 2 ^ k : ℤ) : ℚ) := by
      rw [div_eq_iff (ulp_pos _).ne']
      conv_lhs => rw [← hk]
      rw [zpow_add₀ (by norm_num : (2 : ℚ) ≠ 0), zpow_natCast]
      push_cast
      ring
    rw [rnd, hdiv, roundEven_intCast, ← hdiv, div_mul_cancel₀ _ (ulp_pos _).ne']

theorem rnd_intCast {n : ℤ} (hn : |n| < 2 ^ 24) : rnd (n : ℚ) = n := by
  simpa using rnd_eq_self (e := 0) hn (by norm_num)

@[simp] theorem rnd_zero : rnd 0 = 0 := by
  simp [rnd, roundEven]

theorem rnd_nonneg {q : ℚ} (h : 0 ≤ q) : 0 ≤ rnd q := by
  have : (0 : ℤ) ≤ roundEven (q / 2 ^ ulpExp q) := by
    have := roundEven_mono (q := 0) (r := q / 2 ^ ulpExp q) (by positivity)
    simpa [roundEven] using this
  rw [rnd]
  have h' : (0 : ℚ) ≤ roundEven (q / 2 ^ ulpExp q) := by exact_mod_cast this
  exact mul_nonneg h' (ulp_pos q).le

theorem lt_zpow_ulpExp (q : ℚ) : |q| < 2 ^ (ulpExp q + 24) := by
  have h := Int.lt_zpow_succ_log_self (b := 2) (by norm_num) |q|
  have hle : Int.log 2 |q| + 1 ≤ ulpExp q + 24 := by
    rw [ulpExp]
    omega
  refine lt_of_lt_of_le h ?_
  rw [Nat.cast_ofNat]
  exact zpow_le_zpow_right₀ (by norm_num) hle

/-- Above the subnormals a number reaches the top bit of its 24. -/
theorem zpow_ulpExp_le {q : ℚ} (hq : 0 < q) (h : -149 < ulpExp q) :
    2 ^ (ulpExp q + 23) ≤ q := by
  have hlog : ulpExp q + 23 = Int.log 2 |q| := by
    rw [ulpExp] at h ⊢
    omega
  have := Int.zpow_log_le_self (b := 2) (by norm_num) hq
  rw [hlog, abs_of_pos hq]
  exact_mod_cast this

theorem rnd_le_zpow {q : ℚ} (hq : 0 ≤ q) : rnd q ≤ 2 ^ (ulpExp q + 24) := by
  have hlt : q / 2 ^ ulpExp q ≤ ((2 ^ 24 : ℤ) : ℚ) := by
    rw [div_le_iff₀ (ulp_pos q)]
    have := lt_zpow_ulpExp q
    rw [abs_of_nonneg hq, zpow_add₀ (by norm_num : (2 : ℚ) ≠ 0)] at this
    push_cast
    rw [mul_comm]
    exact_mod_cast this.le
  have hround := roundEven_mono hlt
  rw [roundEven_intCast] at hround
  rw [rnd, zpow_add₀ (by norm_num : (2 : ℚ) ≠ 0), mul_comm]
  have : (roundEven (q / 2 ^ ulpExp q) : ℚ) ≤ 2 ^ 24 := by exact_mod_cast hround
  exact mul_le_mul_of_nonneg_left (by exact_mod_cast this) (ulp_pos q).le

theorem zpow_le_rnd {q : ℚ} (hq : 0 < q) (h : -149 < ulpExp q) :
    2 ^ (ulpExp q + 23) ≤ rnd q := by
  have hge : ((2 ^ 23 : ℤ) : ℚ) ≤ q / 2 ^ ulpExp q := by
    rw [le_div_iff₀ (ulp_pos q)]
    have := zpow_ulpExp_le hq h
    rw [zpow_add₀ (by norm_num : (2 : ℚ) ≠ 0)] at this
    push_cast
    rw [mul_comm]
    exact_mod_cast this
  have hround := roundEven_mono hge
  rw [roundEven_intCast] at hround
  rw [rnd, zpow_add₀ (by norm_num : (2 : ℚ) ≠ 0), mul_comm]
  have : (2 ^ 23 : ℚ) ≤ roundEven (q / 2 ^ ulpExp q) := by exact_mod_cast hround
  exact mul_le_mul_of_nonneg_right (by exact_mod_cast this) (ulp_pos q).le

theorem ulpExp_mono {q r : ℚ} (hq : 0 < q) (h : q ≤ r) : ulpExp q ≤ ulpExp r := by
  have : Int.log 2 |q| ≤ Int.log 2 |r| := by
    rw [abs_of_pos hq, abs_of_pos (hq.trans_le h)]
    exact Int.log_mono_right hq h
  rw [ulpExp, ulpExp]
  omega

theorem rnd_mono_of_pos {q r : ℚ} (hq : 0 < q) (h : q ≤ r) : rnd q ≤ rnd r := by
  rcases (ulpExp_mono hq h).lt_or_eq with hlt | heq
  · have hsub : -149 < ulpExp r := by
      have : -149 ≤ ulpExp q := le_max_right _ _
      omega
    calc rnd q ≤ 2 ^ (ulpExp q + 24) := rnd_le_zpow hq.le
      _ ≤ 2 ^ (ulpExp r + 23) := zpow_le_zpow_right₀ (by norm_num) (by omega)
      _ ≤ rnd r := zpow_le_rnd (hq.trans_le h) hsub
  · rw [rnd, rnd, heq]
    have hdiv : q / 2 ^ ulpExp r ≤ r / 2 ^ ulpExp r :=
      div_le_div_of_nonneg_right h (ulp_pos r).le
    have : (roundEven (q / 2 ^ ulpExp r) : ℚ) ≤ roundEven (r / 2 ^ ulpExp r) := by
      exact_mod_cast roundEven_mono hdiv
    exact mul_le_mul_of_nonneg_right this (ulp_pos r).le

theorem rnd_mono {q r : ℚ} (h : q ≤ r) : rnd q ≤ rnd r := by
  rcases lt_or_ge 0 q with hq | hq
  · exact rnd_mono_of_pos hq h
  · rcases lt_or_ge r 0 with hr | hr
    · have := rnd_mono_of_pos (q := -r) (r := -q) (by linarith) (by linarith)
      rw [rnd_neg, rnd_neg] at this
      linarith
    · have h₁ := rnd_nonneg hr
      have h₂ := rnd_nonneg (q := -q) (by linarith)
      rw [rnd_neg] at h₂
      linarith

theorem rnd_le {q : ℚ} {m e : ℤ} (hm : |m| < 2 ^ 24) (he : -149 ≤ e) (h : q ≤ (m : ℚ) * 2 ^ e) :
    rnd q ≤ (m : ℚ) * 2 ^ e := by
  rw [← rnd_eq_self hm he]
  exact rnd_mono h

theorem rnd_le_intCast {q : ℚ} {n : ℤ} (hn : |n| < 2 ^ 24) (h : q ≤ n) : rnd q ≤ n := by
  rw [← rnd_intCast hn]
  exact rnd_mono h

theorem intCast_le_rnd {q : ℚ} {n : ℤ} (hn : |n| < 2 ^ 24) (h : n ≤ q) : n ≤ rnd q := by
  rw [← rnd_intCast hn]
  exact rnd_mono h

/-- The relative error of rounding a number in the normal range. -/
theorem rnd_le_of_normal {q : ℚ} (hq : 2 ^ (-126 : ℤ) ≤ q) :
    rnd q ≤ q * (1 + 2 ^ (-24 : ℤ)) := by
  have hpos : 0 < q := lt_of_lt_of_le (by positivity) hq
  have hulp : (2 : ℚ) ^ ulpExp q ≤ q * 2 ^ (-23 : ℤ) := by
    have hlog : ulpExp q = Int.log 2 |q| - 23 := by
      have : (-126 : ℤ) ≤ Int.log 2 |q| := by
        rw [abs_of_pos hpos]
        exact (Int.zpow_le_iff_le_log (b := 2) (by norm_num) hpos).mp (by exact_mod_cast hq)
      rw [ulpExp]
      omega
    have := Int.zpow_log_le_self (b := 2) (by norm_num) hpos
    rw [hlog, abs_of_pos hpos, sub_eq_add_neg, zpow_add₀ (by norm_num : (2 : ℚ) ≠ 0)]
    exact mul_le_mul_of_nonneg_right (by exact_mod_cast this) (by positivity)
  have herr := (abs_le.mp (abs_roundEven_sub_le (q / 2 ^ ulpExp q))).2
  have hround : (roundEven (q / 2 ^ ulpExp q) : ℚ) ≤ q / 2 ^ ulpExp q + 1 / 2 := by linarith
  calc rnd q ≤ (q / 2 ^ ulpExp q + 1 / 2) * 2 ^ ulpExp q :=
        mul_le_mul_of_nonneg_right hround (ulp_pos q).le
    _ = q + 2 ^ ulpExp q / 2 := by
        rw [add_mul, div_mul_cancel₀ _ (ulp_pos q).ne']
        ring
    _ ≤ q + q * 2 ^ (-23 : ℤ) / 2 :=
        add_le_add le_rfl (div_le_div_of_nonneg_right hulp (by norm_num))
    _ = q * (1 + 2 ^ (-24 : ℤ)) := by
        norm_num
        ring

/-! ## Conversion to an integer -/

/-- Truncation toward zero, as a C conversion to an integer type does. -/
def trunc (q : ℚ) : ℤ := if 0 ≤ q then ⌊q⌋ else ⌈q⌉

theorem trunc_of_nonneg {q : ℚ} (h : 0 ≤ q) : trunc q = ⌊q⌋ := if_pos h

theorem trunc_neg (q : ℚ) : trunc (-q) = -trunc q := by
  rcases lt_trichotomy q 0 with h | rfl | h
  · rw [trunc, trunc, if_pos (by linarith), if_neg (by linarith), Int.floor_neg]
  · simp [trunc]
  · rw [trunc, trunc, if_neg (by linarith), if_pos h.le, Int.ceil_neg]

theorem trunc_nonneg {q : ℚ} (h : 0 ≤ q) : 0 ≤ trunc q := by
  rw [trunc_of_nonneg h]
  exact Int.floor_nonneg.mpr h

theorem le_trunc {q : ℚ} {n : ℤ} (hn : 0 ≤ n) (h : (n : ℚ) ≤ q) : n ≤ trunc q := by
  have hq : (0 : ℚ) ≤ q := le_trans (by exact_mod_cast hn) h
  rw [trunc_of_nonneg hq]
  exact Int.le_floor.mpr h

theorem trunc_lt {q : ℚ} {n : ℤ} (hn : 0 < n) (h : q < n) : trunc q < n := by
  rcases le_or_gt 0 q with hq | hq
  · rw [trunc_of_nonneg hq]
    exact Int.floor_lt.mpr h
  · rw [trunc, if_neg (not_le.mpr hq)]
    have : ⌈q⌉ ≤ 0 := Int.ceil_le.mpr (by exact_mod_cast hq.le)
    omega

theorem neg_le_trunc {q : ℚ} {n : ℤ} (hn : 0 ≤ n) (h : -(n : ℚ) ≤ q) : -n ≤ trunc q := by
  rcases le_or_gt 0 q with hq | hq
  · have := trunc_nonneg hq
    omega
  · rw [trunc, if_neg (not_le.mpr hq)]
    have : (-(n : ℚ)) ≤ (⌈q⌉ : ℚ) := h.trans (Int.le_ceil q)
    exact_mod_cast this

theorem trunc_rnd_div_natCast {x c : ℤ} (hx : 0 ≤ x) (hx' : x < 2 ^ 20) (hc : 0 < c)
    (hc' : c ≤ 16) : trunc (rnd ((x : ℚ) / c)) = x / c := by
  have hcq : (0 : ℚ) < c := by exact_mod_cast hc
  have hxq : (0 : ℚ) ≤ x := by exact_mod_cast hx
  have hn₀ : 0 ≤ x / c := Int.ediv_nonneg hx hc.le
  have hn₁ : x / c ≤ x := Int.ediv_le_self c hx
  have hmul : x = c * (x / c) + x % c := (Int.mul_ediv_add_emod x c).symm
  have hmod : x % c ≤ c - 1 := by
    have := Int.emod_lt_of_pos x hc
    omega
  have hmod₀ : 0 ≤ x % c := Int.emod_nonneg x hc.ne'
  have hlow : ((x / c : ℤ) : ℚ) ≤ (x : ℚ) / c := by
    rw [le_div_iff₀ hcq]
    have : (x / c) * c ≤ x := by nlinarith
    exact_mod_cast this
  -- the quotient is a sixteenth or more below the next integer, and sixteenths are representable
  have hhigh : (x : ℚ) / c ≤ ((16 * (x / c) + 15 : ℤ) : ℚ) * 2 ^ (-4 : ℤ) := by
    rw [div_le_iff₀ hcq]
    have h16 : 16 * x ≤ (16 * (x / c) + 15) * c := by nlinarith
    have h16' : (16 * x : ℚ) ≤ ((16 * (x / c) + 15 : ℤ) : ℚ) * c := by exact_mod_cast h16
    norm_num at h16' ⊢
    linarith
  have hlow' : ((x / c : ℤ) : ℚ) ≤ rnd ((x : ℚ) / c) :=
    intCast_le_rnd (by rw [abs_of_nonneg hn₀]; omega) hlow
  have hhigh' : rnd ((x : ℚ) / c) ≤ ((16 * (x / c) + 15 : ℤ) : ℚ) * 2 ^ (-4 : ℤ) :=
    rnd_le (by rw [abs_of_nonneg (by omega)]; omega) (by norm_num) hhigh
  have h₁ : x / c ≤ trunc (rnd ((x : ℚ) / c)) := le_trunc hn₀ hlow'
  have h₂ : trunc (rnd ((x : ℚ) / c)) < x / c + 1 := by
    refine trunc_lt (by omega) (lt_of_le_of_lt hhigh' ?_)
    push_cast
    norm_num
    linarith
  omega

/-- Dividing a small integer by one of at most sixteen in binary32 and truncating is the integer
division of C. -/
theorem trunc_rnd_div {x c : ℤ} (hx : |x| < 2 ^ 20) (hc : 0 < c) (hc' : c ≤ 16) :
    trunc (rnd ((x : ℚ) / c)) = x.tdiv c := by
  rcases le_or_gt 0 x with h | h
  · rw [abs_of_nonneg h] at hx
    rw [trunc_rnd_div_natCast h hx hc hc', Int.tdiv_eq_ediv_of_nonneg h]
  · rw [abs_of_neg h] at hx
    have hneg : ((x : ℚ) / c) = -(((-x : ℤ) : ℚ) / c) := by
      push_cast
      ring
    rw [hneg, rnd_neg, trunc_neg, trunc_rnd_div_natCast (by omega) hx hc hc',
      ← Int.tdiv_eq_ediv_of_nonneg (by omega), Int.neg_tdiv, neg_neg]

end Binary32
end ZephyrSamples
