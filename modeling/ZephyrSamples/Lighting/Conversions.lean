import ZephyrSamples.Lighting.Frames

/-!
# The conversions of the colour temperature

With a range of at least two temperatures, none below `TEMP_MIN` or above `TEMP_MAX`, and a
temperature of the range, the divisions of `light_ctl_temp_to_level` and `update_led_gpio` are
defined and their results fit the types they are converted to.  The products and quotients are
rounded, so each bound is one that survives rounding.
-/

namespace ZephyrSamples
namespace Lighting

open Binary32

/-- A temperature range the conversions are defined for. -/
structure Temperature.Ranged (t : Temperature) : Prop where
  low : tempMin ≤ t.rangeMin
  span : t.rangeMin < t.rangeMax
  high : t.rangeMax ≤ tempMax

namespace Server

/-- In the temperature range of the state. -/
def InTempRange (s : Server) (temp : UInt16) : Prop :=
  s.temp.rangeMin ≤ temp ∧ temp ≤ s.temp.rangeMax

section Bounds

variable {s : Server} (hs : s.temp.Ranged)
include hs

theorem tempSpan_bounds : 0 < s.tempSpan ∧ s.tempSpan ≤ 19200 := by
  have hlow : 800 ≤ s.temp.rangeMin.toNat := UInt16.le_iff_toNat_le.mp hs.low
  have hspan := UInt16.lt_iff_toNat_lt.mp hs.span
  have hhigh : s.temp.rangeMax.toNat ≤ 20000 := UInt16.le_iff_toNat_le.mp hs.high
  unfold tempSpan
  omega

theorem rnd_tempSpan : rnd s.tempSpan = s.tempSpan := by
  obtain ⟨hpos, hle⟩ := tempSpan_bounds hs
  exact rnd_intCast (by rw [abs_of_pos hpos]; omega)

omit hs in
theorem sub_rangeMin_bounds {temp : UInt16} (ht : s.InTempRange temp) :
    0 ≤ (temp.toNat : ℤ) - s.temp.rangeMin.toNat ∧
      (temp.toNat : ℤ) - s.temp.rangeMin.toNat ≤ s.tempSpan := by
  have hlow := UInt16.le_iff_toNat_le.mp ht.1
  have hhigh := UInt16.le_iff_toNat_le.mp ht.2
  unfold tempSpan
  omega

theorem tempLevel_bounds {temp : UInt16} (ht : s.InTempRange temp) :
    ∃ level, s.tempLevel temp = some level ∧ -32768 ≤ trunc level ∧ trunc level ≤ 32767 := by
  obtain ⟨hpos, hle⟩ := tempSpan_bounds hs
  obtain ⟨hnonneg, hin⟩ := sub_rangeMin_bounds ht
  have hspan : (0 : ℚ) < s.tempSpan := by exact_mod_cast hpos
  have hwrap : Int.bmod (((temp.toNat : ℤ) - s.temp.rangeMin.toNat) * 65535) (2 ^ 32) =
      ((temp.toNat : ℤ) - s.temp.rangeMin.toNat) * 65535 := by
    apply Int.bmod_eq_of_le_mul_two <;> omega
  have hproduct : rnd (((temp.toNat : ℤ) - s.temp.rangeMin.toNat) * 65535 : ℤ) ≤
      s.tempSpan * 65535 * (1 + 2 ^ (-24 : ℤ)) := by
    calc rnd (((temp.toNat : ℤ) - s.temp.rangeMin.toNat) * 65535 : ℤ)
        ≤ rnd (s.tempSpan * 65535 : ℤ) := by
          apply rnd_mono
          exact_mod_cast Int.mul_le_mul_of_nonneg_right hin (by norm_num)
      _ ≤ s.tempSpan * 65535 * (1 + 2 ^ (-24 : ℤ)) := by
          have hone : (1 : ℚ) ≤ s.tempSpan := by exact_mod_cast hpos
          rw [Int.cast_mul]
          apply rnd_le_of_normal
          norm_num
          linarith
  have hproduct₀ : 0 ≤ rnd (((temp.toNat : ℤ) - s.temp.rangeMin.toNat) * 65535 : ℤ) := by
    apply rnd_nonneg
    exact_mod_cast Int.mul_nonneg hnonneg (by norm_num)
  have hlevel : s.tempLevel temp = some (rnd (rnd
      (rnd (((temp.toNat : ℤ) - s.temp.rangeMin.toNat) * 65535 : ℤ) / s.tempSpan) + (-32768))) := by
    rw [tempLevel, if_neg hpos.ne', hwrap, rnd_tempSpan hs]
  generalize rnd (((temp.toNat : ℤ) - s.temp.rangeMin.toNat) * 65535 : ℤ) = product at *
  have hquotient : product / s.tempSpan ≤ ((131071 : ℤ) : ℚ) * 2 ^ (-1 : ℤ) := by
    rw [div_le_iff₀ hspan]
    refine hproduct.trans ?_
    norm_num
    nlinarith
  have hrounded := rnd_le (by norm_num) (by norm_num) hquotient
  have hrounded₀ : 0 ≤ rnd (product / s.tempSpan) := rnd_nonneg (div_nonneg hproduct₀ hspan.le)
  generalize rnd (product / s.tempSpan) = quotient at *
  refine ⟨_, hlevel, ?_, ?_⟩
  · have hlow : ((-32768 : ℤ) : ℚ) ≤ rnd (quotient + (-32768)) := by
      apply intCast_le_rnd (by norm_num)
      push_cast
      linarith
    exact neg_le_trunc (n := 32768) (by norm_num) (by push_cast at hlow ⊢; exact hlow)
  · have hhigh : rnd (quotient + (-32768)) ≤ ((65535 : ℤ) : ℚ) * 2 ^ (-1 : ℤ) := by
      apply rnd_le (by norm_num) (by norm_num)
      norm_num at hrounded ⊢
      linarith
    have : trunc (rnd (quotient + (-32768))) < 32768 := by
      apply trunc_lt (by norm_num)
      norm_num at hhigh ⊢
      linarith
    omega

theorem ledColor_bounds (ht : s.InTempRange s.temp.current) :
    ∃ color, s.ledColor = some color ∧ 0 ≤ color ∧ color ≤ 100 := by
  obtain ⟨hpos, hle⟩ := tempSpan_bounds hs
  obtain ⟨hnonneg, hin⟩ := sub_rangeMin_bounds ht
  have hspan : (0 : ℚ) < s.tempSpan := by exact_mod_cast hpos
  have hpart : rnd ((s.temp.current.toNat : ℤ) - s.temp.rangeMin.toNat : ℤ) =
      ((s.temp.current.toNat : ℤ) - s.temp.rangeMin.toNat : ℤ) :=
    rnd_intCast (by rw [abs_of_nonneg hnonneg]; omega)
  refine ⟨_, if_neg hpos.ne', ?_, ?_⟩
  · apply trunc_nonneg
    apply rnd_nonneg
    have : 0 ≤ rnd (rnd ((s.temp.current.toNat : ℤ) - s.temp.rangeMin.toNat : ℤ) /
        rnd s.tempSpan) := by
      apply rnd_nonneg
      rw [hpart, rnd_tempSpan hs]
      exact div_nonneg (by exact_mod_cast hnonneg) hspan.le
    linarith
  · have hratio : rnd (rnd ((s.temp.current.toNat : ℤ) - s.temp.rangeMin.toNat : ℤ) /
        rnd s.tempSpan) ≤ ((1 : ℤ) : ℚ) := by
      apply rnd_le_intCast (by norm_num)
      rw [hpart, rnd_tempSpan hs, div_le_iff₀ hspan]
      push_cast at hin ⊢
      rw [one_mul]
      exact_mod_cast hin
    have hcolor := rnd_le_intCast (q := 100 * rnd (rnd ((s.temp.current.toNat : ℤ) -
      s.temp.rangeMin.toNat : ℤ) / rnd s.tempSpan)) (n := 100) (by norm_num) (by
        push_cast at hratio ⊢
        linarith)
    have := trunc_lt (n := 101) (by norm_num) (lt_of_le_of_lt hcolor (by norm_num))
    omega

theorem trunc_level_bounds (level : Int16) :
    0 ≤ trunc (rnd (rnd (level.toInt + 32768 : ℤ) * rnd (rnd s.tempSpan / 65535))) ∧
      trunc (rnd (rnd (level.toInt + 32768 : ℤ) * rnd (rnd s.tempSpan / 65535))) <
        s.tempSpan + 1 := by
  obtain ⟨hpos, hle⟩ := tempSpan_bounds hs
  have hone : (1 : ℚ) ≤ s.tempSpan := by exact_mod_cast hpos
  have hle' : (s.tempSpan : ℚ) ≤ 19200 := by exact_mod_cast hle
  have hlevel₀ : 0 ≤ level.toInt + 32768 := by
    have := level.le_toInt
    omega
  have hlevel : level.toInt + 32768 ≤ 65535 := by
    have := level.toInt_lt
    omega
  have hdiff : rnd (rnd s.tempSpan / 65535) ≤ s.tempSpan / 65535 * (1 + 2 ^ (-24 : ℤ)) := by
    rw [rnd_tempSpan hs]
    apply rnd_le_of_normal
    rw [le_div_iff₀ (by norm_num)]
    refine le_trans ?_ hone
    norm_num
  have hdiff₀ : 0 ≤ rnd (rnd s.tempSpan / 65535) := by
    rw [rnd_tempSpan hs]
    exact rnd_nonneg (by positivity)
  have hstep : rnd (level.toInt + 32768 : ℤ) = (level.toInt + 32768 : ℤ) :=
    rnd_intCast (by rw [abs_of_nonneg hlevel₀]; omega)
  have hlevel₀' : (0 : ℚ) ≤ (level.toInt + 32768 : ℤ) := by exact_mod_cast hlevel₀
  have hlevel' : ((level.toInt + 32768 : ℤ) : ℚ) ≤ 65535 := by exact_mod_cast hlevel
  have hproduct : rnd (level.toInt + 32768 : ℤ) * rnd (rnd s.tempSpan / 65535) ≤
      ((2 * s.tempSpan + 1 : ℤ) : ℚ) * 2 ^ (-1 : ℤ) := by
    rw [hstep]
    calc ((level.toInt + 32768 : ℤ) : ℚ) * rnd (rnd s.tempSpan / 65535)
        ≤ 65535 * (s.tempSpan / 65535 * (1 + 2 ^ (-24 : ℤ))) :=
          mul_le_mul hlevel' hdiff hdiff₀ (by norm_num)
      _ ≤ ((2 * s.tempSpan + 1 : ℤ) : ℚ) * 2 ^ (-1 : ℤ) := by
          push_cast
          norm_num
          linarith
  have hrounded := rnd_le (by rw [abs_of_pos (by omega)]; omega) (by norm_num) hproduct
  have hrounded₀ : 0 ≤ rnd (rnd (level.toInt + 32768 : ℤ) * rnd (rnd s.tempSpan / 65535)) := by
    apply rnd_nonneg
    rw [hstep]
    exact mul_nonneg hlevel₀' hdiff₀
  have htmp : trunc (rnd (rnd (level.toInt + 32768 : ℤ) * rnd (rnd s.tempSpan / 65535))) <
      s.tempSpan + 1 := by
    apply trunc_lt (by omega)
    refine lt_of_le_of_lt hrounded ?_
    push_cast
    norm_num
    linarith
  exact ⟨trunc_nonneg hrounded₀, htmp⟩

theorem inTempRange_levelToLightCtlTemp (level : Int16) :
    s.InTempRange (s.levelToLightCtlTemp level) := by
  obtain ⟨hpos, hle⟩ := tempSpan_bounds hs
  obtain ⟨htmp₀, htmp⟩ := trunc_level_bounds hs level
  unfold levelToLightCtlTemp
  dsimp only
  generalize trunc (rnd (rnd (level.toInt + 32768 : ℤ) * rnd (rnd s.tempSpan / 65535))) = tmp at *
  have hword := toNat_ofInt_uint16 htmp₀ (by omega)
  have hlow : 800 ≤ s.temp.rangeMin.toNat := UInt16.le_iff_toNat_le.mp hs.low
  have hhigh : s.temp.rangeMax.toNat ≤ 20000 := UInt16.le_iff_toNat_le.mp hs.high
  have hsum : (s.temp.rangeMin + UInt16.ofInt tmp).toNat =
      s.temp.rangeMin.toNat + (UInt16.ofInt tmp).toNat := by
    rw [UInt16.toNat_add]
    apply Nat.mod_eq_of_lt
    unfold tempSpan at *
    omega
  constructor
  · rw [UInt16.le_iff_toNat_le, hsum]
    omega
  · rw [UInt16.le_iff_toNat_le, hsum]
    unfold tempSpan at *
    omega

end Bounds

end Server
end Lighting
end ZephyrSamples
