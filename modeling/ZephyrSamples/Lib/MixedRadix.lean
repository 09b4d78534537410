import Mathlib.Algebra.BigOperators.Intervals
import Mathlib.Data.Int.Cast.Lemmas
import Mathlib.Order.Interval.Finset.Nat
import Mathlib.Tactic.Ring

/-!
# Multiplication of a numeral with a radix of its own at every place

The places of a numeral are numbered from 1, and a carry runs from the last of them to the first. At
a place `j` it counts `num j` times; what comes to `den j` there is carried on.  If the weights of
the places fit these radices, a pass over the numeral multiplies its value by `base`. -/

namespace ZephyrSamples
namespace MixedRadix

/-- The digits of a numeral and the carry that runs over them. -/
structure Numeral where
  digit : Nat → Int
  carry : Int

section

variable (base : Int) (num den : Nat → Int)

/-- What is divided at a place. -/
def dividend (j : Nat) (s : Numeral) : Int := s.carry * num j + base * s.digit j

def step (j : Nat) (s : Numeral) : Numeral where
  digit := Function.update s.digit j ((dividend base num j s).tmod (den j))
  carry := (dividend base num j s).tdiv (den j)

/-- The pass over the places from `i` down to 1. -/
def multiply : Nat → Numeral → Numeral
  | 0, s => s
  | j + 1, s => multiply j (step base num den (j + 1) s)

theorem multiply_digit_of_lt {i k : Nat} (h : i < k) (s : Numeral) :
    (multiply base num den i s).digit k = s.digit k := by
  induction i generalizing s with
  | zero => rfl
  | succ j ih =>
    have hne : k ≠ j + 1 := Nat.ne_of_gt h
    rw [multiply, ih (Nat.lt_of_succ_lt h), step]
    exact Function.update_of_ne hne _ _

end

variable {R : Type*} [CommRing R] (w : Nat → R)

/-- The value of the places up to `i`. -/
def value (digit : Nat → Int) (i : Nat) : R := ∑ j ∈ Finset.Icc 1 i, (digit j : R) * w j

theorem value_zero (digit : Nat → Int) : value w digit 0 = 0 := rfl

theorem value_succ (digit : Nat → Int) (i : Nat) :
    value w digit (i + 1) = value w digit i + (digit (i + 1) : R) * w (i + 1) :=
  Finset.sum_Icc_succ_top (Nat.le_add_left 1 i) _

theorem value_congr {digit digit' : Nat → Int} {i : Nat} (h : ∀ j ≤ i, digit j = digit' j) :
    value w digit i = value w digit' i := by
  refine Finset.sum_congr rfl fun j hj => ?_
  rw [h j (Finset.mem_Icc.mp hj).2]

/-- Weights `v` of a carry fit the weights `w` of the places: a carry into a place counts as its
radix says, and `den` of a place are one carry out of it. -/
structure Fits (num den : Nat → Int) (v : Nat → R) : Prop where
  into : ∀ j, v (j + 1) = num (j + 1) * w (j + 1)
  out : ∀ j, v j = den (j + 1) * w (j + 1)

theorem value_step (base : Int) {num den : Nat → Int} {v : Nat → R} (h : Fits w num den v) (j : Nat)
    (s : Numeral) :
    base * ((s.digit (j + 1) : R) * w (j + 1)) + s.carry * v (j + 1) =
      ((step base num den (j + 1) s).carry : R) * v j +
        ((step base num den (j + 1) s).digit (j + 1) : R) * w (j + 1) := by
  have hdivision := Int.mul_tdiv_add_tmod (dividend base num (j + 1) s) (den (j + 1))
  have hcast : ((s.carry * num (j + 1) + base * s.digit (j + 1) : Int) : R) =
      ((den (j + 1) * (step base num den (j + 1) s).carry +
        (step base num den (j + 1) s).digit (j + 1) : Int) : R) := by
    have hself : (step base num den (j + 1) s).digit (j + 1) =
        (dividend base num (j + 1) s).tmod (den (j + 1)) := Function.update_self _ _ _
    rw [hself]
    exact congrArg Int.cast hdivision.symm
  push_cast at hcast
  rw [h.into j, h.out j]
  calc (base : R) * (s.digit (j + 1) * w (j + 1)) + s.carry * (num (j + 1) * w (j + 1))
      = (s.carry * num (j + 1) + base * s.digit (j + 1)) * w (j + 1) := by ring
    _ = (den (j + 1) * (step base num den (j + 1) s).carry +
          (step base num den (j + 1) s).digit (j + 1)) * w (j + 1) := by rw [hcast]
    _ = _ := by ring

/-- A pass conserves the value: `base` times what the numeral was is what it is now, and the
carry out of it. -/
theorem value_multiply (base : Int) {num den : Nat → Int} {v : Nat → R} (h : Fits w num den v)
    (i : Nat) (s : Numeral) :
    base * value w s.digit i + s.carry * v i =
      ((multiply base num den i s).carry : R) * v 0 +
        value w (multiply base num den i s).digit i := by
  induction i generalizing s with
  | zero =>
    rw [value_zero, value_zero, mul_zero, zero_add, add_zero]
    rfl
  | succ j ih =>
    have hkept : ∀ k ≤ j, (step base num den (j + 1) s).digit k = s.digit k := fun k hk =>
      Function.update_of_ne (Nat.ne_of_lt (Nat.lt_succ_of_le hk)) _ _
    have hlast := multiply_digit_of_lt base num den (Nat.lt_succ_self j)
      (step base num den (j + 1) s)
    have hrest := ih (step base num den (j + 1) s)
    rw [value_congr w hkept] at hrest
    rw [value_succ, value_succ, multiply, hlast, ← add_assoc, ← hrest]
    have hplace := value_step w base h j s
    calc (base : R) * (value w s.digit j + s.digit (j + 1) * w (j + 1)) + s.carry * v (j + 1)
        = base * value w s.digit j +
            (base * (s.digit (j + 1) * w (j + 1)) + s.carry * v (j + 1)) := by ring
      _ = _ := by rw [hplace]; ring

end MixedRadix
end ZephyrSamples
