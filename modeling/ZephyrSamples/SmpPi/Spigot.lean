import Mathlib.Data.Rat.Cast.Defs
import Mathlib.Tactic.FieldSimp
import Mathlib.Tactic.Linarith
import ZephyrSamples.Lib.MixedRadix

/-!
# The spigot of the pi sample

`test_thread` of `smp/pi`, with the indices it uses and the ints it comes to.  The first pass starts
from an array of equal values, and the later ones from what the passes before left.  Each multiplies
by 10000 a number that is written with another radix at every place. -/

namespace ZephyrSamples
namespace SmpPi

open MixedRadix

def newBase : Int := 10000

def arrayInit : Int := 2000

/-- `LENGTH` -/
def length (digitsNum : Nat) : Nat := digitsNum / 4 * 14

/-- The locals of the inner loop.  `sums` are the sums after each division, `indices` the indices
of `array` and `ints` the values of the expressions. -/
structure Inner where
  array : Nat → Int
  sum : Int
  sums : List Int
  indices : List Nat
  ints : List Int

def innerStep (j : Nat) (s : Inner) : Inner :=
  let product := s.sum * j
  let scaled := newBase * s.array j
  let sum := product + scaled
  let divisor : Int := j * 2 - 1
  { array := Function.update s.array j (sum.tmod divisor)
    sum := sum.tdiv divisor
    sums := s.sums ++ [sum.tdiv divisor]
    indices := s.indices ++ [j]
    ints := s.ints ++
      [product, scaled, sum, j * 2, divisor, sum.tmod divisor, sum.tdiv divisor] }

/-- `for (j = i; j > 0; --j)` -/
def innerLoop : Nat → Inner → Inner
  | 0, s => s
  | j + 1, s => innerLoop j (innerStep (j + 1) s)

/-- A pass with bound `i`: the array before and after it, what the inner loop did, and the value and
the carry it ends with. -/
structure Pass where
  i : Nat
  before : Nat → Int
  after : Nat → Int
  sum : Int
  sums : List Int
  indices : List Nat
  ints : List Int
  value : Int
  carry : Int

/-- The locals of `test_thread`, with the passes so far. -/
structure Thread where
  array : Nat → Int
  carry : Int
  indices : List Nat
  passes : List Pass

/-- What the inner loop starts with. -/
def Thread.inner (t : Thread) : Inner :=
  { array := t.array, sum := 0, sums := [], indices := [], ints := [] }

/-- The pass with bound `i`. -/
def pass (i : Nat) (t : Thread) : Pass :=
  let s := innerLoop i t.inner
  let value := t.carry + s.sum.tdiv newBase
  let carry := s.sum.tmod newBase
  { i := i
    before := t.array
    after := s.array
    sum := s.sum
    sums := s.sums
    indices := s.indices
    ints := s.ints ++ [s.sum.tdiv newBase, value, carry]
    value := value
    carry := carry }

def outerStep (i : Nat) (t : Thread) : Thread :=
  { t with array := (pass i t).after, carry := (pass i t).carry, passes := t.passes ++ [pass i t] }

/-- `for (i = LENGTH; i > 0; i -= 14)` -/
def outerLoop (i : Nat) (t : Thread) : Thread :=
  if 0 < i then outerLoop (i - 14) (outerStep i t) else t
termination_by i

/-- `for (i = 0; i < LENGTH; i++)` -/
def initArray (length : Nat) : Thread :=
  (List.range length).foldl
    (fun t i =>
      { t with array := Function.update t.array i arrayInit, indices := t.indices ++ [i] })
    { array := fun _ => 0, carry := 0, indices := [], passes := [] }

def testThread (digitsNum : Nat) : Thread :=
  outerLoop (length digitsNum) (initArray (length digitsNum))

@[simp] theorem outerStep_passes (i : Nat) (t : Thread) :
    (outerStep i t).passes = t.passes ++ [pass i t] := rfl

@[simp] theorem outerStep_indices (i : Nat) (t : Thread) :
    (outerStep i t).indices = t.indices := rfl

/-! ## What a pass keeps -/

/-- The values of an int that is not negative. -/
def InRange (n : Int) : Prop := 0 ≤ n ∧ n ≤ 2 ^ 31 - 1

/-- What the divisions leave at the places up to `i`. -/
def Digits (array : Nat → Int) (i : Nat) : Prop :=
  ∀ j : Nat, 1 ≤ j → j ≤ i → 0 ≤ array j ∧ array j ≤ 2 * j - 2

/-- The weights of the places. -/
def weight : Nat → ℚ
  | 0 => 1
  | 1 => 1
  | j + 2 => weight (j + 1) * (j + 1) / (2 * (j + 2) - 1)

structure Pass.Sound (length : Nat) (p : Pass) : Prop where
  indices : ∀ j ∈ p.indices, j ≤ length
  ints : ∀ n ∈ p.ints, InRange n
  digits : Digits p.after p.i
  carry : 0 ≤ p.carry ∧ p.carry ≤ 9999
  conserved : (newBase : ℚ) * MixedRadix.value weight p.before p.i =
    p.sum + MixedRadix.value weight p.after p.i

/-- What holds of the passes after the first. -/
structure Pass.Later (p : Pass) : Prop where
  sums : ∀ n ∈ p.sums, n < 20000
  value : 0 ≤ p.value ∧ p.value ≤ 10000

/-! ## A pass conserves the number -/

/-- The weight of the sum at a place. -/
def sumWeight : Nat → ℚ
  | 0 => 1
  | j + 1 => (j + 1) * weight (j + 1)

theorem fits_weight :
    Fits weight (fun j => (j : Int)) (fun j => (j : Int) * 2 - 1) sumWeight where
  into j := by
    push_cast
    rfl
  out j := by
    cases j with
    | zero => norm_num [sumWeight, weight]
    | succ j =>
      have hne : (2 * ((j : ℚ) + 2) - 1) ≠ 0 := by
        have hpos : (0 : ℚ) < 2 * ((j : ℚ) + 2) - 1 := by
          have hj : (0 : ℚ) ≤ j := Nat.cast_nonneg j
          linarith
        exact ne_of_gt hpos
      rw [sumWeight, weight]
      push_cast
      field_simp
      ring

/-- The array and the sum of the inner loop as a numeral and its carry. -/
def Inner.numeral (s : Inner) : Numeral := { digit := s.array, carry := s.sum }

theorem numeral_innerLoop (i : Nat) (s : Inner) :
    (innerLoop i s).numeral =
      multiply newBase (fun j => (j : Int)) (fun j => (j : Int) * 2 - 1) i s.numeral := by
  induction i generalizing s with
  | zero => rfl
  | succ j ih => exact ih (innerStep (j + 1) s)

theorem value_innerLoop (i : Nat) (s : Inner) (h : s.sum = 0) :
    (newBase : ℚ) * value weight s.array i =
      (innerLoop i s).sum + value weight (innerLoop i s).array i := by
  have hvalue := value_multiply weight newBase fits_weight i s.numeral
  rw [← numeral_innerLoop] at hvalue
  have hsum : ((s.numeral.carry : Int) : ℚ) = 0 := by
    show ((s.sum : Int) : ℚ) = 0
    rw [h, Int.cast_zero]
  rw [hsum, zero_mul, add_zero, sumWeight, mul_one] at hvalue
  exact hvalue

/-! ## The bounds of the inner loop -/

/-- What the expressions of a step come to, and that the sum it leaves meets the invariant of the
next one. -/
structure StepFits (I : Nat → Int → Prop) (j : Nat) (sum a : Int) : Prop where
  product : InRange (sum * (j + 1 : Nat))
  scaled : InRange (newBase * a)
  total : InRange (sum * (j + 1 : Nat) + newBase * a)
  next : I j ((sum * (j + 1 : Nat) + newBase * a).tdiv ((j + 1 : Nat) * 2 - 1))

section

variable {I A : Nat → Int → Prop} {length i : Nat}

/-- Before the step at `j`: the places from `j` down are as they were, and those above it are
done. -/
structure Running (I A : Nat → Int → Prop) (length i j : Nat) (s : Inner) : Prop where
  sum : I j s.sum
  todo : ∀ k : Nat, 1 ≤ k → k ≤ j → A k (s.array k)
  done : ∀ k : Nat, j < k → k ≤ i → 0 ≤ s.array k ∧ s.array k ≤ 2 * k - 2
  sums : ∀ n ∈ s.sums, ∃ j, I j n
  indices : ∀ k ∈ s.indices, k ≤ length
  ints : ∀ n ∈ s.ints, InRange n

theorem tdiv_inRange {n : Int} (h : InRange n) {d : Int} (hd : 1 ≤ d) : InRange (n.tdiv d) := by
  obtain ⟨hpos, hle⟩ := h
  rw [Int.tdiv_eq_ediv_of_nonneg hpos]
  exact ⟨Int.ediv_nonneg hpos (by omega), le_trans (Int.ediv_le_self d hpos) hle⟩

theorem tmod_bounds {n : Int} (h : 0 ≤ n) {d : Int} (hd : 1 ≤ d) :
    0 ≤ n.tmod d ∧ n.tmod d ≤ d - 1 := by
  rw [Int.tmod_eq_emod_of_nonneg h]
  have hlt := Int.emod_lt_of_pos n (show 0 < d by omega)
  exact ⟨Int.emod_nonneg n (by omega), by omega⟩

/-- What a step leaves at its place. -/
theorem StepFits.rest {j : Nat} {sum a : Int} (h : StepFits I j sum a) :
    0 ≤ (sum * (j + 1 : Nat) + newBase * a).tmod ((j + 1 : Nat) * 2 - 1) ∧
      (sum * (j + 1 : Nat) + newBase * a).tmod ((j + 1 : Nat) * 2 - 1) ≤
        (j + 1 : Nat) * 2 - 1 - 1 :=
  tmod_bounds h.total.1 (by omega)

/-- The numbers that a step computes, in the order of `innerStep`. -/
theorem StepFits.ints_inRange (hlength : length ≤ 50000) {j : Nat} (hj : j + 1 ≤ length)
    {sum a : Int} (h : StepFits I j sum a) :
    ∀ n ∈ [sum * (j + 1 : Nat), newBase * a, sum * (j + 1 : Nat) + newBase * a, (j + 1 : Nat) * 2,
      (j + 1 : Nat) * 2 - 1, (sum * (j + 1 : Nat) + newBase * a).tmod ((j + 1 : Nat) * 2 - 1),
      (sum * (j + 1 : Nat) + newBase * a).tdiv ((j + 1 : Nat) * 2 - 1)], InRange n := by
  have hrest := h.rest
  intro n hn
  simp only [List.mem_cons, List.not_mem_nil, or_false] at hn
  rcases hn with rfl | rfl | rfl | rfl | rfl | rfl | rfl
  · exact h.product
  · exact h.scaled
  · exact h.total
  · constructor
    · omega
    · omega
  · constructor
    · omega
    · omega
  · constructor
    · exact hrest.1
    · omega
  · exact tdiv_inRange h.total (by omega)

theorem running_innerStep (hlength : length ≤ 50000)
    (hfits : ∀ j sum a, j + 1 ≤ i → I (j + 1) sum → A (j + 1) a → StepFits I j sum a)
    (hi : i ≤ length) {j : Nat} (hj : j + 1 ≤ i) {s : Inner}
    (h : Running I A length i (j + 1) s) :
    Running I A length i j (innerStep (j + 1) s) := by
  have hstep :=
    hfits j s.sum (s.array (j + 1)) hj h.sum (h.todo (j + 1) (Nat.succ_pos j) (Nat.le_refl _))
  have hrest := hstep.rest
  refine ⟨hstep.next, fun k hk hkj => ?_, fun k hjk hki => ?_, ?_, ?_, ?_⟩
  · have hne : k ≠ j + 1 := by omega
    show A k (Function.update s.array (j + 1) _ k)
    rw [Function.update_of_ne hne]
    exact h.todo k hk (Nat.le_succ_of_le hkj)
  · show 0 ≤ Function.update s.array (j + 1) _ k ∧ Function.update s.array (j + 1) _ k ≤ _
    by_cases heq : k = j + 1
    · subst heq
      rw [Function.update_self]
      omega
    · rw [Function.update_of_ne heq]
      exact h.done k (by omega) hki
  · intro n hn
    rcases List.mem_append.mp hn with hn | hn
    · exact h.sums n hn
    · exact ⟨j, List.mem_singleton.mp hn ▸ hstep.next⟩
  · intro k hk
    rcases List.mem_append.mp hk with hk | hk
    · exact h.indices k hk
    · have heq := List.mem_singleton.mp hk
      omega
  · intro n hn
    rcases List.mem_append.mp hn with hn | hn
    · exact h.ints n hn
    · exact hstep.ints_inRange hlength (Nat.le_trans hj hi) n hn

theorem running_innerLoop (hlength : length ≤ 50000)
    (hfits : ∀ j sum a, j + 1 ≤ i → I (j + 1) sum → A (j + 1) a → StepFits I j sum a)
    (hi : i ≤ length) {j : Nat} (hj : j ≤ i) {s : Inner} (h : Running I A length i j s) :
    Running I A length i 0 (innerLoop j s) := by
  induction j generalizing s with
  | zero => exact h
  | succ j ih =>
    exact ih (Nat.le_of_succ_le hj) (running_innerStep hlength hfits hi hj h)

end

/-! ## The two invariants -/

/-- The sum in the first pass. -/
def FirstSum (j : Nat) (sum : Int) : Prop :=
  0 ≤ sum ∧ sum * j ≤ 20000000 ∧ sum ≤ 40000000

/-- An entry in the first pass. -/
def FirstEntry (_ : Nat) (a : Int) : Prop := 0 ≤ a ∧ a ≤ arrayInit

/-- The sum in a later pass. -/
def LaterSum (_ : Nat) (sum : Int) : Prop := 0 ≤ sum ∧ sum < 20000

/-- An entry in a later pass. -/
def LaterEntry (j : Nat) (a : Int) : Prop := 0 ≤ a ∧ a ≤ 2 * j - 2

theorem tdiv_mul_le {n d : Int} (hn : 0 ≤ n) (hd : 1 ≤ d) :
    0 ≤ n.tdiv d ∧ n.tdiv d ≤ n ∧ n.tdiv d * d ≤ n := by
  rw [Int.tdiv_eq_ediv_of_nonneg hn]
  exact ⟨Int.ediv_nonneg hn (by omega), Int.ediv_le_self d hn, Int.ediv_mul_le n (by omega)⟩

theorem fits_first {j : Nat} {sum a : Int} (hsum : FirstSum (j + 1) sum)
    (ha : FirstEntry (j + 1) a) : StepFits FirstSum j sum a := by
  obtain ⟨hpos, hprod, hle⟩ := hsum
  obtain ⟨hapos, hale⟩ := ha
  have hprodpos : 0 ≤ sum * (j + 1 : Nat) := Int.mul_nonneg hpos (Int.natCast_nonneg _)
  have hscaled : 0 ≤ newBase * a ∧ newBase * a ≤ 20000000 := by
    unfold arrayInit at hale
    unfold newBase
    omega
  generalize htotal : sum * (j + 1 : Nat) + newBase * a = total
  have htotalpos : 0 ≤ total := by omega
  have hd : (1 : Int) ≤ (j + 1 : Nat) * 2 - 1 := by omega
  obtain ⟨hqpos, hqle, hqmul⟩ := tdiv_mul_le htotalpos hd
  refine ⟨⟨hprodpos, by omega⟩, ⟨hscaled.1, by omega⟩, ⟨by omega, by omega⟩, ?_⟩
  rw [htotal]
  generalize total.tdiv ((j + 1 : Nat) * 2 - 1) = q at hqpos hqle hqmul
  -- Twice the next product is below what was divided.
  have hmul : q * ((j + 1 : Nat) * 2 - 1) = 2 * (q * j) + q := by
    push_cast
    ring
  refine ⟨hqpos, ?_, ?_⟩
  · omega
  · omega

theorem fits_later {j : Nat} {sum a : Int} (hj : j + 1 ≤ 50000) (hsum : LaterSum (j + 1) sum)
    (ha : LaterEntry (j + 1) a) : StepFits LaterSum j sum a := by
  obtain ⟨hpos, hlt⟩ := hsum
  obtain ⟨hapos, hale⟩ := ha
  have hprodpos : 0 ≤ sum * (j + 1 : Nat) := Int.mul_nonneg hpos (Int.natCast_nonneg _)
  have hprod : sum * (j + 1 : Nat) ≤ 19999 * (j + 1 : Nat) :=
    Int.mul_le_mul_of_nonneg_right (by omega) (Int.natCast_nonneg _)
  have hscaled : 0 ≤ newBase * a ∧ newBase * a ≤ 20000 * j := by
    unfold newBase
    omega
  generalize htotal : sum * (j + 1 : Nat) + newBase * a = total
  have htotalpos : 0 ≤ total := by omega
  have hd : (0 : Int) < (j + 1 : Nat) * 2 - 1 := by omega
  refine ⟨⟨hprodpos, by omega⟩, ⟨hscaled.1, by omega⟩, ⟨by omega, by omega⟩, ?_⟩
  rw [htotal, LaterSum, Int.tdiv_eq_ediv_of_nonneg htotalpos]
  exact ⟨Int.ediv_nonneg htotalpos (by omega), Int.ediv_lt_of_lt_mul hd (by omega)⟩

/-! ## The passes -/

section

variable {I A : Nat → Int → Prop} {length i : Nat} {t : Thread}

theorem running_pass (hlength : length ≤ 50000) (hi : i ≤ length) (hstart : I i 0)
    (hfits : ∀ j sum a, j + 1 ≤ i → I (j + 1) sum → A (j + 1) a → StepFits I j sum a)
    (harray : ∀ k : Nat, 1 ≤ k → k ≤ i → A k (t.array k)) :
    Running I A length i 0 (innerLoop i t.inner) :=
  running_innerLoop hlength hfits hi (Nat.le_refl i)
    { sum := hstart
      todo := harray
      done := fun _ hik hki => absurd hki (Nat.not_le.mpr hik)
      sums := fun _ h => nomatch h
      indices := fun _ h => nomatch h
      ints := fun _ h => nomatch h }

theorem pass_sound (hlength : length ≤ 50000) (hi : i ≤ length) (hstart : I i 0)
    (hfits : ∀ j sum a, j + 1 ≤ i → I (j + 1) sum → A (j + 1) a → StepFits I j sum a)
    (hfinal : ∀ n, I 0 n → 0 ≤ n ∧ n ≤ 40000000)
    (harray : ∀ k : Nat, 1 ≤ k → k ≤ i → A k (t.array k))
    (hcarry : 0 ≤ t.carry ∧ t.carry ≤ 9999) : (pass i t).Sound length := by
  have hrun := running_pass hlength hi hstart hfits harray
  have hsum := hfinal _ hrun.sum
  have hbase : (1 : Int) ≤ newBase := by decide
  have hquotient : 0 ≤ (pass i t).sum.tdiv newBase ∧ (pass i t).sum.tdiv newBase ≤ 40000000 := by
    obtain ⟨hpos, hle, -⟩ := tdiv_mul_le hsum.1 hbase
    exact ⟨hpos, le_trans hle hsum.2⟩
  have hrest := tmod_bounds hsum.1 hbase
  refine ⟨hrun.indices, fun n hn => ?_, fun k hk hki => hrun.done k hk hki, hrest, ?_⟩
  · rcases List.mem_append.mp hn with hn | hn
    · exact hrun.ints n hn
    · simp only [List.mem_cons, List.not_mem_nil, or_false] at hn
      rcases hn with rfl | rfl | rfl
      · exact ⟨hquotient.1, le_trans hquotient.2 (by decide)⟩
      · constructor
        · exact Int.add_nonneg hcarry.1 hquotient.1
        · exact le_trans (Int.add_le_add hcarry.2 hquotient.2) (by decide)
      · exact ⟨hrest.1, le_trans hrest.2 (by decide)⟩
  · exact value_innerLoop i t.inner rfl

/-- A pass leaves the places above its bound as they were. -/
theorem pass_after_of_lt {k : Nat} (h : i < k) : (pass i t).after k = t.array k := by
  have hnumeral := congrArg Numeral.digit (numeral_innerLoop i t.inner)
  exact (congrFun hnumeral k).trans (multiply_digit_of_lt _ _ _ h _)

/-- What the passes find of the array and the carry once the first one is over. -/
structure Ready (length : Nat) (t : Thread) : Prop where
  array : Digits t.array length
  carry : 0 ≤ t.carry ∧ t.carry ≤ 9999

theorem ready_outerStep (harray : ∀ k : Nat, i < k → k ≤ length →
      0 ≤ t.array k ∧ t.array k ≤ 2 * k - 2) (hpass : (pass i t).Sound length) :
    Ready length (outerStep i t) := by
  refine ⟨fun k hk hkl => ?_, hpass.carry⟩
  by_cases hki : k ≤ i
  · exact hpass.digits k hk hki
  · have hik := Nat.not_le.mp hki
    show 0 ≤ (pass i t).after k ∧ (pass i t).after k ≤ _
    rw [pass_after_of_lt hik]
    exact harray k hik hkl

theorem pass_later (hlength : length ≤ 50000) (hi : i ≤ length) (h : Ready length t) :
    (pass i t).Sound length ∧ (pass i t).Later := by
  have hstart : LaterSum i 0 := ⟨Int.le_refl 0, by decide⟩
  have hfits : ∀ j sum a, j + 1 ≤ i → LaterSum (j + 1) sum → LaterEntry (j + 1) a →
      StepFits LaterSum j sum a := fun j sum a hj => fits_later (by omega)
  have harray : ∀ k : Nat, 1 ≤ k → k ≤ i → LaterEntry k (t.array k) := fun k hk hki =>
    h.array k hk (Nat.le_trans hki hi)
  have hrun := running_pass hlength hi hstart hfits harray
  have hsum : LaterSum 0 (pass i t).sum := hrun.sum
  have hfinal : ∀ n, LaterSum 0 n → 0 ≤ n ∧ n ≤ 40000000 := fun n hn => ⟨hn.1, by
    have hlt := hn.2
    omega⟩
  refine ⟨pass_sound hlength hi hstart hfits hfinal harray h.carry, fun n hn => ?_, ?_⟩
  · obtain ⟨j, hj⟩ := hrun.sums n hn
    exact hj.2
  · obtain ⟨hpos, hlt⟩ := hsum
    have hcarry := h.carry
    show 0 ≤ t.carry + (pass i t).sum.tdiv newBase ∧ t.carry + (pass i t).sum.tdiv newBase ≤ 10000
    rw [Int.tdiv_eq_ediv_of_nonneg hpos]
    unfold newBase
    omega

theorem outerLoop_pos (h : 0 < i) (t : Thread) :
    outerLoop i t = outerLoop (i - 14) (outerStep i t) := by
  rw [outerLoop, if_pos h]

theorem outerLoop_zero (t : Thread) : outerLoop 0 t = t := by
  rw [outerLoop, if_neg (Nat.lt_irrefl 0)]

/-- The passes that come after the first one. -/
theorem outerLoop_later (hlength : length ≤ 50000) (hi : i ≤ length) (h : Ready length t) :
    (outerLoop i t).indices = t.indices ∧ ∃ later, (outerLoop i t).passes = t.passes ++ later ∧
      ∀ p ∈ later, p.Sound length ∧ p.Later := by
  induction i using Nat.strongRecOn generalizing t with
  | ind i ih =>
    rcases Nat.eq_zero_or_pos i with rfl | hpos
    · rw [outerLoop_zero]
      exact ⟨rfl, [], (List.append_nil _).symm, fun _ hp => nomatch hp⟩
    · obtain ⟨hsound, hlater⟩ := pass_later hlength hi h
      have hnext := ready_outerStep (fun k _ hkl => h.array k (by omega) hkl) hsound
      obtain ⟨hindices, later, hpasses, hall⟩ :=
        ih (i - 14) (by omega) (by omega) hnext
      rw [outerLoop_pos hpos]
      refine ⟨hindices, pass i t :: later, ?_, fun p hp => ?_⟩
      · rw [hpasses]
        exact List.append_assoc _ _ _
      · rcases List.mem_cons.mp hp with rfl | hp
        · exact ⟨hsound, hlater⟩
        · exact hall p hp

end

/-! ## The whole thread -/

theorem initArray_eq (length : Nat) :
    (∀ k, (initArray length).array k = if k < length then arrayInit else 0) ∧
      (initArray length).carry = 0 ∧ (initArray length).passes = [] ∧
        (initArray length).indices = List.range length := by
  unfold initArray
  induction length with
  | zero => exact ⟨fun k => rfl, rfl, rfl, rfl⟩
  | succ n ih =>
    obtain ⟨harray, hcarry, hpasses, hindices⟩ := ih
    rw [List.range_succ, List.foldl_append]
    refine ⟨fun k => ?_, hcarry, hpasses, congrArg (· ++ [n]) hindices⟩
    show Function.update (β := fun _ => Int) _ n arrayInit k = _
    by_cases hk : k = n
    · rw [hk, Function.update_self, if_pos (Nat.lt_succ_self n)]
    · rw [Function.update_of_ne hk, harray]
      have hiff : k < n ↔ k < n + 1 := by omega
      simp only [hiff]

theorem pass_first {length : Nat} (hlength : length ≤ 50000) :
    (pass length (initArray length)).Sound length := by
  obtain ⟨harray, hcarry, -, -⟩ := initArray_eq length
  have hstart : FirstSum length 0 := ⟨Int.le_refl 0, by omega, by decide⟩
  refine pass_sound (I := FirstSum) (A := FirstEntry) hlength (Nat.le_refl _) hstart
    (fun j sum a _ => fits_first) (fun n hn => ⟨hn.1, hn.2.2⟩) (fun k _ _ => ?_) ?_
  · rw [FirstEntry, harray]
    split
    · decide
    · decide
  · rw [hcarry]
    decide

/-- The indices of `test_thread` lie in the array, its ints do not overflow, and every pass leaves
digits, a value and a carry in their bounds and conserves the number. -/
theorem testThread_sound (digitsNum : Nat) (hpos : 0 < digitsNum) (hfour : 4 ∣ digitsNum)
    (hlength : length digitsNum ≤ 50000) :
    (∀ j ∈ (testThread digitsNum).indices, j ≤ length digitsNum) ∧
      (∀ p ∈ (testThread digitsNum).passes, p.Sound (length digitsNum)) ∧
        ∀ p ∈ (testThread digitsNum).passes.tail, p.Later := by
  obtain ⟨-, -, hnone, hindices⟩ := initArray_eq (length digitsNum)
  have hfirst := pass_first hlength
  have hready : Ready (length digitsNum)
      (outerStep (length digitsNum) (initArray (length digitsNum))) :=
    ready_outerStep (fun k hk hkl => absurd hkl (Nat.not_le.mpr hk)) hfirst
  obtain ⟨hlog, later, hpasses, hall⟩ := outerLoop_later (i := length digitsNum - 14) hlength
    (Nat.sub_le _ _) hready
  have hlengthpos : 0 < length digitsNum := by
    unfold length
    omega
  rw [testThread, outerLoop_pos hlengthpos, hpasses, hlog, outerStep_indices, outerStep_passes,
    hnone, hindices]
  refine ⟨fun j hj => Nat.le_of_lt (List.mem_range.mp hj), fun p hp => ?_,
    fun p hp => (hall p hp).2⟩
  rcases List.mem_cons.mp hp with rfl | hp
  · exact hfirst
  · exact (hall p hp).1

theorem testThread_sound_240 :
    0 < 240 ∧ 4 ∣ 240 ∧ length 240 ≤ 50000 ∧
      (∀ j ∈ (testThread 240).indices, j ≤ length 240) ∧
        (∀ p ∈ (testThread 240).passes, p.Sound (length 240)) ∧
          ∀ p ∈ (testThread 240).passes.tail, p.Later :=
  ⟨by decide, by decide, by decide, testThread_sound 240 (by decide) (by decide) (by decide)⟩

end SmpPi
end ZephyrSamples
