import Mathlib.Data.List.Basic

/-!
# Rearranging a segment of a vector

`Rearranges lo hi v w` says that `w` has the elements of `v`, those outside of the segment from `lo`
to `hi` where they were.  `Each p lo hi v` is a property of the elements of a segment, and
`SortedBy cmp lo hi v` that they ascend by a comparison function as `qsort` of the C library takes
it.  `vecswap` exchanges two blocks; applied to the ends of two adjacent segments it exchanges what
is known of them.
-/

namespace ZephyrSamples

variable {α : Type*} {len : Nat}

/-- A comparison function: a total preorder by the sign of the result. -/
structure IsComparator (cmp : α → α → Int) : Prop where
  lt_iff : ∀ x y, cmp x y < 0 ↔ 0 < cmp y x
  trans : ∀ x y z, cmp x y ≤ 0 → cmp y z ≤ 0 → cmp x z ≤ 0

namespace IsComparator

variable {cmp : α → α → Int} {x y z : α}

theorem self (h : IsComparator cmp) (x : α) : cmp x x = 0 := by
  have hx := h.lt_iff x x
  omega

theorem le_of_pos (h : IsComparator cmp) (hxy : 0 < cmp x y) : cmp y x ≤ 0 := by
  have hyx := (h.lt_iff y x).mpr hxy
  omega

theorem nonneg_iff (h : IsComparator cmp) : 0 ≤ cmp x y ↔ cmp y x ≤ 0 := by
  have hxy := h.lt_iff x y
  omega

end IsComparator

/-- The elements from `lo` to `hi` meet `p`. -/
def Each (p : α → Prop) (lo hi : Nat) (v : Vector α len) : Prop :=
  ∀ i (_ : i < len), lo ≤ i → i < hi → p v[i]

/-- The elements from `lo` to `hi` ascend. -/
def SortedBy (cmp : α → α → Int) (lo hi : Nat) (v : Vector α len) : Prop :=
  ∀ i j (_ : i < len) (_ : j < len), lo ≤ i → i < j → j < hi → cmp v[i] v[j] ≤ 0

/-- The elements from `lo` to `hi` are put into another order. -/
structure Rearranges (lo hi : Nat) (v w : Vector α len) : Prop where
  perm : w.Perm v
  outside : ∀ i (_ : i < len), i < lo ∨ hi ≤ i → w[i] = v[i]
  inside : ∀ i (_ : i < len), lo ≤ i → i < hi →
    ∃ j, ∃ _ : j < len, lo ≤ j ∧ j < hi ∧ w[i] = v[j]

variable {p q : α → Prop} {lo hi mid : Nat} {v w u : Vector α len}

namespace Each

theorem mono {lo' hi' : Nat} (h : Each p lo hi v) (hlo : lo ≤ lo') (hhi : hi' ≤ hi) :
    Each p lo' hi' v :=
  fun i hi h1 h2 => h i hi (by omega) (by omega)

theorem imp (h : Each p lo hi v) (hpq : ∀ x, p x → q x) : Each q lo hi v :=
  fun i hi h1 h2 => hpq _ (h i hi h1 h2)

theorem of_le (h : hi ≤ lo) : Each p lo hi v := fun _ _ h1 h2 => absurd h1 (by omega)

theorem append (hleft : Each p lo mid v) (hright : Each p mid hi v) : Each p lo hi v := by
  intro i hlen h1 h2
  rcases Nat.lt_or_ge i mid with hi' | hi'
  · exact hleft i hlen h1 hi'
  · exact hright i hlen hi' h2

theorem concat (h : Each p lo mid v) (hmid : ∀ h : mid < len, p v[mid]) :
    Each p lo (mid + 1) v := by
  intro i hlen h1 h2
  rcases Nat.eq_or_lt_of_le (Nat.le_of_lt_succ h2) with rfl | hi'
  · exact hmid hlen
  · exact h i hlen h1 hi'

theorem cons (h : Each p (mid + 1) hi v) (hmid : ∀ h : mid < len, p v[mid]) :
    Each p mid hi v := by
  intro i hlen h1 h2
  rcases Nat.eq_or_lt_of_le h1 with rfl | hi'
  · exact hmid hlen
  · exact h i hlen hi' h2

/-- What is needed of the elements before they are swapped. -/
theorem swap {i j : Nat} (hi' : i < len) (hj' : j < len)
    (hrest : ∀ k (_ : k < len), lo ≤ k → k < hi → k ≠ i → k ≠ j → p v[k])
    (hatI : lo ≤ i → i < hi → p v[j]) (hatJ : lo ≤ j → j < hi → p v[i]) :
    Each p lo hi (v.swap i j) := by
  intro k hk h1 h2
  rw [Vector.getElem_swap]
  split
  case isTrue hki => exact hatI (by omega) (by omega)
  case isFalse hki =>
    split
    case isTrue hkj => exact hatJ (by omega) (by omega)
    case isFalse hkj => exact hrest k hk h1 h2 hki hkj

/-- What holds throughout a segment still does when the segment is rearranged. -/
theorem rearranges (h : Each p lo hi v) (hw : Rearranges lo hi v w) : Each p lo hi w := by
  intro i hlen h1 h2
  obtain ⟨j, hj, hlo, hhi, heq⟩ := hw.inside i hlen h1 h2
  rw [heq]
  exact h j hj hlo hhi

/-- A rearrangement elsewhere leaves the segment as it is. -/
theorem elsewhere {lo' hi' : Nat} (h : Each p lo hi v) (hw : Rearranges lo' hi' v w)
    (hapart : hi ≤ lo' ∨ hi' ≤ lo) : Each p lo hi w := by
  intro i hlen h1 h2
  rw [hw.outside i hlen (by omega)]
  exact h i hlen h1 h2

end Each

namespace Rearranges

theorem refl (lo hi : Nat) (v : Vector α len) : Rearranges lo hi v v :=
  ⟨.rfl, fun _ _ _ => rfl, fun i h h1 h2 => ⟨i, h, h1, h2, rfl⟩⟩

theorem trans (hvw : Rearranges lo hi v w) (hwu : Rearranges lo hi w u) : Rearranges lo hi v u where
  perm := hwu.perm.trans hvw.perm
  outside i hlen hout := (hwu.outside i hlen hout).trans (hvw.outside i hlen hout)
  inside i hlen h1 h2 := by
    obtain ⟨j, hj, hlo, hhi, heq⟩ := hwu.inside i hlen h1 h2
    obtain ⟨k, hk, hlo', hhi', heq'⟩ := hvw.inside j hj hlo hhi
    exact ⟨k, hk, hlo', hhi', heq.trans heq'⟩

theorem mono {lo' hi' : Nat} (h : Rearranges lo hi v w) (hlo : lo' ≤ lo) (hhi : hi ≤ hi') :
    Rearranges lo' hi' v w where
  perm := h.perm
  outside i hlen hout := h.outside i hlen (by omega)
  inside i hlen h1 h2 := by
    by_cases hin : lo ≤ i ∧ i < hi
    · obtain ⟨j, hj, hlo', hhi', heq⟩ := h.inside i hlen hin.1 hin.2
      exact ⟨j, hj, by omega, by omega, heq⟩
    · exact ⟨i, hlen, h1, h2, h.outside i hlen (by omega)⟩

theorem swap {i j : Nat} (v : Vector α len) (hi' : i < len) (hj' : j < len) (hi1 : lo ≤ i)
    (hi2 : i < hi) (hj1 : lo ≤ j) (hj2 : j < hi) : Rearranges lo hi v (v.swap i j) where
  perm := Vector.swap_perm hi' hj'
  outside k hk hout := by
    rw [Vector.getElem_swap, if_neg (by omega), if_neg (by omega)]
  inside k hk h1 h2 := by
    rw [Vector.getElem_swap]
    split
    · exact ⟨j, hj', hj1, hj2, rfl⟩
    · split
      · exact ⟨i, hi', hi1, hi2, rfl⟩
      · exact ⟨k, hk, h1, h2, rfl⟩

end Rearranges

/-! ## Sorted segments -/

namespace SortedBy

variable {cmp : α → α → Int}

/-- A rearrangement elsewhere leaves the segment sorted. -/
theorem elsewhere {lo' hi' : Nat} (h : SortedBy cmp lo hi v) (hw : Rearranges lo' hi' v w)
    (hapart : hi ≤ lo' ∨ hi' ≤ lo) : SortedBy cmp lo hi w := by
  intro i j hi' hj' h1 h2 h3
  rw [hw.outside i hi' (by omega), hw.outside j hj' (by omega)]
  exact h i j hi' hj' h1 h2 h3

theorem of_le (h : hi ≤ lo + 1) : SortedBy cmp lo hi v :=
  fun _ _ _ _ h1 h2 h3 => absurd h3 (by omega)

/-- Two sorted segments with a bound between them make one. -/
theorem append (hcmp : IsComparator cmp) {pivot : α} (hleft : SortedBy cmp lo mid v)
    (hright : SortedBy cmp mid hi v) (hle : Each (fun x => cmp x pivot ≤ 0) lo mid v)
    (hge : Each (fun x => cmp pivot x ≤ 0) mid hi v) : SortedBy cmp lo hi v := by
  intro i j hi' hj' h1 h2 h3
  rcases Nat.lt_or_ge j mid with hj | hj
  · exact hleft i j hi' hj' h1 h2 hj
  · rcases Nat.lt_or_ge i mid with hi | hi
    · exact hcmp.trans _ _ _ (hle i hi' h1 hi) (hge j hj' hj h3)
    · exact hright i j hi' hj' hi h2 h3

/-- A segment of elements equal to the pivot is sorted. -/
theorem of_each (hcmp : IsComparator cmp) {pivot : α}
    (h : Each (fun x => cmp x pivot = 0) lo hi v) : SortedBy cmp lo hi v := by
  intro i j hi' hj' h1 h2 h3
  have hi := h i hi' h1 (by omega)
  have hj := h j hj' (by omega) h3
  exact hcmp.trans _ _ _ (Int.le_of_eq hi) (hcmp.nonneg_iff.mp (Int.le_of_eq hj.symm))

end SortedBy

/-! ## Exchanging blocks -/

/-- Exchange the `n` elements at `i` with those at `j`, from the first to the last. -/
def vecswap (v : Vector α len) (i j : Nat) : (n : Nat) → i + n ≤ len → j + n ≤ len → Vector α len
  | 0, _, _ => v
  | n + 1, hi, hj => vecswap (v.swap i j) (i + 1) (j + 1) n (by omega) (by omega)

theorem getElem_vecswap {i j n : Nat} (hi : i + n ≤ len) (hj : j + n ≤ len) (hij : i + n ≤ j)
    {k : Nat} (hk : k < len) : (vecswap v i j n hi hj)[k] =
      if h : i ≤ k ∧ k < i + n then v[j + (k - i)]
      else if h : j ≤ k ∧ k < j + n then v[i + (k - j)] else v[k] := by
  induction n generalizing v i j with
  | zero =>
    rw [dif_neg (by omega), dif_neg (by omega)]
    rfl
  | succ n ih =>
    rw [vecswap, ih (by omega) (by omega) (by omega)]
    simp only [Vector.getElem_swap]
    grind

theorem vecswap_perm {i j n : Nat} (hi : i + n ≤ len) (hj : j + n ≤ len) :
    (vecswap v i j n hi hj).Perm v := by
  induction n generalizing v i j with
  | zero => exact .rfl
  | succ n ih => exact (ih _ _).trans (Vector.swap_perm (by omega) (by omega))

theorem rearranges_vecswap {i j n : Nat} (hi : i + n ≤ len) (hj : j + n ≤ len) (hij : i + n ≤ j) :
    Rearranges i (j + n) v (vecswap v i j n hi hj) where
  perm := vecswap_perm hi hj
  outside k hk hout := by
    rw [getElem_vecswap hi hj hij hk, dif_neg (by omega), dif_neg (by omega)]
  inside k hk h1 h2 := by
    rw [getElem_vecswap hi hj hij hk]
    split
    · exact ⟨_, by omega, by omega, by omega, rfl⟩
    · split
      · exact ⟨_, by omega, by omega, by omega, rfl⟩
      · exact ⟨k, hk, h1, h2, rfl⟩

/-- The ends of two adjacent segments are exchanged, as much as fits: the second comes first. -/
theorem each_vecswap {n : Nat} (hlo : lo ≤ mid) (hhi : mid ≤ hi)
    (hn : n = min (mid - lo) (hi - mid)) (hp : Each p lo mid v) (hq : Each q mid hi v)
    (h1 : lo + n ≤ len) (h2 : hi - n + n ≤ len) :
    Each q lo (lo + (hi - mid)) (vecswap v lo (hi - n) n h1 h2) ∧
      Each p (lo + (hi - mid)) hi (vecswap v lo (hi - n) n h1 h2) := by
  constructor
  · intro k hk hk1 hk2
    rw [getElem_vecswap h1 h2 (by omega) hk]
    split
    · exact hq _ (by omega) (by omega) (by omega)
    · rw [dif_neg (by omega)]
      exact hq k hk (by omega) (by omega)
  · intro k hk hk1 hk2
    rw [getElem_vecswap h1 h2 (by omega) hk, dif_neg (by omega)]
    split
    · exact hp _ (by omega) (by omega) (by omega)
    · exact hp k hk (by omega) (by omega)

end ZephyrSamples
