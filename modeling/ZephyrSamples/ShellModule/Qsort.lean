import ZephyrSamples.Lib.Rearrange
import Mathlib.Data.Nat.Log

/-!
# The `qsort` of `shell_module`

`qsort.c` is the routine of Bentley and McIlroy: the elements equal to the pivot gather at both ends
while the others are partitioned, and are swapped into the middle afterwards.  The array is a vector
of elements, an index stands for a pointer, and every access carries the proof that it is within the
array.  `CMP` is a function of two elements.
-/

namespace ZephyrSamples
namespace ShellModule

variable {α : Type*} {len : Nat} (cmp : α → α → Int)

/-! ## The routine -/

/-- The inner loop of the insertion sort, with `pl` the element that goes down to its place. -/
def sink (a : Nat) (v : Vector α len) : (pl : Nat) → pl < len → Vector α len
  | 0, _ => v
  | pl + 1, h =>
    if a < pl + 1 ∧ 0 < cmp v[pl] v[pl + 1] then
      sink a (v.swap (pl + 1) pl) pl (by omega)
    else v

/-- The outer loop, with `count` elements from `pm` on still to come. -/
def insertFrom (a : Nat) (v : Vector α len) (pm : Nat) : (count : Nat) → pm + count ≤ len →
    Vector α len
  | 0, _ => v
  | count + 1, h => insertFrom a (sink cmp a v pm (by omega)) (pm + 1) count (by omega)

/-- The insertion sort of the `n` elements from `a` on. -/
def insertionSort (v : Vector α len) (a n : Nat) (h : a + n ≤ len) : Vector α len :=
  if hn : n = 0 then v else insertFrom cmp a v (a + 1) (n - 1) (by omega)

/-- A pointer into the `n` elements from `a` on. -/
abbrev Pointer (a n : Nat) := { k : Nat // a ≤ k ∧ k < a + n }

def med3 {a n : Nat} (v : Vector α len) (h : a + n ≤ len) (x y z : Pointer a n) : Pointer a n :=
  have := x.2
  have := y.2
  have := z.2
  if cmp v[x.1] v[y.1] < 0 then
    if cmp v[y.1] v[z.1] < 0 then y else if cmp v[x.1] v[z.1] < 0 then z else x
  else if cmp v[y.1] v[z.1] > 0 then y else if cmp v[x.1] v[z.1] < 0 then x else z

/-- `pm`, the element that becomes the pivot: the middle one, or a median of three, each of which is
a median of three where there are more than 40 elements. -/
def pivot (v : Vector α len) (a n : Nat) (h : a + n ≤ len) (hn : 7 ≤ n) : Pointer a n :=
  let pm : Pointer a n := ⟨a + n / 2, by omega⟩
  if 7 < n then
    let pl : Pointer a n := ⟨a, by omega⟩
    let pn : Pointer a n := ⟨a + (n - 1), by omega⟩
    if 40 < n then
      let d := n / 8
      let pl := med3 cmp v h pl ⟨a + d, by omega⟩ ⟨a + 2 * d, by omega⟩
      let pm := med3 cmp v h ⟨a + n / 2 - d, by omega⟩ pm ⟨a + n / 2 + d, by omega⟩
      let pn := med3 cmp v h ⟨a + (n - 1) - 2 * d, by omega⟩ ⟨a + (n - 1) - d, by omega⟩ pn
      med3 cmp v h pl pm pn
    else med3 cmp v h pl pm pn
  else pm

/-- `swapfunc(a, pm, es)` -/
def pivotFirst (v : Vector α len) (a n : Nat) (h : a + n ≤ len) (hn : 7 ≤ n) : Vector α len :=
  have hpm := (pivot cmp v a n h hn).2
  v.swap a (pivot cmp v a n h hn).1

/-- The array while it is partitioned, the pivot at `a`, with the four pointers into it and
`swap_cnt`. -/
structure Scan (α : Type*) (len a n : Nat) where
  v : Vector α len
  pa : Nat
  pb : Nat
  pc : Nat
  pd : Nat
  swapCnt : Bool
  lt_pa : a < pa
  pa_le : pa ≤ pb
  pb_le : pb ≤ pc + 1
  pc_le : pc ≤ pd
  lt_end : pd < a + n
  within : a + n ≤ len

namespace Scan

variable {cmp} {a n : Nat}

variable (cmp) in
/-- The loop that moves `pb` up over the elements that are not above the pivot. -/
def up : Scan α len a n → Scan α len a n
  | ⟨v, pa, pb, pc, pd, swapCnt, lt_pa, pa_le, pb_le, pc_le, lt_end, within⟩ =>
    if h : pb ≤ pc then
      let cmpResult := cmp v[pb] v[a]
      if cmpResult ≤ 0 then
        if cmpResult = 0 then
          up ⟨v.swap pa pb, pa + 1, pb + 1, pc, pd, true,
            by omega, by omega, by omega, pc_le, lt_end, within⟩
        else
          up ⟨v, pa, pb + 1, pc, pd, swapCnt, lt_pa, by omega, by omega, pc_le, lt_end, within⟩
      else ⟨v, pa, pb, pc, pd, swapCnt, lt_pa, pa_le, pb_le, pc_le, lt_end, within⟩
    else ⟨v, pa, pb, pc, pd, swapCnt, lt_pa, pa_le, pb_le, pc_le, lt_end, within⟩
termination_by s => s.pc + 1 - s.pb

variable (cmp) in
/-- The loop that moves `pc` down over the elements that are not below the pivot. -/
def down : Scan α len a n → Scan α len a n
  | ⟨v, pa, pb, pc, pd, swapCnt, lt_pa, pa_le, pb_le, pc_le, lt_end, within⟩ =>
    if h : pb ≤ pc then
      let cmpResult := cmp v[pc] v[a]
      if cmpResult ≥ 0 then
        if cmpResult = 0 then
          down ⟨v.swap pc pd, pa, pb, pc - 1, pd - 1, true,
            lt_pa, pa_le, by omega, by omega, by omega, within⟩
        else
          down ⟨v, pa, pb, pc - 1, pd, swapCnt, lt_pa, pa_le, by omega, by omega, lt_end, within⟩
      else ⟨v, pa, pb, pc, pd, swapCnt, lt_pa, pa_le, pb_le, pc_le, lt_end, within⟩
    else ⟨v, pa, pb, pc, pd, swapCnt, lt_pa, pa_le, pb_le, pc_le, lt_end, within⟩
termination_by s => s.pc + 1 - s.pb

theorem up_pc (s : Scan α len a n) : (s.up cmp).pc = s.pc ∧ s.pb ≤ (s.up cmp).pb := by
  fun_induction up cmp s with
  | case1 v pa pb pc pd swapCnt _ _ _ _ _ _ _ _ _ _ ih => exact ⟨ih.1, Nat.le_of_succ_le ih.2⟩
  | case2 v pa pb pc pd swapCnt _ _ _ _ _ _ _ _ _ _ ih => exact ⟨ih.1, Nat.le_of_succ_le ih.2⟩
  | case3 => exact ⟨rfl, Nat.le_refl _⟩
  | case4 => exact ⟨rfl, Nat.le_refl _⟩

theorem down_pb (s : Scan α len a n) : (s.down cmp).pb = s.pb ∧ (s.down cmp).pc ≤ s.pc := by
  fun_induction down cmp s with
  | case1 v pa pb pc pd swapCnt _ _ _ _ _ _ _ _ _ _ ih =>
    exact ⟨ih.1, Nat.le_trans ih.2 (Nat.sub_le _ _)⟩
  | case2 v pa pb pc pd swapCnt _ _ _ _ _ _ _ _ _ _ ih =>
    exact ⟨ih.1, Nat.le_trans ih.2 (Nat.sub_le _ _)⟩
  | case3 => exact ⟨rfl, Nat.le_refl _⟩
  | case4 => exact ⟨rfl, Nat.le_refl _⟩

variable (cmp) in
/-- The two loops, one after the other. -/
def meet (s : Scan α len a n) : Scan α len a n := (s.up cmp).down cmp

variable (cmp) in
/-- The first loop has stopped at an element above the pivot. -/
def Above (s : Scan α len a n) : Prop :=
  ∀ (_ : s.pb < len) (_ : a < len), s.pb ≤ s.pc → 0 < cmp s.v[s.pb] s.v[a]

variable (cmp) in
/-- The second loop has stopped at an element below the pivot. -/
def Below (s : Scan α len a n) : Prop :=
  ∀ (_ : s.pc < len) (_ : a < len), s.pb ≤ s.pc → cmp s.v[s.pc] s.v[a] < 0

theorem up_above (s : Scan α len a n) : (s.up cmp).Above cmp := by
  fun_induction up cmp s with
  | case1 => assumption
  | case2 => assumption
  | case3 v pa pb pc pd swapCnt lt_pa pa_le pb_le pc_le lt_end within h r hgt =>
    exact fun _ _ _ => Int.not_le.mp hgt
  | case4 => exact fun _ _ h => absurd h (by assumption)

theorem down_stops (s : Scan α len a n) (hs : s.Above cmp) :
    (s.down cmp).Above cmp ∧ (s.down cmp).Below cmp := by
  fun_induction down cmp s with
  | case1 v pa pb pc pd swapCnt lt_pa pa_le pb_le pc_le lt_end within h r hge heq ih =>
    refine ih fun hpb ha hle => ?_
    have habove : 0 < cmp v[pb] v[a] := hs hpb ha h
    have hle : pb ≤ pc - 1 := hle
    have hne : pb ≠ pc := fun hpc => by
      subst hpc
      exact Int.ne_of_gt habove heq
    have hkeep : ∀ k (_ : k < len), k < pc → (v.swap pc pd)[k] = v[k] := fun k hk hlt => by
      rw [Vector.getElem_swap, if_neg (by omega), if_neg (by omega)]
    show 0 < cmp (v.swap pc pd)[pb] (v.swap pc pd)[a]
    rwa [hkeep pb _ (by omega), hkeep a _ (by omega)]
  | case2 v pa pb pc pd swapCnt lt_pa pa_le pb_le pc_le lt_end within h r hge hne ih =>
    exact ih fun hpb ha _ => hs hpb ha h
  | case3 v pa pb pc pd swapCnt lt_pa pa_le pb_le pc_le lt_end within h r hlt =>
    exact ⟨hs, fun _ _ _ => Int.not_le.mp hlt⟩
  | case4 v pa pb pc pd swapCnt lt_pa pa_le pb_le pc_le lt_end within h =>
    exact ⟨hs, fun _ _ hle => absurd hle h⟩

theorem meet_lt (s : Scan α len a n) (h : (s.meet cmp).pb ≤ (s.meet cmp).pc) :
    (s.meet cmp).pb < (s.meet cmp).pc := by
  obtain ⟨habove, hbelow⟩ : (s.meet cmp).Above cmp ∧ (s.meet cmp).Below cmp :=
    (s.up cmp).down_stops s.up_above
  have hpc := (s.meet cmp).pc_le
  have hpd := (s.meet cmp).lt_end
  have hwithin := (s.meet cmp).within
  have ha : a < len := by
    have hpa := (s.meet cmp).lt_pa
    have hpb := (s.meet cmp).pa_le
    omega
  refine Nat.lt_of_le_of_ne h fun heq => ?_
  have h1 : 0 < cmp (s.meet cmp).v[(s.meet cmp).pb] (s.meet cmp).v[a] :=
    habove (by omega) ha h
  have h2 : cmp (s.meet cmp).v[(s.meet cmp).pc] (s.meet cmp).v[a] < 0 :=
    hbelow (by omega) ha h
  simp only [heq] at h1
  omega

/-- `swapfunc(pb, pc, es)` of the partition, and the pointers after it. -/
def cross (s : Scan α len a n) (h : s.pb < s.pc) : Scan α len a n where
  v :=
    have hpc := s.pc_le
    have hend := s.lt_end
    have hwithin := s.within
    s.v.swap s.pb s.pc
  pa := s.pa
  pb := s.pb + 1
  pc := s.pc - 1
  pd := s.pd
  swapCnt := true
  lt_pa := s.lt_pa
  pa_le := Nat.le_succ_of_le s.pa_le
  pb_le := by omega
  pc_le := Nat.le_trans (Nat.sub_le _ _) s.pc_le
  lt_end := s.lt_end
  within := s.within

theorem meet_room (s : Scan α len a n) :
    (s.meet cmp).pc + 1 - (s.meet cmp).pb ≤ s.pc + 1 - s.pb := by
  have hup : (s.up cmp).pc = s.pc ∧ s.pb ≤ (s.up cmp).pb := s.up_pc
  have hdown : ((s.up cmp).down cmp).pb = (s.up cmp).pb ∧
      ((s.up cmp).down cmp).pc ≤ (s.up cmp).pc := (s.up cmp).down_pb
  rw [meet]
  omega

variable (cmp) in
/-- `for (;;)` -/
def partition (s : Scan α len a n) : Scan α len a n :=
  if h : (s.meet cmp).pb ≤ (s.meet cmp).pc then partition ((s.meet cmp).cross (s.meet_lt h))
  else s.meet cmp
termination_by s.pc + 1 - s.pb
decreasing_by
  have hmeet : (s.meet cmp).pc + 1 - (s.meet cmp).pb ≤ s.pc + 1 - s.pb := s.meet_room
  show (s.meet cmp).pc - 1 + 1 - ((s.meet cmp).pb + 1) < _
  omega

end Scan

/-- The array before the partition, the pivot already at `a`. -/
def Scan.start (v : Vector α len) (a n : Nat) (h : a + n ≤ len) (hn : 7 ≤ n) : Scan α len a n where
  v := v
  pa := a + 1
  pb := a + 1
  pc := a + (n - 1)
  pd := a + (n - 1)
  swapCnt := false
  lt_pa := Nat.lt_succ_self a
  pa_le := Nat.le_refl _
  pb_le := by omega
  pc_le := Nat.le_refl _
  lt_end := by omega
  within := h

/-- The two calls of `vecswap`, which bring the elements equal to the pivot into the middle. -/
def Scan.gather {a n : Nat} (s : Scan α len a n) : Vector α len :=
  have hpa := s.lt_pa
  have hpb := s.pa_le
  have hpc := s.pb_le
  have hpd := s.pc_le
  have hend := s.lt_end
  have hwithin := s.within
  let pn := a + n
  let d1 := min (s.pa - a) (s.pb - s.pa)
  let v := vecswap s.v a (s.pb - d1) d1 (by omega) (by omega)
  let d1 := min (s.pd - s.pc) (pn - s.pd - 1)
  vecswap v s.pb (pn - d1) d1 (by omega) (by omega)

/-- The array partitioned. -/
def partitioned (v : Vector α len) (a n : Nat) (h : a + n ≤ len) (hn : 7 ≤ n) : Scan α len a n :=
  (Scan.start (pivotFirst cmp v a n h hn) a n h hn).partition cmp

/-- What one pass of `loop:` leaves: a sorted segment, or parts of `d1` and `d2` elements at its
ends that are still to be sorted. -/
inductive Pass (α : Type*) (len n : Nat)
  | done (v : Vector α len)
  | split (v : Vector α len) (d1 d2 : Nat) (room : d1 + d2 < n)

def pass (v : Vector α len) (a n : Nat) (h : a + n ≤ len) : Pass α len n :=
  if hn : n < 7 then .done (insertionSort cmp v a n h)
  else
    let s := partitioned cmp v a n h (by omega)
    if s.swapCnt = false then .done (insertionSort cmp s.v a n h)
    else
      .split s.gather (s.pb - s.pa) (s.pd - s.pc) (by
        have := s.lt_pa
        have := s.pa_le
        have := s.pb_le
        have := s.pc_le
        have := s.lt_end
        omega)

/-- `qsort`: the smaller part is sorted by a call, the other by going back to `loop:`. -/
def qsort (v : Vector α len) (a n : Nat) (h : a + n ≤ len) : Vector α len :=
  match pass cmp v a n h with
  | .done v => v
  | .split v d1 d2 _ =>
    if d1 ≤ d2 then
      let v := if 1 < d1 then qsort v a d1 (by omega) else v
      if 1 < d2 then qsort v (a + n - d2) d2 (by omega) else v
    else
      let v := if 1 < d2 then qsort v (a + n - d2) d2 (by omega) else v
      if 1 < d1 then qsort v a d1 (by omega) else v
termination_by n

/-- How deep the calls of `qsort` are nested, those that `loop:` replaces not counted. -/
def depth (v : Vector α len) (a n : Nat) (h : a + n ≤ len) : Nat :=
  match pass cmp v a n h with
  | .done _ => 0
  | .split v d1 d2 _ =>
    if d1 ≤ d2 then
      max (if 1 < d1 then depth v a d1 (by omega) + 1 else 0)
        (if 1 < d2 then
          depth (if 1 < d1 then qsort cmp v a d1 (by omega) else v) (a + n - d2) d2 (by omega)
        else 0)
    else
      max (if 1 < d2 then depth v (a + n - d2) d2 (by omega) + 1 else 0)
        (if 1 < d1 then
          depth (if 1 < d2 then qsort cmp v (a + n - d2) d2 (by omega) else v) a d1 (by omega)
        else 0)
termination_by n

variable {cmp} {v : Vector α len} {a n : Nat}

/-! ## The insertion sort -/

theorem rearranges_sink {hi pl : Nat} (h : pl < len) (ha : a ≤ pl) (hpl : pl < hi) :
    Rearranges a hi v (sink cmp a v pl h) := by
  induction pl generalizing v with
  | zero => exact .refl a hi v
  | succ pl ih =>
    rw [sink]
    split
    case isTrue hsink =>
      exact (Rearranges.swap v _ _ ha hpl (by omega) (by omega)).trans
        (ih (by omega) (by omega) (by omega))
    case isFalse => exact .refl a hi v

/-- Sorted but for the element at `pl`, which is not above any behind it. -/
structure Sinking (cmp : α → α → Int) (a hi pl : Nat) (v : Vector α len) : Prop where
  sorted : ∀ i j (_ : i < len) (_ : j < len), a ≤ i → i < j → j < hi → i ≠ pl → j ≠ pl →
    cmp v[i] v[j] ≤ 0
  behind : ∀ j (_ : j < len) (_ : pl < len), pl < j → j < hi → cmp v[pl] v[j] ≤ 0

theorem Sinking.swap (hcmp : IsComparator cmp) {hi pl : Nat} (h : pl + 1 < len)
    (hs : Sinking cmp a hi (pl + 1) v) (ha : a ≤ pl)
    (hgt : 0 < cmp v[pl] v[pl + 1]) : Sinking cmp a hi pl (v.swap (pl + 1) pl) where
  sorted i j hi' hj' h1 h2 h3 hi hj := by
    rw [Vector.getElem_swap, Vector.getElem_swap, if_neg hi, if_neg hj]
    split
    case isTrue hi =>
      rw [if_neg (by omega)]
      exact hs.sorted pl j (by omega) hj' ha (by omega) h3 (by omega) (by omega)
    case isFalse hi =>
      split
      case isTrue hj => exact hs.sorted i pl hi' (by omega) h1 (by omega) (by omega) hi (by omega)
      case isFalse hj => exact hs.sorted i j hi' hj' h1 h2 h3 hi hj
  behind j hj' hpl' h1 h2 := by
    rw [Vector.getElem_swap, Vector.getElem_swap, if_neg (by omega), if_pos rfl,
      if_neg (show j ≠ pl by omega)]
    split
    · exact hcmp.le_of_pos hgt
    · exact hs.behind j hj' h (by omega) h2

theorem Sinking.sortedBy (hcmp : IsComparator cmp) {hi pl : Nat} (h : pl < len)
    (hs : Sinking cmp a hi pl v)
    (hstop : ∀ _ : pl - 1 < len, a < pl → cmp v[pl - 1] v[pl] ≤ 0) : SortedBy cmp a hi v := by
  intro i j hi' hj' h1 h2 h3
  rcases eq_or_ne i pl with rfl | hi
  · exact hs.behind j hj' h h2 h3
  · rcases eq_or_ne j pl with rfl | hj
    · have hlast := hstop (by omega) (by omega)
      rcases Nat.eq_or_lt_of_le (Nat.le_sub_one_of_lt h2) with rfl | hlt
      · exact hlast
      · exact hcmp.trans _ _ _
          (hs.sorted i (j - 1) hi' (by omega) h1 hlt (by omega) hi (by omega)) hlast
    · exact hs.sorted i j hi' hj' h1 h2 h3 hi hj

theorem sortedBy_sink (hcmp : IsComparator cmp) {hi pl : Nat} (h : pl < len)
    (hs : Sinking cmp a hi pl v) : SortedBy cmp a hi (sink cmp a v pl h) := by
  induction pl generalizing v with
  | zero => exact hs.sortedBy hcmp h fun _ h0 => absurd h0 (Nat.not_lt_zero a)
  | succ pl ih =>
    rw [sink]
    split
    case isTrue hsink =>
      exact ih (by omega) (hs.swap hcmp h (by omega) hsink.2)
    case isFalse hstop =>
      exact hs.sortedBy hcmp h fun _ ha => Int.not_lt.mp fun hgt => hstop ⟨ha, hgt⟩

theorem rearranges_insertFrom {hi pm count : Nat} (h : pm + count ≤ len) (ha : a ≤ pm)
    (hhi : pm + count ≤ hi) : Rearranges a hi v (insertFrom cmp a v pm count h) := by
  induction count generalizing v pm with
  | zero => exact .refl a hi v
  | succ count ih =>
    exact (rearranges_sink (by omega) ha (by omega)).trans (ih (by omega) (by omega) (by omega))

theorem sortedBy_insertFrom (hcmp : IsComparator cmp) {hi pm count : Nat}
    (h : pm + count ≤ len) (ha : a ≤ pm) (hhi : pm + count = hi) (hs : SortedBy cmp a pm v) :
    SortedBy cmp a hi (insertFrom cmp a v pm count h) := by
  induction count generalizing v pm with
  | zero =>
    obtain rfl : pm = hi := hhi
    exact hs
  | succ count ih =>
    have hnext : SortedBy cmp a (pm + 1) (sink cmp a v pm (by omega)) :=
      sortedBy_sink hcmp (by omega)
        ⟨fun i j hi' hj' h1 h2 h3 hi hj => hs i j hi' hj' h1 h2 (by omega),
          fun j _ _ h1 h2 => absurd h2 (by omega)⟩
    exact ih (by omega) (by omega) (by omega) hnext

theorem rearranges_insertionSort (h : a + n ≤ len) :
    Rearranges a (a + n) v (insertionSort cmp v a n h) := by
  rw [insertionSort]
  split
  · exact .refl a (a + n) v
  · exact rearranges_insertFrom (by omega) (by omega) (by omega)

theorem sortedBy_insertionSort (hcmp : IsComparator cmp) (h : a + n ≤ len) :
    SortedBy cmp a (a + n) (insertionSort cmp v a n h) := by
  rw [insertionSort]
  split
  case isTrue hn => exact .of_le (by omega)
  case isFalse hn =>
    exact sortedBy_insertFrom hcmp (by omega) (by omega) (by omega) (.of_le (by omega))

/-! ## The partition -/

namespace Scan

theorem rearranges_up (s : Scan α len a n) : Rearranges (a + 1) (a + n) s.v (s.up cmp).v := by
  fun_induction up cmp s with
  | case1 v pa pb pc pd swapCnt lt_pa pa_le pb_le pc_le lt_end within h r hle heq ih =>
    exact (Rearranges.swap v (by omega) (by omega) (by omega) (by omega) (by omega)
      (by omega)).trans ih
  | case2 v pa pb pc pd swapCnt lt_pa pa_le pb_le pc_le lt_end within h r hle hne ih => exact ih
  | case3 => exact .refl _ _ _
  | case4 => exact .refl _ _ _

theorem rearranges_down (s : Scan α len a n) : Rearranges (a + 1) (a + n) s.v (s.down cmp).v := by
  fun_induction down cmp s with
  | case1 v pa pb pc pd swapCnt lt_pa pa_le pb_le pc_le lt_end within h r hge heq ih =>
    exact (Rearranges.swap v (by omega) (by omega) (by omega) (by omega) (by omega)
      (by omega)).trans ih
  | case2 v pa pb pc pd swapCnt lt_pa pa_le pb_le pc_le lt_end within h r hge hne ih => exact ih
  | case3 => exact .refl _ _ _
  | case4 => exact .refl _ _ _

theorem rearranges_cross (s : Scan α len a n) (h : s.pb < s.pc) :
    Rearranges (a + 1) (a + n) s.v (s.cross h).v := by
  have hpa := s.lt_pa
  have hpb := s.pa_le
  have hpd := s.pc_le
  have hend := s.lt_end
  have hwithin := s.within
  exact .swap s.v (by omega) (by omega) (by omega) (by omega) (by omega) (by omega)

theorem rearranges_partition (s : Scan α len a n) :
    Rearranges (a + 1) (a + n) s.v (s.partition cmp).v := by
  fun_induction partition cmp s with
  | case1 s h ih =>
    exact ((s.rearranges_up.trans (s.up cmp).rearranges_down).trans
      ((s.meet cmp).rearranges_cross _)).trans ih
  | case2 s h => exact s.rearranges_up.trans (s.up cmp).rearranges_down

theorem partition_pb (s : Scan α len a n) : (s.partition cmp).pb = (s.partition cmp).pc + 1 := by
  fun_induction partition cmp s with
  | case1 s h ih => exact ih
  | case2 s h =>
    have hpb := (s.meet cmp).pb_le
    omega

end Scan

/-- What is known of the parts that the pointers make: equal to the pivot, below it, not yet looked
at, above it, and again equal. -/
structure Parted (cmp : α → α → Int) (p : α) (a pn : Nat) (v : Vector α len) (pa pb pc pd : Nat) :
    Prop where
  pivot : ∀ _ : a < len, v[a] = p
  front : Each (fun x => cmp x p = 0) a pa v
  below : Each (fun x => cmp x p < 0) pa pb v
  above : Each (fun x => 0 < cmp x p) (pc + 1) (pd + 1) v
  back : Each (fun x => cmp x p = 0) (pd + 1) pn v

namespace Parted

variable {p : α} {pn pa pb pc pd : Nat}

theorem equal_up (h : Parted cmp p a pn v pa pb pc pd) (hpb : pb < len) (ha : a < pa)
    (hle : pa ≤ pb) (hpc : pb ≤ pc) (hpd : pc ≤ pd) (hb : cmp v[pb] p = 0) :
    Parted cmp p a pn (v.swap pa pb) (pa + 1) (pb + 1) pc pd where
  pivot hlen := by
    rw [Vector.getElem_swap, if_neg (by omega), if_neg (by omega)]
    exact h.pivot hlen
  front := by
    refine .swap _ _ (fun k hk h1 h2 hka _ => h.front k hk h1 (by omega)) (fun _ _ => hb)
      fun h1 h2 => ?_
    obtain rfl : pb = pa := by omega
    exact hb
  below := .swap _ _ (fun k hk h1 h2 _ _ => h.below k hk (by omega) (by omega))
    (fun h1 _ => absurd h1 (by omega)) fun h1 _ => h.below pa (by omega) (Nat.le_refl _) (by omega)
  above := .swap _ _ (fun k hk h1 h2 _ _ => h.above k hk h1 h2) (fun h1 _ => absurd h1 (by omega))
    fun h1 _ => absurd h1 (by omega)
  back := .swap _ _ (fun k hk h1 h2 _ _ => h.back k hk h1 h2) (fun h1 _ => absurd h1 (by omega))
    fun h1 _ => absurd h1 (by omega)

theorem below_up (h : Parted cmp p a pn v pa pb pc pd) (hb : ∀ _ : pb < len, cmp v[pb] p < 0) :
    Parted cmp p a pn v pa (pb + 1) pc pd :=
  { h with below := h.below.concat hb }

theorem equal_down (h : Parted cmp p a pn v pa pb pc pd) (hpd : pd < len) (ha : a < pa)
    (hle : pa ≤ pb) (hpc : pb ≤ pc) (hcd : pc ≤ pd) (hc : cmp v[pc] p = 0) :
    Parted cmp p a pn (v.swap pc pd) pa pb (pc - 1) (pd - 1) where
  pivot hlen := by
    rw [Vector.getElem_swap, if_neg (by omega), if_neg (by omega)]
    exact h.pivot hlen
  front := .swap _ _ (fun k hk h1 h2 _ _ => h.front k hk h1 h2) (fun _ h2 => absurd h2 (by omega))
    fun _ h2 => absurd h2 (by omega)
  below := .swap _ _ (fun k hk h1 h2 _ _ => h.below k hk h1 h2) (fun _ h2 => absurd h2 (by omega))
    fun _ h2 => absurd h2 (by omega)
  above := .swap _ _ (fun k hk h1 h2 _ _ => h.above k hk (by omega) (by omega))
    (fun _ h2 => h.above pd hpd (by omega) (by omega)) fun _ h2 => absurd h2 (by omega)
  back := by
    refine .swap _ _ (fun k hk h1 h2 _ hkd => h.back k hk (by omega) h2) (fun h1 h2 => ?_)
      fun _ _ => hc
    obtain rfl : pc = pd := by omega
    exact hc

theorem above_down (h : Parted cmp p a pn v pa pb pc pd) (hpc : 0 < pc)
    (hc : ∀ _ : pc < len, 0 < cmp v[pc] p) : Parted cmp p a pn v pa pb (pc - 1) pd := by
  refine { h with above := ?_ }
  rw [Nat.sub_add_cancel hpc]
  exact h.above.cons hc

theorem cross (h : Parted cmp p a pn v pa pb pc pd) (hpc' : pc < len) (ha : a < pa)
    (hle : pa ≤ pb) (hpc : pb < pc) (hcd : pc ≤ pd) (hb : 0 < cmp v[pb] p)
    (hc : cmp v[pc] p < 0) : Parted cmp p a pn (v.swap pb pc) pa (pb + 1) (pc - 1) pd where
  pivot hlen := by
    rw [Vector.getElem_swap, if_neg (by omega), if_neg (by omega)]
    exact h.pivot hlen
  front := .swap _ _ (fun k hk h1 h2 _ _ => h.front k hk h1 h2) (fun _ h2 => absurd h2 (by omega))
    fun _ h2 => absurd h2 (by omega)
  below := .swap _ _ (fun k hk h1 h2 _ _ => h.below k hk h1 (by omega)) (fun _ _ => hc)
    fun _ h2 => absurd h2 (by omega)
  above := .swap _ _ (fun k hk h1 h2 _ _ => h.above k hk (by omega) h2)
    (fun h1 _ => absurd h1 (by omega)) fun _ _ => hb
  back := .swap _ _ (fun k hk h1 h2 _ _ => h.back k hk h1 h2) (fun h1 _ => absurd h1 (by omega))
    fun h1 _ => absurd h1 (by omega)

end Parted

namespace Scan

variable {p : α}

/-- The parts that the pointers of a scan make. -/
def PartedBy (cmp : α → α → Int) (p : α) (s : Scan α len a n) : Prop :=
  Parted cmp p a (a + n) s.v s.pa s.pb s.pc s.pd

theorem PartedBy.up {s : Scan α len a n} (hs : s.PartedBy cmp p) :
    (s.up cmp).PartedBy cmp p := by
  fun_induction Scan.up cmp s with
  | case1 v pa pb pc pd swapCnt lt_pa pa_le pb_le pc_le lt_end within h r hle heq ih =>
    refine ih (Parted.equal_up hs (show pb < len by omega) lt_pa pa_le h pc_le ?_)
    rw [← Parted.pivot hs (by omega)]
    exact heq
  | case2 v pa pb pc pd swapCnt lt_pa pa_le pb_le pc_le lt_end within h r hle hne ih =>
    refine ih (Parted.below_up hs fun hpb => ?_)
    rw [← Parted.pivot hs (by omega)]
    exact lt_of_le_of_ne hle hne
  | case3 => exact hs
  | case4 => exact hs

theorem PartedBy.down {s : Scan α len a n} (hs : s.PartedBy cmp p) :
    (s.down cmp).PartedBy cmp p := by
  fun_induction Scan.down cmp s with
  | case1 v pa pb pc pd swapCnt lt_pa pa_le pb_le pc_le lt_end within h r hge heq ih =>
    refine ih (Parted.equal_down hs (show pd < len by omega) lt_pa pa_le h pc_le ?_)
    rw [← Parted.pivot hs (by omega)]
    exact heq
  | case2 v pa pb pc pd swapCnt lt_pa pa_le pb_le pc_le lt_end within h r hge hne ih =>
    refine ih (Parted.above_down hs (by omega) fun hpc => ?_)
    rw [← Parted.pivot hs (by omega)]
    exact lt_of_le_of_ne hge (Ne.symm hne)
  | case3 => exact hs
  | case4 => exact hs

theorem PartedBy.partition {s : Scan α len a n} (hs : s.PartedBy cmp p) :
    (s.partition cmp).PartedBy cmp p := by
  fun_induction Scan.partition cmp s with
  | case1 s h ih =>
    have hmeet : (s.meet cmp).PartedBy cmp p := hs.up.down
    obtain ⟨habove, hbelow⟩ : (s.meet cmp).Above cmp ∧ (s.meet cmp).Below cmp :=
      (s.up cmp).down_stops s.up_above
    have hlt := s.meet_lt h
    have hpa := (s.meet cmp).lt_pa
    have hpb := (s.meet cmp).pa_le
    have hpd := (s.meet cmp).pc_le
    have hend := (s.meet cmp).lt_end
    have hwithin := (s.meet cmp).within
    have hpivot := Parted.pivot hmeet (by omega)
    refine ih (Parted.cross hmeet (by omega) hpa hpb hlt hpd ?_ ?_)
    · rw [← hpivot]
      exact habove (by omega) (by omega) h
    · rw [← hpivot]
      exact hbelow (by omega) (by omega) h
  | case2 s h => exact hs.up.down

theorem partedBy_start (hcmp : IsComparator cmp) (h : a + n ≤ len) (hn : 7 ≤ n) :
    (Scan.start v a n h hn).PartedBy cmp v[a] where
  pivot _ := rfl
  front k hk h1 h2 := by
    obtain rfl : k = a := by
      dsimp only [Scan.start] at h2
      omega
    exact hcmp.self _
  below := .of_le (Nat.le_refl _)
  above := .of_le (Nat.le_refl _)
  back := .of_le (by
    show a + n ≤ a + (n - 1) + 1
    omega)

theorem rearranges_gather (s : Scan α len a n) (hs : s.pb = s.pc + 1) :
    Rearranges a (a + n) s.v s.gather := by
  have hpa := s.lt_pa
  have hpb := s.pa_le
  have hpd := s.pc_le
  have hend := s.lt_end
  have hwithin := s.within
  refine Rearranges.trans (w := vecswap s.v a (s.pb - min (s.pa - a) (s.pb - s.pa))
    (min (s.pa - a) (s.pb - s.pa)) (by omega) (by omega)) ?_ ?_
  · exact (rearranges_vecswap (by omega) (by omega) (by omega)).mono (Nat.le_refl _) (by omega)
  · exact (rearranges_vecswap (by omega) (by omega) (by omega)).mono (by omega) (by omega)

end Scan

/-- The parts that are left for sorting, those below the pivot and those above it, with what is
equal to it between them. -/
structure Split (cmp : α → α → Int) (p : α) (a n : Nat) (v : Vector α len) (d1 d2 : Nat) :
    Prop where
  below : Each (fun x => cmp x p < 0) a (a + d1) v
  equal : Each (fun x => cmp x p = 0) (a + d1) (a + n - d2) v
  above : Each (fun x => 0 < cmp x p) (a + n - d2) (a + n) v

theorem Scan.split_gather {p : α} {s : Scan α len a n} (hpc : s.pb = s.pc + 1)
    (hs : s.PartedBy cmp p) : Split cmp p a n s.gather (s.pb - s.pa) (s.pd - s.pc) := by
  have hpa := s.lt_pa
  have hpb := s.pa_le
  have hpd := s.pc_le
  have hend := s.lt_end
  have hwithin := s.within
  -- the front of the elements equal to the pivot is exchanged with those below it
  obtain ⟨hbelow, hequal⟩ := each_vecswap (n := min (s.pa - a) (s.pb - s.pa)) (Nat.le_of_lt hpa)
    hpb (by omega) (Parted.front hs) (Parted.below hs) (by omega) (by omega)
  have hfirst : Rearranges a s.pb s.v (vecswap s.v a (s.pb - min (s.pa - a) (s.pb - s.pa))
      (min (s.pa - a) (s.pb - s.pa)) (by omega) (by omega)) :=
    (rearranges_vecswap (by omega) (by omega) (by omega)).mono (Nat.le_refl _) (by omega)
  -- and those above it with the back
  have habove := (Parted.above hs).elsewhere hfirst (Or.inr (by omega))
  have hback := (Parted.back hs).elsewhere hfirst (Or.inr (by omega))
  rw [← hpc] at habove
  obtain ⟨hequal', habove'⟩ := each_vecswap (n := min (s.pd - s.pc) (a + n - s.pd - 1)) (by omega)
    (by omega) (by omega) habove hback (by omega) (by omega)
  have hsecond := rearranges_vecswap (v := vecswap s.v a (s.pb - min (s.pa - a) (s.pb - s.pa))
      (min (s.pa - a) (s.pb - s.pa)) (by omega) (by omega)) (i := s.pb)
    (j := a + n - min (s.pd - s.pc) (a + n - s.pd - 1))
    (n := min (s.pd - s.pc) (a + n - s.pd - 1)) (by omega) (by omega) (by omega)
  refine ⟨hbelow.elsewhere hsecond (Or.inl (by omega)), ?_, ?_⟩
  · have hleft := hequal.elsewhere hsecond (Or.inl (by omega))
    exact (hleft.append hequal').mono (Nat.le_refl _) (by omega)
  · exact habove'.mono (by omega) (Nat.le_refl _)

namespace Split

variable {p : α} {d1 d2 : Nat} {w : Vector α len}

theorem sort_below (h : Split cmp p a n v d1 d2) (room : d1 + d2 < n)
    (hw : Rearranges a (a + d1) v w) : Split cmp p a n w d1 d2 where
  below := h.below.rearranges hw
  equal := h.equal.elsewhere hw (Or.inr (Nat.le_refl _))
  above := h.above.elsewhere hw (Or.inr (by omega))

theorem sort_above (h : Split cmp p a n v d1 d2) (room : d1 + d2 < n)
    (hw : Rearranges (a + n - d2) (a + n) v w) : Split cmp p a n w d1 d2 where
  below := h.below.elsewhere hw (Or.inl (by omega))
  equal := h.equal.elsewhere hw (Or.inl (Nat.le_refl _))
  above := h.above.rearranges hw

theorem sortedBy (hcmp : IsComparator cmp) (h : Split cmp p a n v d1 d2)
    (hbelow : SortedBy cmp a (a + d1) v) (habove : SortedBy cmp (a + n - d2) (a + n) v) :
    SortedBy cmp a (a + n) v := by
  have hequal : SortedBy cmp (a + d1) (a + n - d2) v := .of_each hcmp h.equal
  have hle : Each (fun x => cmp x p ≤ 0) a (a + d1) v := h.below.imp fun x hx => Int.le_of_lt hx
  have hmid : Each (fun x => cmp x p ≤ 0) (a + d1) (a + n - d2) v :=
    h.equal.imp fun x hx => Int.le_of_eq hx
  have hmid' : Each (fun x => cmp p x ≤ 0) (a + d1) (a + n - d2) v :=
    h.equal.imp fun x hx => hcmp.nonneg_iff.mp (Int.le_of_eq hx.symm)
  have hge : Each (fun x => cmp p x ≤ 0) (a + n - d2) (a + n) v :=
    h.above.imp fun x hx => hcmp.le_of_pos hx
  have hfront := hbelow.append hcmp hequal hle hmid'
  exact hfront.append hcmp habove (hle.append hmid) hge

end Split

/-! ## The sort -/

/-- What a pass is to leave of `v`. -/
def Pass.Good (cmp : α → α → Int) (v : Vector α len) (a : Nat) : Pass α len n → Prop
  | .done w => Rearranges a (a + n) v w ∧ (IsComparator cmp → SortedBy cmp a (a + n) w)
  | .split w d1 d2 _ =>
    Rearranges a (a + n) v w ∧ (IsComparator cmp → ∃ p, Split cmp p a n w d1 d2)

theorem rearranges_pivotFirst (cmp : α → α → Int) (v : Vector α len) (h : a + n ≤ len)
    (hn : 7 ≤ n) : Rearranges a (a + n) v (pivotFirst cmp v a n h hn) := by
  have hpm := (pivot cmp v a n h hn).2
  exact .swap v (by omega) (by omega) (Nat.le_refl _) (by omega) hpm.1 hpm.2

theorem rearranges_partitioned (cmp : α → α → Int) (v : Vector α len) (h : a + n ≤ len)
    (hn : 7 ≤ n) : Rearranges a (a + n) v (partitioned cmp v a n h hn).v := by
  have hpart : Rearranges (a + 1) (a + n) (pivotFirst cmp v a n h hn)
      (partitioned cmp v a n h hn).v :=
    (Scan.start (pivotFirst cmp v a n h hn) a n h hn).rearranges_partition
  exact (rearranges_pivotFirst cmp v h hn).trans (hpart.mono (Nat.le_succ a) (Nat.le_refl _))

theorem pass_good (cmp : α → α → Int) (v : Vector α len) (h : a + n ≤ len) :
    (pass cmp v a n h).Good cmp v a := by
  rw [pass]
  split
  case isTrue hn => exact ⟨rearranges_insertionSort h, fun hcmp => sortedBy_insertionSort hcmp h⟩
  case isFalse hn =>
    have hs := rearranges_partitioned cmp v h (by omega)
    dsimp only
    split
    · exact ⟨hs.trans (rearranges_insertionSort h), fun hcmp => sortedBy_insertionSort hcmp h⟩
    · have hpb : (partitioned cmp v a n h (by omega)).pb =
          (partitioned cmp v a n h (by omega)).pc + 1 := Scan.partition_pb _
      exact ⟨hs.trans (Scan.rearranges_gather _ hpb), fun hcmp =>
        ⟨_, Scan.split_gather hpb (Scan.partedBy_start hcmp h (by omega)).partition⟩⟩

/-- The segment is rearranged and nothing else, whatever the comparison function does. -/
theorem rearranges_qsort (cmp : α → α → Int) (v : Vector α len) (h : a + n ≤ len) :
    Rearranges a (a + n) v (qsort cmp v a n h) := by
  induction n using Nat.strong_induction_on generalizing v a with
  | _ n ih =>
    have hpart : ∀ (w : Vector α len) (b d : Nat) (hb : b + d ≤ len), d < n → a ≤ b →
        b + d ≤ a + n → Rearranges a (a + n) w (if 1 < d then qsort cmp w b d hb else w) := by
      intro w b d hb hd h1 h2
      split
      · exact (ih d hd w hb).mono h1 h2
      · exact .refl a (a + n) w
    have hgood := pass_good cmp v h
    rw [qsort]
    generalize pass cmp v a n h = r at hgood ⊢
    cases r with
    | done w => exact hgood.1
    | split w d1 d2 room =>
      refine hgood.1.trans ?_
      dsimp only
      split
      · exact (hpart w a d1 (by omega) (by omega) (by omega) (by omega)).trans
          (hpart _ (a + n - d2) d2 (by omega) (by omega) (by omega) (by omega))
      · exact (hpart w (a + n - d2) d2 (by omega) (by omega) (by omega) (by omega)).trans
          (hpart _ a d1 (by omega) (by omega) (by omega) (by omega))

theorem sortedBy_qsort (hcmp : IsComparator cmp) (v : Vector α len) (h : a + n ≤ len) :
    SortedBy cmp a (a + n) (qsort cmp v a n h) := by
  induction n using Nat.strong_induction_on generalizing v a with
  | _ n ih =>
    have hpart : ∀ (w : Vector α len) (b d e : Nat) (hb : b + d ≤ len), d < n → b + d = e →
        Rearranges b e w (if 1 < d then qsort cmp w b d hb else w) ∧
          SortedBy cmp b e (if 1 < d then qsort cmp w b d hb else w) := by
      rintro w b d e hb hd rfl
      split
      · exact ⟨rearranges_qsort cmp w hb, ih d hd w hb⟩
      · exact ⟨.refl _ _ w, .of_le (by omega)⟩
    have hgood := pass_good cmp v h
    rw [qsort]
    generalize pass cmp v a n h = r at hgood ⊢
    cases r with
    | done w => exact hgood.2 hcmp
    | split w d1 d2 room =>
      obtain ⟨p, hsplit⟩ := hgood.2 hcmp
      dsimp only
      split
      · obtain ⟨hbelow, hsorted⟩ := hpart w a d1 (a + d1) (by omega) (by omega) rfl
        obtain ⟨habove, hsorted'⟩ := hpart (if 1 < d1 then qsort cmp w a d1 (by omega) else w)
          (a + n - d2) d2 (a + n) (by omega) (by omega) (by omega)
        exact ((hsplit.sort_below room hbelow).sort_above room habove).sortedBy hcmp
          (hsorted.elsewhere habove (Or.inl (by omega))) hsorted'
      · obtain ⟨habove, hsorted⟩ := hpart w (a + n - d2) d2 (a + n) (by omega) (by omega) (by omega)
        obtain ⟨hbelow, hsorted'⟩ := hpart
          (if 1 < d2 then qsort cmp w (a + n - d2) d2 (by omega) else w) a d1 (a + d1) (by omega)
          (by omega) rfl
        exact ((hsplit.sort_above room habove).sort_below room hbelow).sortedBy hcmp hsorted'
          (hsorted.elsewhere hbelow (Or.inr (by omega)))

/-- The calls are nested no deeper than the logarithm of the number of elements, whatever the
comparison function does: a call gets the smaller part. -/
theorem depth_le_log (cmp : α → α → Int) (v : Vector α len) (h : a + n ≤ len) :
    depth cmp v a n h ≤ Nat.log 2 n := by
  induction n using Nat.strong_induction_on generalizing v a with
  | _ n ih =>
    have hcall : ∀ (w : Vector α len) (b d : Nat) (hb : b + d ≤ len), 2 * d < n →
        (if 1 < d then depth cmp w b d hb + 1 else 0) ≤ Nat.log 2 n := by
      intro w b d hb hd
      split
      · have hdepth := ih d (by omega) w hb
        have hlog : Nat.log 2 d + 1 ≤ Nat.log 2 n := by
          rw [← Nat.log_mul_base (by omega) (by omega)]
          exact Nat.log_mono_right (by omega)
        omega
      · exact Nat.zero_le _
    have hloop : ∀ (w : Vector α len) (b d : Nat) (hb : b + d ≤ len), d < n →
        (if 1 < d then depth cmp w b d hb else 0) ≤ Nat.log 2 n := by
      intro w b d hb hd
      split
      · exact (ih d hd w hb).trans (Nat.log_mono_right (Nat.le_of_lt hd))
      · exact Nat.zero_le _
    rw [depth]
    cases pass cmp v a n h with
    | done w => exact Nat.zero_le _
    | split w d1 d2 room =>
      dsimp only
      split
      · exact max_le (hcall w a d1 (by omega) (by omega)) (hloop _ _ d2 (by omega) (by omega))
      · exact max_le (hcall w _ d2 (by omega) (by omega)) (hloop _ a d1 (by omega) (by omega))

/-- By a comparison function that is one, the `n` elements from `a` on are put into ascending order,
and the others stay where they are. -/
theorem qsort_sorts (hcmp : IsComparator cmp) (v : Vector α len) (a n : Nat) (h : a + n ≤ len) :
    SortedBy cmp a (a + n) (qsort cmp v a n h) ∧ Rearranges a (a + n) v (qsort cmp v a n h) :=
  ⟨sortedBy_qsort hcmp v h, rearranges_qsort cmp v h⟩

theorem isComparator_sub : IsComparator fun x y : Int => x - y where
  lt_iff x y := by omega
  trans x y z hxy hyz := by omega

/-- Nine elements between two others: enough for the partition. -/
def nineInside : Vector Int 11 := #v[0, 9, 3, 7, 1, 8, 2, 6, 4, 5, 0]

theorem qsort_sorts_nine :
    SortedBy (fun x y : Int => x - y) 1 10 (qsort (fun x y => x - y) nineInside 1 9 (by decide)) ∧
      Rearranges 1 10 nineInside (qsort (fun x y => x - y) nineInside 1 9 (by decide)) :=
  qsort_sorts isComparator_sub nineInside 1 9 (by decide)

/-- Whatever the comparison function returns, `qsort` ends with the elements it was given, touches
no others, and takes no more stack than for a call to a depth of the logarithm of `n`. -/
theorem qsort_contained (cmp : α → α → Int) (v : Vector α len) (a n : Nat) (h : a + n ≤ len) :
    Rearranges a (a + n) v (qsort cmp v a n h) ∧ depth cmp v a n h ≤ Nat.log 2 n :=
  ⟨rearranges_qsort cmp v h, depth_le_log cmp v h⟩

theorem qsort_contained_nine :
    Rearranges 1 10 nineInside (qsort (fun _ _ => 1) nineInside 1 9 (by decide)) ∧
      depth (fun _ _ => 1) nineInside 1 9 (by decide) ≤ Nat.log 2 9 :=
  qsort_contained (fun _ _ => 1) nineInside 1 9 (by decide)

end ShellModule
end ZephyrSamples
