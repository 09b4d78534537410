import Mathlib.Algebra.Order.Field.Basic
import Mathlib.Order.Monotone.Basic
import Mathlib.Tactic.Linarith
import Mathlib.Tactic.Positivity
import Mathlib.Tactic.GCongr

/-!
# Polylines

The linear interpolation between knots that are listed from the right to the left.  Left of the last
knot and right of the first it stays at their values.
-/

namespace ZephyrSamples

structure Knot (K : Type*) where
  x : K
  y : K

namespace Polyline

variable {K : Type*} [Field K]

/-- The line through two knots. -/
def line (b a : Knot K) (t : K) : K := b.y + (a.y - b.y) * (t - b.x) / (a.x - b.x)

theorem line_left (b a : Knot K) : line b a b.x = b.y := by
  rw [line, sub_self, mul_zero, zero_div, add_zero]

variable [LinearOrder K]

/-- The polyline left of the knot `a`. -/
def below : Knot K → List (Knot K) → K → K
  | a, [], _ => a.y
  | a, b :: rest, t => if b.x ≤ t then line b a t else below b rest t

/-- The polyline through `a` and the knots left of it. -/
def polyline (a : Knot K) (rest : List (Knot K)) (t : K) : K :=
  if a.x ≤ t then a.y else below a rest t

/-- The second knot is left of and below the first. -/
def Falls (a b : Knot K) : Prop := b.x < a.x ∧ b.y < a.y

variable {a b : Knot K} {rest : List (Knot K)} {s t : K}

theorem line_right (h : b.x < a.x) : line b a a.x = a.y := by
  rw [line, mul_div_cancel_right₀ _ (sub_ne_zero.mpr h.ne')]
  exact add_sub_cancel b.y a.y

/-- Left of all knots the polyline is the last of them. -/
theorem below_eq_last (h : ∀ b ∈ rest, t < b.x) :
    below a rest t = ((a :: rest).getLast (List.cons_ne_nil a rest)).y := by
  induction rest generalizing a with
  | nil => rfl
  | cons b rest ih =>
    rw [below, if_neg (not_le.mpr (h b List.mem_cons_self)),
      ih fun c hc => h c (List.mem_cons_of_mem b hc), List.getLast_cons_cons]

/-- Between two knots that follow each other the polyline is the line through them. -/
theorem below_eq_line {left right : Knot K} {before after : List (Knot K)}
    (hsplit : a :: rest = before ++ right :: left :: after)
    (hfalls : (a :: rest).Pairwise Falls) (hleft : left.x ≤ t) (hright : t < right.x) :
    below a rest t = line left right t := by
  induction before generalizing a rest with
  | nil =>
    obtain ⟨rfl, rfl⟩ := List.cons.inj hsplit
    rw [below, if_pos hleft]
  | cons c before ih =>
    obtain ⟨rfl, rfl⟩ := List.cons.inj hsplit
    obtain ⟨_, hrest⟩ := List.pairwise_cons.mp hfalls
    cases before with
    | nil =>
      show below a (right :: left :: after) t = _
      rw [below, if_neg (not_le.mpr hright)]
      exact ih rfl hrest
    | cons d before =>
      have hd : right.x < d.x :=
        ((List.pairwise_cons.mp hrest).1 right (List.mem_append_right _ List.mem_cons_self)).1
      show below a (d :: (before ++ right :: left :: after)) t = _
      rw [below, if_neg (not_le.mpr (hright.trans hd))]
      exact ih rfl hrest

omit [Field K] in
theorem le_head {k : Knot K} (hfalls : (a :: rest).Pairwise Falls) (h : k ∈ a :: rest) :
    k.x ≤ a.x := by
  rcases List.mem_cons.mp h with rfl | h
  · exact le_refl k.x
  · exact ((List.pairwise_cons.mp hfalls).1 k h).1.le

theorem polyline_eq_line {left right : Knot K} {before after : List (Knot K)}
    (hsplit : a :: rest = before ++ right :: left :: after)
    (hfalls : (a :: rest).Pairwise Falls) (hleft : left.x ≤ t) (hright : t < right.x) :
    polyline a rest t = line left right t := by
  have hmem : right ∈ a :: rest := hsplit ▸ List.mem_append_right before List.mem_cons_self
  have ha : t < a.x := hright.trans_le (le_head hfalls hmem)
  rw [polyline, if_neg (not_le.mpr ha)]
  exact below_eq_line hsplit hfalls hleft hright

/-- The polyline goes through its knots. -/
theorem polyline_knot {k : Knot K} (hfalls : (a :: rest).Pairwise Falls) (h : k ∈ a :: rest) :
    polyline a rest k.x = k.y := by
  rcases List.mem_cons.mp h with rfl | h
  · exact if_pos (le_refl k.x)
  · obtain ⟨before, after, rfl⟩ := List.append_of_mem h
    rcases List.eq_nil_or_concat (a :: before) with hnil | ⟨before', right, hright⟩
    · exact absurd hnil (List.cons_ne_nil a before)
    · have hsplit : a :: (before ++ k :: after) = before' ++ right :: k :: after := by
        rw [← List.cons_append, hright, List.concat_eq_append, List.append_assoc]
        rfl
      have hfall : Falls right k := by
        rw [hsplit] at hfalls
        have hfalls' := (List.pairwise_append.mp hfalls).2.1
        exact (List.pairwise_cons.mp hfalls').1 k List.mem_cons_self
      rw [polyline_eq_line hsplit hfalls (le_refl k.x) hfall.1, line_left]

theorem polyline_eq_last (hfalls : (a :: rest).Pairwise Falls)
    (h : t < ((a :: rest).getLast (List.cons_ne_nil a rest)).x) :
    polyline a rest t = ((a :: rest).getLast (List.cons_ne_nil a rest)).y := by
  have hlow : ∀ k ∈ a :: rest, t < k.x := by
    intro k hk
    have hsplit := List.dropLast_append_getLast (List.cons_ne_nil a rest)
    rw [← hsplit] at hk hfalls
    rcases List.mem_append.mp hk with hk | hk
    · have hfall := (List.pairwise_append.mp hfalls).2.2 k hk _ (List.mem_singleton_self _)
      exact h.trans hfall.1
    · rw [List.mem_singleton.mp hk]
      exact h
  rw [polyline, if_neg (not_le.mpr (hlow a List.mem_cons_self))]
  exact below_eq_last fun b hb => hlow b (List.mem_cons_of_mem a hb)

variable [IsStrictOrderedRing K]

theorem line_mono (h : Falls a b) (hst : s ≤ t) : line b a s ≤ line b a t := by
  have hx : 0 < a.x - b.x := sub_pos.mpr h.1
  have hy : 0 ≤ a.y - b.y := sub_nonneg.mpr h.2.le
  unfold line
  gcongr

theorem line_mem (h : Falls a b) (hb : b.x ≤ t) (ha : t ≤ a.x) :
    b.y ≤ line b a t ∧ line b a t ≤ a.y :=
  ⟨(line_left b a).symm.le.trans (line_mono h hb), (line_mono h ha).trans (line_right h.1).le⟩

theorem below_le (hfalls : (a :: rest).Pairwise Falls) (h : t ≤ a.x) : below a rest t ≤ a.y := by
  induction rest generalizing a with
  | nil => exact le_refl a.y
  | cons b rest ih =>
    obtain ⟨hhead, hrest⟩ := List.pairwise_cons.mp hfalls
    have hab := hhead b List.mem_cons_self
    rw [below]
    split
    case isTrue hb => exact (line_mem hab hb h).2
    case isFalse hb => exact (ih hrest (not_le.mp hb).le).trans hab.2.le

theorem below_mono (hfalls : (a :: rest).Pairwise Falls) (h : t ≤ a.x) (hst : s ≤ t) :
    below a rest s ≤ below a rest t := by
  induction rest generalizing a with
  | nil => exact le_refl a.y
  | cons b rest ih =>
    obtain ⟨hhead, hrest⟩ := List.pairwise_cons.mp hfalls
    have hab := hhead b List.mem_cons_self
    rw [below, below]
    by_cases ht : b.x ≤ t
    · rw [if_pos ht]
      by_cases hs : b.x ≤ s
      · rw [if_pos hs]
        exact line_mono hab hst
      · rw [if_neg hs]
        exact (below_le hrest (not_le.mp hs).le).trans (line_mem hab ht h).1
    · rw [if_neg ht, if_neg fun hs => ht (hs.trans hst)]
      exact ih hrest (not_le.mp ht).le

theorem polyline_le (hfalls : (a :: rest).Pairwise Falls) (t : K) : polyline a rest t ≤ a.y := by
  unfold polyline
  split
  case isTrue => exact le_refl a.y
  case isFalse h => exact below_le hfalls (not_le.mp h).le

theorem polyline_mono (hfalls : (a :: rest).Pairwise Falls) : Monotone (polyline a rest) := by
  intro s t hst
  unfold polyline
  by_cases ht : a.x ≤ t
  · rw [if_pos ht]
    exact polyline_le hfalls s
  · rw [if_neg ht, if_neg fun hs => ht (hs.trans hst)]
    exact below_mono hfalls (not_le.mp ht).le hst

end Polyline
end ZephyrSamples
