import Mathlib.Data.List.Sort
import Mathlib.Order.Basic

/-!
# Lists of the largest

The elements of a list in the order of a measure, the largest first and equal ones in the order of
the list.  Whoever wants the first `k` need not keep more than `k` while it goes through the list.
-/

namespace ZephyrSamples
namespace TopList

variable {α β : Type*} [LinearOrder β] (f : α → β)

/-- Puts `x` in front of the first element that has less. -/
def place (x : α) (l : List α) : List α := l.orderedInsert (fun x y => f y < f x) x

/-- Places `x` and keeps the first `k`. -/
def push (k : Nat) (top : List α) (x : α) : List α := (place f x top).take k

def ranked (l : List α) : List α := l.foldl (fun acc x => place f x acc) []

/-- `x` is in front of `y`: it has more, or as much and precedes it. -/
def Ranks (p : α → α → Prop) (x y : α) : Prop := f y < f x ∨ f y = f x ∧ p x y

variable {f} {p : α → α → Prop} {x y : α} {l acc : List α} {k : Nat}

@[simp] theorem place_nil : place f x [] = [x] := rfl

theorem place_cons_of_lt (h : f y < f x) : place f x (y :: l) = x :: y :: l :=
  List.orderedInsert_cons_of_le _ l h

theorem place_cons_of_le (h : f x ≤ f y) : place f x (y :: l) = y :: place f x l :=
  List.orderedInsert_of_not_le _ l (not_lt.mpr h)

theorem mem_place : y ∈ place f x l ↔ y = x ∨ y ∈ l := List.mem_orderedInsert _

/-- What lies behind the first `k` does not come back. -/
theorem take_place : (place f x (l.take k)).take k = (place f x l).take k := by
  induction l generalizing k with
  | nil => rw [List.take_nil]
  | cons y l ih =>
    cases k with
    | zero => rw [List.take_zero, List.take_zero]
    | succ k =>
      rw [List.take_succ_cons]
      rcases lt_or_ge (f y) (f x) with hlt | hle
      · rw [place_cons_of_lt hlt, place_cons_of_lt hlt, List.take_succ_cons, List.take_succ_cons]
        cases k with
        | zero => rfl
        | succ k =>
          rw [List.take_succ_cons, List.take_succ_cons, List.take_take, Nat.min_eq_left (by omega)]
      · rw [place_cons_of_le hle, place_cons_of_le hle, List.take_succ_cons,
          List.take_succ_cons, ih]

theorem foldl_push : l.foldl (push f k) (acc.take k) =
    (l.foldl (fun acc x => place f x acc) acc).take k := by
  induction l generalizing acc with
  | nil => rfl
  | cons x l ih =>
    rw [List.foldl_cons, List.foldl_cons, push, take_place]
    exact ih

/-- The window of `k` ends with the first `k` of all. -/
theorem foldl_push_nil : l.foldl (push f k) [] = (ranked f l).take k := by
  rw [ranked, ← foldl_push, List.take_nil]

theorem perm_foldl_place : (l.foldl (fun acc x => place f x acc) acc).Perm (acc ++ l) := by
  induction l generalizing acc with
  | nil => rw [List.append_nil]; rfl
  | cons x l ih =>
    have hplace : (place f x acc ++ l).Perm (x :: acc ++ l) :=
      (List.perm_orderedInsert _ x acc).append_right l
    rw [List.foldl_cons]
    exact (ih.trans hplace).trans List.perm_middle.symm

theorem perm_ranked : (ranked f l).Perm l := perm_foldl_place

/-- An element that all others precede has its place behind those that have as much. -/
theorem place_pairwise (hacc : acc.Pairwise (Ranks f p)) (hx : ∀ a ∈ acc, p a x) :
    (place f x acc).Pairwise (Ranks f p) := by
  induction acc with
  | nil => exact List.pairwise_singleton _ x
  | cons y acc ih =>
    obtain ⟨hy, hacc'⟩ := List.pairwise_cons.mp hacc
    rcases lt_or_ge (f y) (f x) with hlt | hle
    · rw [place_cons_of_lt hlt]
      refine List.pairwise_cons.mpr ⟨fun z hz => ?_, hacc⟩
      rcases List.mem_cons.mp hz with rfl | hz
      · exact Or.inl hlt
      · rcases hy z hz with hlt' | ⟨heq, _⟩
        · exact Or.inl (hlt'.trans hlt)
        · exact Or.inl (heq ▸ hlt)
    · rw [place_cons_of_le hle]
      refine List.pairwise_cons.mpr
        ⟨fun z hz => ?_, ih hacc' fun a ha => hx a (List.mem_cons_of_mem y ha)⟩
      rcases mem_place.mp hz with rfl | hz
      · rcases hle.lt_or_eq with hlt | heq
        · exact Or.inl hlt
        · exact Or.inr ⟨heq, hx y List.mem_cons_self⟩
      · exact hy z hz

theorem foldl_place_pairwise (hacc : acc.Pairwise (Ranks f p)) (hl : l.Pairwise p)
    (hx : ∀ a ∈ acc, ∀ x ∈ l, p a x) :
    (l.foldl (fun acc x => place f x acc) acc).Pairwise (Ranks f p) := by
  induction l generalizing acc with
  | nil => exact hacc
  | cons x l ih =>
    obtain ⟨hfirst, hl'⟩ := List.pairwise_cons.mp hl
    refine ih (place_pairwise hacc fun a ha => hx a ha x List.mem_cons_self) hl' fun a ha y hy => ?_
    rcases mem_place.mp ha with rfl | ha
    · exact hfirst y hy
    · exact hx a ha y (List.mem_cons_of_mem x hy)

theorem ranked_pairwise (hl : l.Pairwise p) : (ranked f l).Pairwise (Ranks f p) :=
  foldl_place_pairwise List.Pairwise.nil hl fun _ ha => absurd ha List.not_mem_nil

/-- The first of a list are in front of those that are left out. -/
theorem rel_of_mem_take {r : α → α → Prop} (hl : l.Pairwise r) (hx : x ∈ l.take k) (hy : y ∈ l)
    (hout : y ∉ l.take k) : r x y := by
  rw [← List.take_append_drop k l] at hl hy
  exact (List.pairwise_append.mp hl).2.2 x hx y ((List.mem_append.mp hy).resolve_left hout)

end TopList
end ZephyrSamples
