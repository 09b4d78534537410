import Mathlib.Data.List.Basic

/-!
# Rows in use and the rows behind them

A table of a fixed number of rows keeps its entries in the first ones, and the others hold a
default. Storing an entry behind the last one, sliding the entries behind a row onto it, and
clearing the last row of a full table are appending and erasing on the list of entries. -/

namespace ZephyrSamples
namespace PaddedRows

variable {α : Type*}

/-- The entries `xs` in a table of `cap` rows whose other rows are `d`. -/
def padded (cap : Nat) (d : α) (xs : List α) : List α :=
  xs ++ List.replicate (cap - xs.length) d

variable {cap : Nat} {d : α} {xs : List α}

theorem length_padded (h : xs.length ≤ cap) : (padded cap d xs).length = cap := by
  rw [padded, List.length_append, List.length_replicate]
  omega

@[simp] theorem take_padded : (padded cap d xs).take xs.length = xs := List.take_left

@[simp] theorem drop_padded :
    (padded cap d xs).drop xs.length = List.replicate (cap - xs.length) d := List.drop_left

theorem mem_padded_iff {x : α} :
    x ∈ padded cap d xs ↔ x ∈ xs ∨ (xs.length < cap ∧ x = d) := by
  rw [padded, List.mem_append, List.mem_replicate]
  have hpos : cap - xs.length ≠ 0 ↔ xs.length < cap := by omega
  rw [hpos]

theorem eq_padded {rows : List α} {n : Nat} (hlen : rows.length = cap) (hn : n ≤ cap)
    (hrest : ∀ x ∈ rows.drop n, x = d) : rows = padded cap d (rows.take n) := by
  have hdrop : rows.drop n = List.replicate (cap - n) d := by
    refine List.eq_replicate_iff.mpr ⟨?_, hrest⟩
    rw [List.length_drop, hlen]
  have htake : (rows.take n).length = n := by
    rw [List.length_take]
    omega
  rw [padded, htake, ← hdrop, List.take_append_drop]

theorem set_padded (h : xs.length < cap) (x : α) :
    (padded cap d xs).set xs.length x = padded cap d (xs ++ [x]) := by
  obtain ⟨k, hk⟩ : ∃ k, cap - xs.length = k + 1 := ⟨cap - xs.length - 1, by omega⟩
  have hk' : cap - (xs ++ [x]).length = k := by
    rw [List.length_append, List.length_singleton]
    omega
  rw [padded, padded, hk, hk', List.set_append_right _ _ (Nat.le_refl _), Nat.sub_self,
    List.replicate_succ, List.set_cons_zero, List.append_assoc]
  rfl

theorem padded_eraseIdx {i : Nat} (hi : i < xs.length) (h : xs.length ≤ cap) :
    padded cap d (xs.eraseIdx i) =
      xs.take i ++ (xs.drop (i + 1) ++ d :: List.replicate (cap - xs.length) d) := by
  have hlen : cap - (xs.eraseIdx i).length = cap - xs.length + 1 := by
    rw [List.length_eraseIdx, if_pos hi]
    omega
  rw [padded, hlen, List.replicate_succ, List.eraseIdx_eq_take_drop_succ, List.append_assoc]

/-- The rows behind row `i`, slid by one with the first row that is not in use, erase the entry. -/
theorem slide_padded {i : Nat} (hi : i < xs.length) (h : xs.length < cap) (beyond : List α) :
    (padded cap d xs).take i ++
        (((padded cap d xs ++ beyond).drop (i + 1)).take (xs.length - i) ++
          (padded cap d xs).drop xs.length) =
      padded cap d (xs.eraseIdx i) := by
  obtain ⟨k, hk⟩ : ∃ k, cap - xs.length = k + 1 := ⟨cap - xs.length - 1, by omega⟩
  have hone : (xs.drop (i + 1)).length + 1 = xs.length - i := by
    rw [List.length_drop]
    omega
  rw [padded_eraseIdx hi (Nat.le_of_lt h), drop_padded, padded, hk]
  rw [List.take_append_of_le_length (Nat.le_of_lt hi), List.append_assoc,
    List.drop_append_of_le_length hi, ← hone, List.take_length_add_append]
  rw [List.replicate_succ, List.cons_append, List.take_succ_cons, List.take_zero, List.append_assoc]
  rfl

theorem set_last_padded {i : Nat} (hi : i + 1 = xs.length) (h : xs.length = cap) :
    (padded cap d xs).set i d = padded cap d (xs.eraseIdx i) := by
  have hlt : i < xs.length := by omega
  have hdrop : xs.drop (i + 1) = [] := List.drop_eq_nil_of_le (by omega)
  have hzero : cap - xs.length = 0 := by omega
  rw [padded_eraseIdx hlt (Nat.le_of_eq h), hdrop, padded, hzero, List.replicate_zero,
    List.append_nil, List.nil_append]
  refine List.ext_getElem? fun j => ?_
  rw [List.getElem?_set]
  by_cases hj : i = j
  · subst hj
    rw [if_pos rfl, if_pos hlt, List.getElem?_append_right (List.length_take_le _ _),
      List.length_take, Nat.min_eq_left (Nat.le_of_lt hlt), Nat.sub_self]
    rfl
  · rw [if_neg hj]
    by_cases hji : j < i
    · rw [List.getElem?_append_left (by rw [List.length_take]; omega), List.getElem?_take,
        if_pos hji]
    · rw [List.getElem?_eq_none (by omega), List.getElem?_eq_none]
      rw [List.length_append, List.length_take, List.length_singleton]
      omega

end PaddedRows
end ZephyrSamples
