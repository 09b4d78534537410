import Mathlib.Data.List.Basic
import Mathlib.Data.List.Perm.Subperm

/-!
# Tables of slots

A table is a list of slots that is searched from its beginning for the first slot that meets a
predicate.  `First` says which index such a search returns, and `length_le_of_home` bounds the slots
that are in use by the owners that use them.  A table that gives each key the first free slot has
its keys in the order of their `arrivals`. -/

namespace ZephyrSamples
namespace SlotTable

variable {α ω : Type*} {p q : α → Prop} {slots : List α} {i j : Nat} {a : α}

/-- Index `i` is the first of the table whose slot meets `p`. -/
def First (p : α → Prop) (slots : List α) (i : Nat) : Prop :=
  (∃ a, slots[i]? = some a ∧ p a) ∧ ∀ j < i, ∀ b, slots[j]? = some b → ¬ p b

/-- No slot of the table meets `p`. -/
def Nowhere (p : α → Prop) (slots : List α) : Prop :=
  ∀ (j : Nat) (b : α), slots[j]? = some b → ¬ p b

theorem First.lt_length (hi : First p slots i) : i < slots.length := by
  obtain ⟨⟨a, ha, _⟩, _⟩ := hi
  exact (List.getElem?_eq_some_iff.mp ha).1

theorem First.le_of_getElem? (hi : First p slots i) (ha : slots[j]? = some a) (hpa : p a) :
    i ≤ j := by
  by_contra hlt
  exact hi.2 j (by omega) a ha hpa

theorem findIdx?_eq_some {b : α → Bool} :
    slots.findIdx? b = some i ↔ First (fun a => b a = true) slots i := by
  rw [List.findIdx?_eq_some_iff_getElem]
  constructor
  · rintro ⟨hlt, hb, hbefore⟩
    refine ⟨⟨slots[i], List.getElem?_eq_getElem hlt, hb⟩, fun j hj c hc => ?_⟩
    obtain ⟨hjlt, rfl⟩ := List.getElem?_eq_some_iff.mp hc
    exact hbefore j hj
  · rintro ⟨⟨a, ha, hb⟩, hbefore⟩
    obtain ⟨hlt, rfl⟩ := List.getElem?_eq_some_iff.mp ha
    exact ⟨hlt, hb, fun j hj => hbefore j hj _ (List.getElem?_eq_getElem (by omega))⟩

theorem findIdx?_eq_none {b : α → Bool} :
    slots.findIdx? b = none ↔ Nowhere (fun a => b a = true) slots := by
  rw [List.findIdx?_eq_none_iff]
  constructor
  · intro h j c hc
    show ¬ b c = true
    rw [h c (List.mem_of_getElem? hc)]
    exact Bool.false_ne_true
  · intro h c hc
    obtain ⟨j, hj⟩ := List.getElem?_of_mem hc
    exact eq_false_of_ne_true (h j c hj)

theorem exists_first (h : ∃ a ∈ slots, p a) : ∃ i, First p slots i := by
  classical
  cases hfind : slots.findIdx? (fun a => decide (p a)) with
  | some i =>
    have hfirst := findIdx?_eq_some.mp hfind
    simp only [decide_eq_true_eq] at hfirst
    exact ⟨i, hfirst⟩
  | none =>
    obtain ⟨a, ha, hpa⟩ := h
    have hnot := (List.findIdx?_eq_none_iff.mp hfind) a ha
    exact absurd (decide_eq_true hpa) (by rw [hnot]; exact Bool.false_ne_true)

theorem set_self (ha : slots[i]? = some a) : slots.set i a = slots := by
  obtain ⟨hlt, rfl⟩ := List.getElem?_eq_some_iff.mp ha
  exact List.set_getElem_self hlt

theorem modify_eq_set (ha : slots[i]? = some a) (f : α → α) :
    slots.modify i f = slots.set i (f a) := by
  refine List.ext_getElem? fun j => ?_
  by_cases hij : i = j
  · subst hij
    have hlt := (List.getElem?_eq_some_iff.mp ha).1
    rw [List.getElem?_modify_eq, List.getElem?_set_self hlt, ha]
    rfl
  · rw [List.getElem?_modify_ne _ _ hij, List.getElem?_set_ne hij]

theorem getElem?_set_cases {b : α} (h : (slots.set i a)[j]? = some b) :
    (j = i ∧ b = a) ∨ (j ≠ i ∧ slots[j]? = some b) := by
  rw [List.getElem?_set] at h
  by_cases hij : i = j
  · rw [if_pos hij] at h
    split at h
    · exact Or.inl ⟨hij.symm, (Option.some.inj h).symm⟩
    · cases h
  · rw [if_neg hij] at h
    exact Or.inr ⟨fun hji => hij hji.symm, h⟩

/-- Owners that are at home in every slot of a table are at least as many as its slots. -/
theorem length_le_of_home (owners : List ω) (home : ω → Option Nat)
    (h : ∀ i < slots.length, ∃ o ∈ owners, home o = some i) : slots.length ≤ owners.length := by
  have hsub : List.range slots.length ⊆ owners.filterMap home := by
    intro i hi
    obtain ⟨o, ho, hhome⟩ := h i (List.mem_range.mp hi)
    exact List.mem_filterMap.mpr ⟨o, ho, hhome⟩
  have hle := (List.subperm_of_subset List.nodup_range hsub).length_le
  rw [List.length_range] at hle
  exact Nat.le_trans hle (List.length_filterMap_le home owners)

section Arrivals

variable {κ : Type*} [DecidableEq κ] {k : κ} {ks : List κ}

/-- The keys in the order in which they came first, from a list that has the newest first. -/
def arrivals : List κ → List κ
  | [] => []
  | k :: older => if k ∈ arrivals older then arrivals older else arrivals older ++ [k]

theorem arrivals_cons_old (h : k ∈ arrivals ks) : arrivals (k :: ks) = arrivals ks := if_pos h

theorem arrivals_cons_new (h : k ∉ arrivals ks) : arrivals (k :: ks) = arrivals ks ++ [k] :=
  if_neg h

theorem nodup_arrivals (ks : List κ) : (arrivals ks).Nodup := by
  induction ks with
  | nil => exact List.nodup_nil
  | cons k ks ih =>
    by_cases hk : k ∈ arrivals ks
    · rw [arrivals_cons_old hk]
      exact ih
    · rw [arrivals_cons_new hk]
      exact List.nodup_append.mpr ⟨ih, List.pairwise_singleton _ k, fun a ha b hb => by
        rw [List.mem_singleton.mp hb]
        exact fun hab => hk (hab ▸ ha)⟩

theorem mem_arrivals : k ∈ arrivals ks ↔ k ∈ ks := by
  induction ks with
  | nil => exact Iff.rfl
  | cons k' ks ih =>
    by_cases hk : k' ∈ arrivals ks
    · rw [arrivals_cons_old hk, List.mem_cons, ih]
      constructor
      · exact Or.inr
      · rintro (rfl | h)
        · exact ih.mp hk
        · exact h
    · rw [arrivals_cons_new hk, List.mem_append, List.mem_singleton, List.mem_cons, ih]
      exact or_comm

end Arrivals

end SlotTable
end ZephyrSamples
