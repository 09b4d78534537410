import Mathlib.Data.List.Basic

/-!
# An interval in pieces

A piece is a start and a length.  `Tiles n start len pieces` says that the pieces, none longer than
`n`, begin at `start`, follow one another and end at `start + len`; each address of the interval is
then in exactly one of them, and no other address is in any.
-/

namespace ZephyrSamples

/-- The pieces, of at most `n` each, follow one another from `start` to `start + len`. -/
def Tiles (n : Nat) : Nat → Nat → List (Nat × Nat) → Prop
  | _, len, [] => len = 0
  | start, len, p :: pieces =>
    p.1 = start ∧ p.2 ≤ n ∧ p.2 ≤ len ∧ Tiles n (start + p.2) (len - p.2) pieces

namespace Tiles

variable {n start len : Nat} {p : Nat × Nat} {pieces : List (Nat × Nat)}

theorem singleton (h : len ≤ n) : Tiles n start len [(start, len)] :=
  ⟨rfl, h, Nat.le_refl len, Nat.sub_self len⟩

theorem cons_full (hn : n ≤ len) (h : Tiles n (start + n) (len - n) pieces) :
    Tiles n start len ((start, n) :: pieces) :=
  ⟨rfl, Nat.le_refl n, hn, h⟩

theorem le (h : Tiles n start len pieces) : ∀ p ∈ pieces, p.2 ≤ n := by
  induction pieces generalizing start len with
  | nil => exact List.forall_mem_nil _
  | cons p pieces ih =>
    obtain ⟨-, hp, -, hrest⟩ := h
    exact List.forall_mem_cons.mpr ⟨hp, ih hrest⟩

/-- Every piece lies within the interval. -/
theorem within (h : Tiles n start len pieces) :
    ∀ p ∈ pieces, start ≤ p.1 ∧ p.1 + p.2 ≤ start + len := by
  induction pieces generalizing start len with
  | nil => exact List.forall_mem_nil _
  | cons p pieces ih =>
    obtain ⟨hp, -, hle, hrest⟩ := h
    refine List.forall_mem_cons.mpr ⟨by omega, fun q hq => ?_⟩
    have hq := ih hrest q hq
    omega

/-- The addresses of the pieces, one after the other, are those of the interval. -/
theorem flatMap_range' (h : Tiles n start len pieces) :
    pieces.flatMap (fun p => List.range' p.1 p.2) = List.range' start len := by
  induction pieces generalizing start len with
  | nil =>
    obtain rfl : len = 0 := h
    rfl
  | cons p pieces ih =>
    obtain ⟨hp, -, hle, hrest⟩ := h
    rw [List.flatMap_cons, ih hrest, hp, List.range'_append_1, Nat.add_sub_cancel' hle]

theorem head_eq (h : Tiles n start len pieces) : ∀ p ∈ pieces.head?, p.1 = start := by
  cases pieces with
  | nil => simp
  | cons p pieces =>
    rintro q hq
    obtain rfl : p = q := Option.some.inj hq
    exact h.1

theorem consecutive (h : Tiles n start len pieces) :
    pieces.IsChain fun p q => p.1 + p.2 = q.1 := by
  induction pieces generalizing start len with
  | nil => exact List.IsChain.nil
  | cons p pieces ih =>
    obtain ⟨hp, -, -, hrest⟩ := h
    cases pieces with
    | nil => exact List.IsChain.singleton p
    | cons q pieces =>
      have hq : q.1 = start + p.2 := hrest.1
      exact List.isChain_cons_cons.mpr ⟨by rw [hp, hq], ih hrest⟩

/-- Each address of the interval is in exactly one piece, and no other address in any. -/
theorem once (h : Tiles n start len pieces) (x : Nat) :
    pieces.countP (fun p => p.1 ≤ x ∧ x < p.1 + p.2) =
      if start ≤ x ∧ x < start + len then 1 else 0 := by
  induction pieces generalizing start len with
  | nil =>
    have hlen : len = 0 := h
    rw [List.countP_nil, if_neg (by omega)]
  | cons p pieces ih =>
    obtain ⟨hp, -, hle, hrest⟩ := h
    rw [List.countP_cons, ih hrest, hp]
    by_cases hfirst : start ≤ x ∧ x < start + p.2
    · have hafter : ¬ (start + p.2 ≤ x ∧ x < start + p.2 + (len - p.2)) := by omega
      have hall : start ≤ x ∧ x < start + len := by omega
      rw [if_neg hafter, if_pos hall, if_pos (decide_eq_true hfirst)]
    · have hsame : (start + p.2 ≤ x ∧ x < start + p.2 + (len - p.2)) ↔
          start ≤ x ∧ x < start + len := by omega
      rw [decide_eq_false hfirst, if_congr hsame rfl rfl]
      rfl

end Tiles

end ZephyrSamples
