import Mathlib.Data.List.Count
import Mathlib.Data.List.Basic

/-!
# Heap blocks and their holders

A heap hands out blocks by number and records which were freed.  Where the blocks that are not freed
should be is a count of holders for each block.  `Accounted` says that every block handed out was
freed once and is held by none, or was not freed and has one holder; a block that is neither freed
nor held after its allocation is lost, `not_accounted_alloc`.
-/

namespace ZephyrSamples

/-- The blocks `0, …, blocks - 1` were allocated, and those in `freed` were freed. -/
structure Heap where
  blocks : Nat := 0
  freed : List Nat := []
  deriving DecidableEq

namespace Heap

/-- The next block, and the heap after its allocation. -/
def alloc (h : Heap) : Nat × Heap := (h.blocks, { h with blocks := h.blocks + 1 })

def free (h : Heap) (b : Nat) : Heap := { h with freed := b :: h.freed }

/-- Every block allocated was freed once and is held by none, or was not freed and is
held by one. -/
def Accounted (h : Heap) (held : Nat → Nat) : Prop :=
  ∀ b < h.blocks, (h.freed.count b = 1 ∧ held b = 0) ∨ (h.freed.count b = 0 ∧ held b = 1)

instance (h : Heap) (held : Nat → Nat) : Decidable (h.Accounted held) :=
  inferInstanceAs (Decidable (∀ b < h.blocks, _ ∨ _))

/-- Only blocks that were allocated were freed or are held. -/
structure Wf (h : Heap) (held : Nat → Nat) : Prop where
  freed_lt : ∀ b ∈ h.freed, b < h.blocks
  held_lt : ∀ b, held b ≠ 0 → b < h.blocks

variable {h : Heap} {held held' : Nat → Nat}

@[simp] theorem alloc_fst : h.alloc.1 = h.blocks := rfl

@[simp] theorem alloc_blocks : h.alloc.2.blocks = h.blocks + 1 := rfl

@[simp] theorem alloc_freed : h.alloc.2.freed = h.freed := rfl

@[simp] theorem free_blocks (b : Nat) : (h.free b).blocks = h.blocks := rfl

@[simp] theorem free_freed (b : Nat) : (h.free b).freed = b :: h.freed := rfl

theorem Wf.fresh (hwf : Wf h held) : h.freed.count h.blocks = 0 ∧ held h.blocks = 0 := by
  constructor
  · rw [List.count_eq_zero]
    intro hmem
    exact absurd (hwf.freed_lt _ hmem) (Nat.lt_irrefl _)
  · by_contra hheld
    exact absurd (hwf.held_lt _ hheld) (Nat.lt_irrefl _)

theorem Wf.alloc (hwf : Wf h held) : Wf h.alloc.2 held where
  freed_lt := by
    intro b hb
    have hlt := hwf.freed_lt b hb
    rw [alloc_blocks]
    omega
  held_lt := by
    intro b hb
    have hlt := hwf.held_lt b hb
    rw [alloc_blocks]
    omega

theorem Wf.free (hwf : Wf h held) {b : Nat} (hb : b < h.blocks) : Wf (h.free b) held where
  freed_lt := by
    intro c hc
    rcases List.mem_cons.mp hc with rfl | hc
    · exact hb
    · exact hwf.freed_lt c hc
  held_lt := hwf.held_lt

theorem Wf.mono (hwf : Wf h held) (hle : ∀ b, held' b ≠ 0 → b < h.blocks) : Wf h held' where
  freed_lt := hwf.freed_lt
  held_lt := hle

theorem Accounted.alloc_free (hacc : Accounted h held) (hwf : Wf h held) :
    Accounted (h.alloc.2.free h.alloc.1) held := by
  intro b hb
  have hb' : b < h.blocks + 1 := hb
  obtain ⟨hcount, hheld⟩ := hwf.fresh
  by_cases hfresh : b = h.blocks
  · subst hfresh
    refine Or.inl ⟨?_, hheld⟩
    rw [free_freed, alloc_fst, alloc_freed, List.count_cons_self, hcount]
  · rw [free_freed, alloc_fst, alloc_freed, List.count_cons_of_ne (Ne.symm hfresh)]
    exact hacc b (by omega)

theorem Accounted.alloc_hold (hacc : Accounted h held) (hwf : Wf h held)
    (hheld : ∀ b, held' b = held b + if b = h.blocks then 1 else 0) :
    Accounted h.alloc.2 held' := by
  intro b hb
  have hb' : b < h.blocks + 1 := hb
  obtain ⟨hcount, hzero⟩ := hwf.fresh
  rw [alloc_freed, hheld b]
  by_cases hfresh : b = h.blocks
  · subst hfresh
    rw [if_pos rfl, hzero]
    exact Or.inr ⟨hcount, rfl⟩
  · rw [if_neg hfresh, Nat.add_zero]
    exact hacc b (by omega)

theorem Accounted.free_held (hacc : Accounted h held) {a : Nat}
    (ha : held a = held' a + 1) (hheld : ∀ b, b ≠ a → held' b = held b) :
    Accounted (h.free a) held' := by
  intro b hb
  have hb' : b < h.blocks := hb
  rw [free_freed]
  by_cases hba : b = a
  · subst hba
    rcases hacc b hb' with ⟨_, hzero⟩ | ⟨hcount, hone⟩
    · omega
    · refine Or.inl ⟨?_, by omega⟩
      rw [List.count_cons_self, hcount]
  · rw [List.count_cons_of_ne (Ne.symm hba), hheld b hba]
    exact hacc b hb'

/-- A block that is allocated and neither freed nor held is lost. -/
theorem Wf.not_accounted_alloc (hwf : Wf h held) : ¬ Accounted h.alloc.2 held := by
  intro hacc
  obtain ⟨hcount, hzero⟩ := hwf.fresh
  rcases hacc h.blocks (Nat.lt_succ_self _) with ⟨hone, _⟩ | ⟨_, hone⟩
  · rw [alloc_freed, hcount] at hone
    cases hone
  · rw [hzero] at hone
    cases hone

end Heap

end ZephyrSamples
