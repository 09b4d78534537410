import Mathlib.Data.List.Count

/-!
# Handles that are opened, handed on and closed

`holds p h` says that party `p` will close handle `h`.  `Accounted holds opened closed` is the
account of a run so far: a handle is with one party at most, and it has been closed as often as it
has been opened, but for the one time that a party still has it.  The rules are those of opening a
handle, handing it on and closing it.
-/

namespace ZephyrSamples
namespace Handles

variable {P H : Type*} [DecidableEq H] {holds holds' : P → H → Prop} {opened closed : List H}
  {p q : P} {h : H}

structure Accounted (holds : P → H → Prop) (opened closed : List H) : Prop where
  unique : ∀ p q h, holds p h → holds q h → p = q
  held : ∀ p h, holds p h → opened.count h = closed.count h + 1
  settled : ∀ h, (∀ p, ¬ holds p h) → opened.count h = closed.count h

theorem accounted_nil (hnone : ∀ p h, ¬ holds p h) : Accounted holds [] [] where
  unique p _ h hp := absurd hp (hnone p h)
  held p h hp := absurd hp (hnone p h)
  settled _ _ := rfl

theorem Accounted.congr (ha : Accounted holds opened closed) (heq : ∀ q k, holds' q k ↔ holds q k) :
    Accounted holds' opened closed := by
  have hsame : holds' = holds := funext fun q => funext fun k => propext (heq q k)
  exact hsame ▸ ha

theorem Accounted.not_holds (ha : Accounted holds opened closed)
    (hfree : opened.count h = closed.count h) (q : P) : ¬ holds q h := by
  intro hq
  have := ha.held q h hq
  omega

/-- A handle that is not open comes to `p`. -/
theorem Accounted.acquire (ha : Accounted holds opened closed)
    (hfree : opened.count h = closed.count h)
    (heq : ∀ q k, holds' q k ↔ holds q k ∨ q = p ∧ k = h) :
    Accounted holds' (opened ++ [h]) closed where
  unique q r k hq hr := by
    rcases (heq q k).mp hq with hq | ⟨rfl, rfl⟩
    · rcases (heq r k).mp hr with hr | ⟨rfl, rfl⟩
      · exact ha.unique q r k hq hr
      · exact absurd hq (ha.not_holds hfree q)
    · rcases (heq r k).mp hr with hr | ⟨rfl, _⟩
      · exact absurd hr (ha.not_holds hfree r)
      · rfl
  held q k hq := by
    rw [List.count_append]
    rcases (heq q k).mp hq with hq | ⟨rfl, rfl⟩
    · have hne : k ≠ h := fun hk => ha.not_holds hfree q (hk ▸ hq)
      rw [List.count_singleton, if_neg (by simpa using hne.symm)]
      exact ha.held q k hq
    · simp [hfree]
  settled k hnone := by
    have hne : k ≠ h := fun hk => hnone p ((heq p k).mpr (.inr ⟨rfl, hk⟩))
    rw [List.count_append, List.count_singleton, if_neg (by simpa using hne.symm)]
    exact ha.settled k fun q hq => hnone q ((heq q k).mpr (.inl hq))

/-- `p` closes a handle that it has. -/
theorem Accounted.release (ha : Accounted holds opened closed) (hp : holds p h)
    (heq : ∀ q k, holds' q k ↔ holds q k ∧ ¬ (q = p ∧ k = h)) :
    Accounted holds' opened (closed ++ [h]) where
  unique q r k hq hr := ha.unique q r k ((heq q k).mp hq).1 ((heq r k).mp hr).1
  held q k hq := by
    obtain ⟨hold, hnot⟩ := (heq q k).mp hq
    have hne : k ≠ h := by
      rintro rfl
      exact hnot ⟨ha.unique q p k hold hp, rfl⟩
    rw [List.count_append, List.count_singleton, if_neg (by simpa using hne.symm)]
    exact ha.held q k hold
  settled k hnone := by
    rw [List.count_append]
    by_cases hk : k = h
    · subst hk
      rw [ha.held p k hp, List.count_singleton, if_pos (beq_self_eq_true k)]
    · rw [List.count_singleton, if_neg (by simpa using Ne.symm hk)]
      exact ha.settled k fun q hq => hnone q ((heq q k).mpr ⟨hq, fun hqp => hk hqp.2⟩)

/-- `p` hands a handle on to `q`. -/
theorem Accounted.move (ha : Accounted holds opened closed) (hp : holds p h)
    (heq : ∀ r k, holds' r k ↔ holds r k ∧ ¬ (r = p ∧ k = h) ∨ r = q ∧ k = h) :
    Accounted holds' opened closed where
  unique r t k hr ht := by
    rcases (heq r k).mp hr with ⟨hr, hnot⟩ | ⟨rfl, rfl⟩
    · rcases (heq t k).mp ht with ⟨ht, _⟩ | ⟨rfl, rfl⟩
      · exact ha.unique r t k hr ht
      · exact absurd ⟨ha.unique r p k hr hp, rfl⟩ hnot
    · rcases (heq t k).mp ht with ⟨ht, hnot⟩ | ⟨rfl, _⟩
      · exact absurd ⟨ha.unique t p k ht hp, rfl⟩ hnot
      · rfl
  held r k hr := by
    rcases (heq r k).mp hr with ⟨hr, _⟩ | ⟨_, rfl⟩
    · exact ha.held r k hr
    · exact ha.held p k hp
  settled k hnone := by
    refine ha.settled k fun r hr => ?_
    by_cases hrp : r = p ∧ k = h
    · exact hnone q ((heq q k).mpr (.inr ⟨rfl, hrp.2⟩))
    · exact hnone r ((heq r k).mpr (.inl ⟨hr, hrp⟩))

end Handles
end ZephyrSamples
