import Mathlib.Data.Nat.Find
import Mathlib.Logic.Function.Iterate

/-!
# Descent

A function that is applied again and again meets a goal if a measure falls as long as the goal is
not met.  `exists_first_iterate` gives the first time it does.
-/

namespace ZephyrSamples
namespace Descent

variable {α : Type*} {f : α → α} (goal : α → Prop)

theorem exists_iterate {measure : α → ℕ} (hfalls : ∀ x, ¬ goal x → measure (f x) < measure x)
    (x : α) : ∃ n, goal (f^[n] x) := by
  induction hrank : measure x using Nat.strongRecOn generalizing x with
  | ind rank ih =>
    by_cases hgoal : goal x
    · exact ⟨0, hgoal⟩
    · obtain ⟨n, hn⟩ := ih (measure (f x)) (hrank ▸ hfalls x hgoal) (f x) rfl
      exact ⟨n + 1, hn⟩

theorem exists_first_iterate {measure : α → ℕ}
    (hfalls : ∀ x, ¬ goal x → measure (f x) < measure x) (x : α) :
    ∃ n, goal (f^[n] x) ∧ ∀ k < n, ¬ goal (f^[k] x) := by
  classical
  have hex := exists_iterate goal hfalls x
  exact ⟨Nat.find hex, Nat.find_spec hex, fun k hk => Nat.find_min hex hk⟩

end Descent
end ZephyrSamples
