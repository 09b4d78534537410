import ZephyrSamples.Lib.Runs

/-!
# The work that is done in a run

`worked` counts the steps of a run that meet `G`.  If each of them is paid for, by a reserve that
falls or by an account that grows, then all of them are: `worked_le`.
-/

namespace ZephyrSamples
namespace Runs

variable {σ ε : Type*} (step : σ → ε → σ) (G : σ → ε → Prop) [∀ s e, Decidable (G s e)]

/-- How many steps of the run meet `G`. -/
def worked : σ → List ε → Nat
  | _, [] => 0
  | s, e :: es => (if G s e then 1 else 0) + worked (step s e) es

/-- A reserve pays for each step that meets `G`, and is only filled up from the account. -/
theorem worked_le {H : σ → ε → Prop} {I : σ → Prop} {reserve account : σ → Nat}
    (hI : ∀ s e, I s → H s e → I (step s e))
    (hpays : ∀ s e, I s → H s e →
      (if G s e then 1 else 0) + reserve (step s e) + account s ≤ reserve s + account (step s e))
    {s : σ} {es : List ε} (hs : I s) (h : Along step H s es) :
    worked step G s es + reserve (run step s es) + account s ≤
      reserve s + account (run step s es) := by
  induction es generalizing s with
  | nil =>
    show 0 + reserve s + account s ≤ reserve s + account s
    omega
  | cons e es ih =>
    have hfirst := hpays s e hs h.1
    have hrest := ih (hI s e hs h.1) h.2
    rw [run_cons, worked]
    omega

end Runs
end ZephyrSamples
