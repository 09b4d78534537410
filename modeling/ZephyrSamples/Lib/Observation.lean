import ZephyrSamples.Lib.Runs

/-!
# What a run tells

A system that answers each event.  Two states that are related tell the same as long as the events
meet a condition under which the relation is kept and gives equal answers; an event on which related
states answer differently tells them apart in every run that has it.
-/

namespace ZephyrSamples
namespace Observation

variable {σ ε ω : Type*} (step : σ → ε → σ) (answer : σ → ε → ω)

/-- The answers to a list of events. -/
def answers : σ → List ε → List ω
  | _, [] => []
  | s, e :: es => answer s e :: answers (step s e) es

theorem answers_append (s : σ) (as bs : List ε) : answers step answer s (as ++ bs) =
    answers step answer s as ++ answers step answer (Runs.run step s as) bs := by
  induction as generalizing s with
  | nil => rfl
  | cons a as ih => exact congrArg (answer s a :: ·) (ih (step s a))

theorem answers_eq_of_related {R : σ → σ → Prop} {G : ε → Prop}
    (hanswer : ∀ s t e, R s t → G e → answer s e = answer t e)
    (hstep : ∀ s t e, R s t → R (step s e) (step t e)) {s t : σ} (h : R s t) {es : List ε}
    (hG : ∀ e ∈ es, G e) : answers step answer s es = answers step answer t es := by
  induction es generalizing s t with
  | nil => rfl
  | cons e es ih =>
    have hhead : answer s e = answer t e := hanswer s t e h (hG e List.mem_cons_self)
    have htail := ih (hstep s t e h) fun e he => hG e (List.mem_cons_of_mem _ he)
    show answer s e :: _ = answer t e :: _
    rw [hhead, htail]

theorem answers_ne_of_mem {R : σ → σ → Prop} {e : ε}
    (htells : ∀ s t, R s t → answer s e ≠ answer t e)
    (hstep : ∀ s t e, R s t → R (step s e) (step t e)) {s t : σ} (h : R s t) {es : List ε}
    (he : e ∈ es) : answers step answer s es ≠ answers step answer t es := by
  induction es generalizing s t with
  | nil => exact absurd he List.not_mem_nil
  | cons a es ih =>
    intro heq
    obtain ⟨hhead, htail⟩ := List.cons.inj heq
    rcases List.mem_cons.mp he with rfl | hmem
    · exact htells s t h hhead
    · exact ih (hstep s t a h) hmem htail

end Observation
end ZephyrSamples
