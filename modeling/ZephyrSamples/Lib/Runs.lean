import Mathlib.Data.List.Basic
import Mathlib.Order.Defs.PartialOrder

/-!
# Runs of a deterministic step function

A system is a step function `step : σ → ε → σ` on a state and an event, and a run is the fold of
`step` over a list of events.  `Always P s es` says that `P` holds in every state the run visits,
the first and the last included, and `Along G s es` says that every step taken meets `G` in the
state before it; `Sometime` and `After` are its counterparts for some step and for what follows a
step.  `always_iff_along` is the rule the developments use: when `G` is exactly what a
step needs to keep `P`, a run keeps `P` throughout if and only if all its steps meet `G`.
-/

namespace ZephyrSamples
namespace Runs

variable {σ ε : Type*} (step : σ → ε → σ)

/-- The state after a list of events. -/
def run (s : σ) (es : List ε) : σ := es.foldl step s

@[simp] theorem run_nil (s : σ) : run step s [] = s := rfl

@[simp] theorem run_cons (s : σ) (e : ε) (es : List ε) :
    run step s (e :: es) = run step (step s e) es := rfl

theorem run_append (s : σ) (as bs : List ε) :
    run step s (as ++ bs) = run step (run step s as) bs :=
  List.foldl_append

theorem run_invariant {I : σ → Prop} (hstep : ∀ s e, I s → I (step s e)) {s : σ} (hs : I s)
    (es : List ε) : I (run step s es) := by
  induction es generalizing s with
  | nil => exact hs
  | cons e es ih => exact ih (hstep s e hs)

/-- `P` holds in every state of the run. -/
def Always (P : σ → Prop) : σ → List ε → Prop
  | s, [] => P s
  | s, e :: es => P s ∧ Always P (step s e) es

/-- Every step of the run meets `G` in the state it is taken from. -/
def Along (G : σ → ε → Prop) : σ → List ε → Prop
  | _, [] => True
  | s, e :: es => G s e ∧ Along G (step s e) es

instance instDecidableAlong (G : σ → ε → Prop) [∀ s e, Decidable (G s e)] :
    ∀ (s : σ) (es : List ε), Decidable (Along step G s es)
  | _, [] => inferInstanceAs (Decidable True)
  | s, e :: es =>
    have := instDecidableAlong G (step s e) es
    inferInstanceAs (Decidable (G s e ∧ Along step G (step s e) es))

/-- Some step of the run meets `G` in the state it is taken from. -/
def Sometime (G : σ → ε → Prop) : σ → List ε → Prop
  | _, [] => False
  | s, e :: es => G s e ∨ Sometime G (step s e) es

instance instDecidableSometime (G : σ → ε → Prop) [∀ s e, Decidable (G s e)] :
    ∀ (s : σ) (es : List ε), Decidable (Sometime step G s es)
  | _, [] => inferInstanceAs (Decidable False)
  | s, e :: es =>
    have := instDecidableSometime G (step s e) es
    inferInstanceAs (Decidable (G s e ∨ Sometime step G (step s e) es))

/-- Whenever a step of the run meets `G`, `Q` holds of the state after it and the rest. -/
def After (G : σ → ε → Prop) (Q : σ → List ε → Prop) : σ → List ε → Prop
  | _, [] => True
  | s, e :: es => (G s e → Q (step s e) es) ∧ After G Q (step s e) es

instance instDecidableAfter (G : σ → ε → Prop) (Q : σ → List ε → Prop) [∀ s e, Decidable (G s e)]
    [∀ s es, Decidable (Q s es)] : ∀ (s : σ) (es : List ε), Decidable (After step G Q s es)
  | _, [] => inferInstanceAs (Decidable True)
  | s, e :: es =>
    have := instDecidableAfter G Q (step s e) es
    inferInstanceAs (Decidable ((G s e → Q (step s e) es) ∧ After step G Q (step s e) es))

theorem Always.head {P : σ → Prop} {s : σ} {es : List ε} (h : Always step P s es) : P s := by
  cases es with
  | nil => exact h
  | cons e es => exact h.1

theorem Always.last {P : σ → Prop} {s : σ} {es : List ε} (h : Always step P s es) :
    P (run step s es) := by
  induction es generalizing s with
  | nil => exact h
  | cons e es ih => exact ih h.2

theorem not_always_of_last {P : σ → Prop} {s t : σ} {es : List ε} (ht : run step s es = t)
    (hP : ¬ P t) : ¬ Always step P s es := by
  intro h
  exact hP (ht ▸ h.last)

/-- What every step preserves holds throughout a run, with all that follows from it. -/
theorem always_of_invariant {I P : σ → Prop} (hstep : ∀ s e, I s → I (step s e))
    (hP : ∀ s, I s → P s) {s : σ} (hs : I s) (es : List ε) : Always step P s es := by
  induction es generalizing s with
  | nil => exact hP s hs
  | cons e es ih => exact ⟨hP s hs, ih (hstep s e hs)⟩

theorem along_append {G : σ → ε → Prop} {s : σ} {as bs : List ε} :
    Along step G s (as ++ bs) ↔ Along step G s as ∧ Along step G (run step s as) bs := by
  induction as generalizing s with
  | nil => exact (true_and _).symm.to_iff
  | cons e as ih =>
    rw [List.cons_append, run_cons]
    exact (and_congr_right fun _ => ih).trans and_assoc.symm

theorem along_of_forall {G : σ → ε → Prop} {s : σ} {es : List ε}
    (h : ∀ s, ∀ e ∈ es, G s e) : Along step G s es := by
  induction es generalizing s with
  | nil => trivial
  | cons e es ih =>
    exact ⟨h s e List.mem_cons_self, ih fun s e he => h s e (List.mem_cons_of_mem _ he)⟩

theorem along_congr {G H : σ → ε → Prop} (h : ∀ s e, G s e ↔ H s e) {s : σ} {es : List ε} :
    Along step G s es ↔ Along step H s es := by
  induction es generalizing s with
  | nil => exact Iff.rfl
  | cons e es ih => exact and_congr (h s e) ih

/-- A run whose states are those of another, through `f`, meets what the other meets. -/
theorem along_map {τ : Type*} {step' : τ → ε → τ} {f : σ → τ}
    (hf : ∀ s e, f (step s e) = step' (f s) e) (G : τ → ε → Prop) {s : σ} {es : List ε} :
    Along step (fun s e => G (f s) e) s es ↔ Along step' G (f s) es := by
  induction es generalizing s with
  | nil => exact Iff.rfl
  | cons e es ih => exact and_congr_right fun _ => ih.trans (by rw [hf])

theorem Along.and {G H : σ → ε → Prop} {s : σ} {es : List ε} (hG : Along step G s es)
    (hH : Along step H s es) : Along step (fun s e => G s e ∧ H s e) s es := by
  induction es generalizing s with
  | nil => trivial
  | cons e es ih => exact ⟨⟨hG.1, hH.1⟩, ih hG.2 hH.2⟩

theorem After.imp {G : σ → ε → Prop} {Q Q' : σ → List ε → Prop} (hQ : ∀ s es, Q s es → Q' s es)
    {s : σ} {es : List ε} (h : After step G Q s es) : After step G Q' s es := by
  induction es generalizing s with
  | nil => trivial
  | cons e es ih => exact ⟨fun hG => hQ _ _ (h.1 hG), ih h.2⟩

theorem Along.invariant {G : σ → ε → Prop} {I : σ → Prop}
    (hstep : ∀ s e, I s → G s e → I (step s e)) {s : σ} {es : List ε} (hs : I s)
    (h : Along step G s es) : I (run step s es) := by
  induction es generalizing s with
  | nil => exact hs
  | cons e es ih => exact ih (hstep s e hs h.1) h.2

/-- A run keeps what an invariant of the steps that meet `G` implies. -/
theorem Along.always_of_invariant {G : σ → ε → Prop} {I P : σ → Prop}
    (hstep : ∀ s e, I s → G s e → I (step s e)) (hP : ∀ s, I s → P s) {s : σ} (hs : I s)
    {es : List ε} (h : Along step G s es) : Always step P s es := by
  induction es generalizing s with
  | nil => exact hP s hs
  | cons e es ih => exact ⟨hP s hs, ih (hstep s e hs h.1) h.2⟩

/-- A run that keeps `P` keeps what the steps that end in `P` preserve. -/
theorem Always.invariant {I P : σ → Prop} (hstep : ∀ s e, I s → P (step s e) → I (step s e))
    {s : σ} {es : List ε} (hs : I s) (h : Always step P s es) : I (run step s es) := by
  induction es generalizing s with
  | nil => exact hs
  | cons e es ih => exact ih (hstep s e hs h.2.head) h.2

/-- A run that keeps `P` and ends in `Q` meets `G` throughout, if a step that does not meet it leads
to a state that excludes `Q` for as long as `P` is kept. -/
theorem Always.along_of_last {G : σ → ε → Prop} {I D P Q : σ → Prop}
    (hkeep : ∀ s e, I s → G s e → I (step s e)) (hdoom : ∀ s e, I s → ¬ G s e → D (step s e))
    (hstay : ∀ s e, D s → P (step s e) → D (step s e)) (hend : ∀ s, D s → ¬ Q s) {s : σ}
    {es : List ε} (hs : I s) (h : Always step P s es) (hQ : Q (run step s es)) :
    Along step G s es := by
  induction es generalizing s with
  | nil => trivial
  | cons e es ih =>
    by_cases hG : G s e
    · exact ⟨hG, ih (hkeep s e hs hG) h.2 hQ⟩
    · have hD := Always.invariant step hstay (hdoom s e hs hG) h.2
      exact absurd hQ (hend _ hD)

/-- A run that keeps `P` meets what each step needs to end in `P`. -/
theorem Always.along {G : σ → ε → Prop} {P : σ → Prop} (hG : ∀ s e, P (step s e) → G s e)
    {s : σ} {es : List ε} (h : Always step P s es) : Along step G s es := by
  induction es generalizing s with
  | nil => trivial
  | cons e es ih => exact ⟨hG s e h.2.head, ih h.2⟩

/-- Steps that meet `G` meet `Q` as well, if under an invariant that they preserve each of them
does. -/
theorem Along.imp_of_invariant {G Q : σ → ε → Prop} {I : σ → Prop}
    (hstep : ∀ s e, I s → G s e → I (step s e) ∧ Q s e) {s : σ} {es : List ε} (hs : I s)
    (h : Along step G s es) : Along step Q s es := by
  induction es generalizing s with
  | nil => trivial
  | cons e es ih =>
    obtain ⟨hnext, hQ⟩ := hstep s e hs h.1
    exact ⟨hQ, ih hnext h.2⟩

/-- In a run whose steps all meet `H`, the steps meet `Q` exactly when they meet `G`, if the two are
the same under an invariant that the steps that meet `H` and `G` preserve. -/
theorem along_iff_of_invariant {H G Q : σ → ε → Prop} {I : σ → Prop}
    (hstep : ∀ s e, I s → H s e → G s e → I (step s e))
    (hiff : ∀ s e, I s → H s e → (Q s e ↔ G s e)) {s : σ} {es : List ε} (hs : I s)
    (h : Along step H s es) : Along step Q s es ↔ Along step G s es := by
  induction es generalizing s with
  | nil => exact Iff.rfl
  | cons e es ih =>
    constructor
    · rintro ⟨hQ, hrest⟩
      have hG := (hiff s e hs h.1).mp hQ
      exact ⟨hG, (ih (hstep s e hs h.1 hG) h.2).mp hrest⟩
    · rintro ⟨hG, hrest⟩
      exact ⟨(hiff s e hs h.1).mpr hG, (ih (hstep s e hs h.1 hG) h.2).mpr hrest⟩

/-- A run keeps `P` when it starts with it and every step ends in it. -/
theorem always_iff_along_next {P : σ → Prop} {s : σ} {es : List ε} :
    Always step P s es ↔ P s ∧ Along step (fun s e => P (step s e)) s es := by
  induction es generalizing s with
  | nil => exact (and_true _).symm.to_iff
  | cons e es ih => exact and_congr_right fun _ => ih

/-- In a run whose steps all meet `H`, the states keep `P` exactly when the steps meet `G`, if only
the steps that meet `G` keep the invariant `I`, and under it they are those that end in `P`. -/
theorem always_iff_along_of_kept {H G : σ → ε → Prop} {I P : σ → Prop}
    (hkeep : ∀ s e, I s → H s e → G s e → I (step s e))
    (hiff : ∀ s e, I s → H s e → (P (step s e) ↔ G s e)) {s : σ} (hs : I s) (hPs : P s)
    {es : List ε} (h : Along step H s es) : Always step P s es ↔ Along step G s es := by
  rw [always_iff_along_next]
  exact (and_iff_right hPs).trans (along_iff_of_invariant step hkeep hiff hs h)

/-- In a run whose steps all meet `H`, the states keep `P` exactly when the steps meet `G`, if under
the invariant `I` meeting `G` is what a step from a `P`-state needs to end in a `P`-state. -/
theorem always_iff_along_of_along {H G : σ → ε → Prop} {I P : σ → Prop}
    (hI : ∀ s e, I s → H s e → I (step s e))
    (hP : ∀ s e, I s → H s e → P s → (P (step s e) ↔ G s e))
    {s : σ} (hs : I s) (hPs : P s) {es : List ε} (h : Along step H s es) :
    Always step P s es ↔ Along step G s es := by
  induction es generalizing s with
  | nil => exact ⟨fun _ => trivial, fun _ => hPs⟩
  | cons e es ih =>
    constructor
    · rintro ⟨_, hrest⟩
      have hnext : P (step s e) := hrest.head
      exact ⟨(hP s e hs h.1 hPs).mp hnext, (ih (hI s e hs h.1) hnext h.2).mp hrest⟩
    · rintro ⟨hG, hrest⟩
      have hnext : P (step s e) := (hP s e hs h.1 hPs).mpr hG
      exact ⟨hPs, (ih (hI s e hs h.1) hnext h.2).mpr hrest⟩

/-- The same for all runs. -/
theorem always_iff_along {I P : σ → Prop} {G : σ → ε → Prop}
    (hI : ∀ s e, I s → I (step s e)) (hP : ∀ s e, I s → P s → (P (step s e) ↔ G s e))
    {s : σ} (hs : I s) (hPs : P s) (es : List ε) : Always step P s es ↔ Along step G s es :=
  always_iff_along_of_along step (H := fun _ _ => True) (fun s e h _ => hI s e h)
    (fun s e h _ => hP s e h) hs hPs (along_of_forall step fun _ _ _ => trivial)

theorem always_iff_along_kept {G : σ → ε → Prop} {I P : σ → Prop}
    (hkeep : ∀ s e, I s → G s e → I (step s e)) (hiff : ∀ s e, I s → (P (step s e) ↔ G s e))
    {s : σ} (hs : I s) (hPs : P s) (es : List ε) : Always step P s es ↔ Along step G s es :=
  always_iff_along_of_kept step (H := fun _ _ => True) (fun s e h _ => hkeep s e h)
    (fun s e h _ => hiff s e h) hs hPs (along_of_forall step fun _ _ _ => trivial)

theorem of_run {E : σ → Prop} (hback : ∀ s e, E (step s e) → E s) {s : σ} {es : List ε}
    (h : E (run step s es)) : E s := by
  induction es generalizing s with
  | nil => exact h
  | cons e es ih => exact hback s e (ih h)

/-- A run keeps `P` exactly when it ends in `E`, if no step gets back to `E`, and as long as both
hold a step ends in `P` exactly when it ends in `E`. -/
theorem always_iff_last {P E : σ → Prop} (hback : ∀ s e, E (step s e) → E s)
    (hiff : ∀ s e, P s → E s → (P (step s e) ↔ E (step s e))) {s : σ} (hP : P s) (hE : E s)
    (es : List ε) : Always step P s es ↔ E (run step s es) := by
  induction es generalizing s with
  | nil => exact iff_of_true hP hE
  | cons e es ih =>
    constructor
    · intro h
      have hnextP : P (step s e) := h.2.head
      have hnextE := (hiff s e hP hE).mp hnextP
      exact (ih hnextP hnextE).mp h.2
    · intro h
      have hnextE : E (step s e) := of_run step hback h
      have hnextP := (hiff s e hP hE).mpr hnextE
      exact ⟨hP, (ih hnextP hnextE).mpr h⟩

/-- A measure that no step lowers is at the end of a run what it was, exactly when the steps meet
`G`, if under an invariant those are the steps that leave it as it is. -/
theorem run_eq_iff_along {α : Type*} [PartialOrder α] {I : σ → Prop} {G : σ → ε → Prop} {f : σ → α}
    (hI : ∀ s e, I s → I (step s e)) (hle : ∀ s e, I s → f s ≤ f (step s e))
    (heq : ∀ s e, I s → (f (step s e) = f s ↔ G s e)) {s : σ} (hs : I s) (es : List ε) :
    f s ≤ f (run step s es) ∧ (f (run step s es) = f s ↔ Along step G s es) := by
  induction es generalizing s with
  | nil => exact ⟨le_refl _, ⟨fun _ => trivial, fun _ => rfl⟩⟩
  | cons e es ih =>
    obtain ⟨hrest, hiff⟩ := ih (hI s e hs)
    have hfirst := hle s e hs
    rw [run_cons]
    refine ⟨le_trans hfirst hrest, fun h => ?_, fun h => ?_⟩
    · have hstep : f (step s e) = f s := le_antisymm (h ▸ hrest) hfirst
      exact ⟨(heq s e hs).mp hstep, hiff.mp (h.trans hstep.symm)⟩
    · exact (hiff.mpr h.2).trans ((heq s e hs).mpr h.1)

end Runs
end ZephyrSamples
