import ZephyrSamples.Lib.Runs

/-!
# A mailbox with one slot

A system puts requests into a slot that holds one of them, and takes the request out to serve it.
A request put into a full slot replaces the one that is there.  `served_iff` says when no request
is lost in a run that starts and ends with the slot empty: every request put is taken later exactly
when every request that is overwritten is put again later.
-/

namespace ZephyrSamples

open Runs

variable {σ ε ι : Type*}

/-- A slot of a system, with the request a step takes from it and the one it then puts into it. -/
structure Mailbox (step : σ → ε → σ) (ι : Type*) where
  slot : σ → Option ι
  take : σ → ε → Option ι
  put : σ → ε → Option ι
  slot_of_take : ∀ {s e i}, take s e = some i → slot s = some i
  slot_step : ∀ s e,
    slot (step s e) = (put s e).or (if (take s e).isSome then none else slot s)

namespace Mailbox

variable {step : σ → ε → σ} (box : Mailbox step ι) (i : ι)

/-- The step takes a request for `i`. -/
def Takes (s : σ) (e : ε) : Prop := box.take s e = some i

/-- The step puts a request for `i`. -/
def Puts (s : σ) (e : ε) : Prop := box.put s e = some i

/-- The step puts another request into the slot that holds one for `i`. -/
def Overwrites (s : σ) (e : ε) : Prop :=
  box.slot s = some i ∧ box.take s e = none ∧ box.put s e ≠ none ∧ box.put s e ≠ some i

instance [DecidableEq ι] (s : σ) (e : ε) : Decidable (box.Takes i s e) :=
  inferInstanceAs (Decidable (_ = _))

instance [DecidableEq ι] (s : σ) (e : ε) : Decidable (box.Puts i s e) :=
  inferInstanceAs (Decidable (_ = _))

instance [DecidableEq ι] (s : σ) (e : ε) : Decidable (box.Overwrites i s e) :=
  inferInstanceAs (Decidable (_ ∧ _ ∧ _ ∧ _))

variable {box i} {s : σ} {e : ε} {es : List ε}

theorem Puts.slot_step (h : box.Puts i s e) : box.slot (step s e) = some i := by
  rw [box.slot_step, show box.put s e = some i from h, Option.some_or]

theorem Takes.slot_step (h : box.Takes i s e) : box.slot (step s e) = box.put s e := by
  rw [box.slot_step, show box.take s e = some i from h]
  exact Option.or_none

theorem slot_step_of_idle (htake : box.take s e = none) (hput : box.put s e = none) :
    box.slot (step s e) = box.slot s := by
  rw [box.slot_step, hput, htake]
  rfl

/-- A full slot loses its request in no other way than by a take or an overwriting. -/
theorem slot_cases (hslot : box.slot s = some i) (e : ε) :
    box.Takes i s e ∨ box.Overwrites i s e ∨ box.slot (step s e) = some i := by
  cases htake : box.take s e with
  | some j =>
    have hj : some i = some j := hslot.symm.trans (box.slot_of_take htake)
    exact Or.inl (htake.trans hj.symm)
  | none =>
    by_cases hidle : box.put s e = none
    · exact Or.inr (Or.inr ((slot_step_of_idle htake hidle).trans hslot))
    · by_cases hput : box.put s e = some i
      · exact Or.inr (Or.inr (Puts.slot_step hput))
      · exact Or.inr (Or.inl ⟨hslot, htake, hidle, hput⟩)

theorem puts_of_slot_step (hslot : box.slot s ≠ some i) (hnext : box.slot (step s e) = some i) :
    box.Puts i s e := by
  rw [box.slot_step] at hnext
  cases hput : box.put s e with
  | some j =>
    rw [hput, Option.some_or] at hnext
    exact hput.trans hnext
  | none =>
    rw [hput, Option.none_or] at hnext
    split at hnext
    · exact absurd hnext nofun
    · exact absurd hnext hslot

/-- Nothing is taken that was not put. -/
theorem sometime_puts_of_takes (hslot : box.slot s ≠ some i)
    (h : Sometime step (box.Takes i) s es) : Sometime step (box.Puts i) s es := by
  induction es generalizing s with
  | nil => exact h
  | cons e es ih =>
    rcases h with hnow | hlater
    · exact absurd (box.slot_of_take hnow) hslot
    · by_cases hnext : box.slot (step s e) = some i
      · exact Or.inl (puts_of_slot_step hslot hnext)
      · exact Or.inr (ih hnext hlater)

/-- A request in the slot, or still to be put, is taken before the run ends with the slot empty, if
it is put again whenever it is overwritten. -/
theorem sometime_takes (hend : box.slot (run step s es) = none)
    (hrenewed : After step (box.Overwrites i) (Sometime step (box.Puts i)) s es)
    (h : box.slot s = some i ∨ Sometime step (box.Puts i) s es) :
    Sometime step (box.Takes i) s es := by
  induction es generalizing s with
  | nil =>
    rcases h with hslot | hput
    · exact absurd (hslot.symm.trans hend) nofun
    · exact hput.elim
  | cons e es ih =>
    obtain ⟨hnow, hlater⟩ := hrenewed
    rcases h with hslot | hput | hput
    · rcases slot_cases hslot e with htake | hover | hnext
      · exact Or.inl htake
      · exact Or.inr (ih hend hlater (Or.inr (hnow hover)))
      · exact Or.inr (ih hend hlater (Or.inl hnext))
    · exact Or.inr (ih hend hlater (Or.inl hput.slot_step))
    · exact Or.inr (ih hend hlater (Or.inr hput))

/-- If every request for `i` is taken, the one in the slot included, then one that is overwritten
is put again. -/
theorem renewed_of_served
    (hslot : box.slot s = some i → Sometime step (box.Takes i) s es)
    (hserved : After step (box.Puts i) (Sometime step (box.Takes i)) s es) :
    After step (box.Overwrites i) (Sometime step (box.Puts i)) s es := by
  induction es generalizing s with
  | nil => trivial
  | cons e es ih =>
    obtain ⟨hnow, hlater⟩ := hserved
    constructor
    · rintro ⟨hfull, htake, hbusy, hput⟩
      have hnext : box.slot (step s e) ≠ some i := by
        obtain ⟨j, hj⟩ := Option.ne_none_iff_exists'.mp hbusy
        rw [Puts.slot_step hj, ← hj]
        exact hput
      rcases hslot hfull with htaken | htaken
      · exact absurd (htake.symm.trans htaken) nofun
      · exact sometime_puts_of_takes hnext htaken
    · refine ih (fun hnext => ?_) hlater
      by_cases hput : box.Puts i s e
      · exact hnow hput
      · have hfull : box.slot s = some i := by
          by_contra hslot'
          exact hput (puts_of_slot_step hslot' hnext)
        rcases hslot hfull with htaken | htaken
        · exact absurd (htaken.slot_step.symm.trans hnext) hput
        · exact htaken

/-- From an empty slot to an empty slot, every request for `i` is taken if and only if it is put
again whenever it is overwritten. -/
theorem served_iff (hstart : box.slot s = none) (hend : box.slot (run step s es) = none) :
    After step (box.Puts i) (Sometime step (box.Takes i)) s es ↔
      After step (box.Overwrites i) (Sometime step (box.Puts i)) s es := by
  constructor
  · exact renewed_of_served fun hslot => absurd (hstart.symm.trans hslot) nofun
  · intro hrenewed
    clear hstart
    induction es generalizing s with
    | nil => trivial
    | cons e es ih =>
      exact ⟨fun hput => sometime_takes hend hrenewed.2 (Or.inl hput.slot_step),
        ih hend hrenewed.2⟩

end Mailbox
end ZephyrSamples
