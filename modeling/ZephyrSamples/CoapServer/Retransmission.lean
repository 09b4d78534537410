import ZephyrSamples.CoapServer.Actions
import ZephyrSamples.Lib.Runs

/-!
# The retransmission timer of the CoAP server

One work item, `retransmit_work`, serves all entries of `pendings`.  Whatever stores an entry
submits it, and an expiry submits it again for the entry that it retransmits, but not when it gives
that entry up: entries that are still in use then have no timer until the next notification. -/

namespace ZephyrSamples
namespace CoapServer

open Runs

variable {P O A : Type} (lib : CoapLib P O A)

/-- While an entry of `pendings` is in use, `retransmit_work` is scheduled. -/
def Covered (s : Server P O) : Prop :=
  (∃ p ∈ s.pendings, lib.inUse p = true) → s.retransmitWork.isSome = true

instance (s : Server P O) : Decidable (Covered lib s) :=
  inferInstanceAs (Decidable (_ → _))

/-- An expiry that gives up an entry while another one is in use. -/
def Forgets (s : Server P O) (e : Event A) : Prop :=
  Expires s e ∧ ∃ i p, lib.pendingNextToExpire s.pendings = some i ∧ s.pendings[i]? = some p ∧
    (lib.pendingCycle p).2 = false ∧
    ∃ j q, j ≠ i ∧ s.pendings[j]? = some q ∧ lib.inUse q = true

variable {lib} {s s' : Server P O}

/-! ## Entries of `pendings` -/

/-- An entry in use after an unused one was stored was there before. -/
theorem used_of_set_unused {ps : List P} {i : Nat} {q : P} (hq : lib.inUse q = false)
    (h : ∃ p ∈ ps.set i q, lib.inUse p = true) : ∃ p ∈ ps, lib.inUse p = true := by
  obtain ⟨p, hmem, hp⟩ := h
  rcases List.mem_or_eq_of_mem_set hmem with hmem | rfl
  · exact ⟨p, hmem, hp⟩
  · rw [hq] at hp
    cases hp

theorem used_set_unused_iff {ps : List P} {i : Nat} {q : P} (hi : i < ps.length)
    (hq : lib.inUse q = false) :
    (∃ p ∈ ps.set i q, lib.inUse p = true) ↔
      ∃ j p, j ≠ i ∧ ps[j]? = some p ∧ lib.inUse p = true := by
  constructor
  · rintro ⟨p, hmem, hp⟩
    obtain ⟨j, hj⟩ := List.mem_iff_getElem?.mp hmem
    by_cases hji : j = i
    · subst hji
      rw [List.getElem?_set_self hi] at hj
      cases hj
      rw [hq] at hp
      cases hp
    · rw [List.getElem?_set_ne (Ne.symm hji)] at hj
      exact ⟨j, p, hji, hj, hp⟩
  · rintro ⟨j, p, hji, hj, hp⟩
    refine ⟨p, List.mem_iff_getElem?.mpr ⟨j, ?_⟩, hp⟩
    rw [List.getElem?_set_ne (Ne.symm hji)]
    exact hj

/-! ## Runs -/

theorem Act.covered (h : Act lib s s') (hcov : Covered lib s) : Covered lib s' := by
  induction h with
  | silent hheap hpendings hwork =>
    intro hused
    rw [hpendings] at hused
    rw [hwork]
    exact hcov hused
  | reply hheap hpendings hwork =>
    intro hused
    rw [hpendings] at hused
    rw [hwork]
    exact hcov hused
  | refused hi hp hq hheap hpendings hwork =>
    intro hused
    rw [hpendings] at hused
    rw [hwork]
    exact hcov (used_of_set_unused hq hused)
  | pending hi hp hq hdata hheap hpendings hwork =>
    intro _
    rw [hwork]
    exact Option.isSome_some
  | acknowledged hi hp =>
    intro hused
    exact hcov (used_of_set_unused (lib.clear_unused _) hused)
  | trans h h' ih ih' => exact ih' (ih hcov)

/-- An expiry keeps the entries covered unless it gives one up while another is in use. -/
theorem covered_retransmitRequest_iff {e : Event A} (hexpires : Expires s e) :
    Covered lib (retransmitRequest lib s) ↔ ¬ Forgets lib s e := by
  rcases retransmitRequest_cases lib s with
    ⟨hstep, hunused⟩ | ⟨i, p, hnext, hi, hp, ⟨hagain, hstep⟩ | ⟨hlast, hstep⟩⟩
  · rw [hstep]
    constructor
    · rintro _ ⟨_, i, p, _, _, _, j, q, _, hj, hq⟩
      rw [hunused q (List.mem_of_getElem? hj)] at hq
      cases hq
    · rintro _ ⟨q, hmem, hq⟩
      rw [hunused q hmem] at hq
      cases hq
  · rw [hstep]
    constructor
    · rintro _ ⟨_, i', p', hnext', hi', hlast, _⟩
      rw [hnext] at hnext'
      cases hnext'
      rw [hi] at hi'
      cases hi'
      rw [hagain] at hlast
      cases hlast
    · intro _ _
      exact Option.isSome_some
  · rw [hstep]
    obtain ⟨hlt, _⟩ := List.getElem?_eq_some_iff.mp hi
    have hothers := @used_set_unused_iff _ _ _ lib s.pendings i
      (lib.pendingClear (lib.pendingCycle p).1) hlt (lib.clear_unused _)
    constructor
    · rintro hcov ⟨_, i', p', hnext', _, _, hother⟩
      rw [hnext] at hnext'
      cases hnext'
      cases hcov (hothers.mpr hother)
    · intro hkept hused
      exact absurd ⟨hexpires, i, p, hnext, hi, hlast, hothers.mp hused⟩ hkept

theorem covered_step_iff {e : Event A} (hcov : Covered lib s) :
    Covered lib (step lib s e) ↔ ¬ Forgets lib s e := by
  rcases step_cases lib s e with ⟨_, hnot, hact⟩ | ⟨_, hnot, hstep⟩ | ⟨_, hexpires, hstep⟩
  · constructor
    · rintro _ ⟨hexpires, _⟩
      exact hnot hexpires
    · intro _
      exact hact.covered hcov
  · rw [hstep]
    constructor
    · rintro _ ⟨hexpires, _⟩
      exact hnot hexpires
    · intro _
      exact hcov
  · rw [hstep]
    exact covered_retransmitRequest_iff hexpires

/-- In every run the timer covers the entries in use exactly when no expiry gives up an entry while
another one is in use. -/
theorem always_covered_iff (es : List (Event A)) :
    Always (step lib) (Covered lib) (boot lib) es ↔
      Along (step lib) (fun s e => ¬ Forgets lib s e) (boot lib) es := by
  refine always_iff_along (I := fun _ => True) _ (fun _ _ _ => trivial) ?_ trivial ?_ es
  · intro s e _ hcov
    exact covered_step_iff hcov
  · rintro ⟨p, hmem, hp⟩
    rw [List.eq_of_mem_replicate hmem, lib.zero_unused] at hp
    cases hp

/-- Two observers register, both are notified, and the first notification is sent until it is given
up, with the second one not acknowledged. -/
def secondForgotten : List (Event Nat) :=
  let observe : Nat → Event Nat := fun addr =>
    .message { type := .con, code := 1, id := addr, path := ["obs"], observe := true } addr {}
  [observe 1, observe 2, .observerWork fun k => { nextId := 100 + k }] ++
    List.replicate 7 .retransmitWork

theorem secondForgotten_not_covered :
    ¬ Always (step zephyrLib) (Covered zephyrLib) (boot zephyrLib) secondForgotten := by
  intro h
  have hend : Covered zephyrLib (run (step zephyrLib) (boot zephyrLib) secondForgotten) :=
    h.last (step zephyrLib)
  exact absurd hend (by decide)

end CoapServer
end ZephyrSamples
