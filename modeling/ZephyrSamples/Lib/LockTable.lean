import Mathlib.Order.WellFounded
import Mathlib.Logic.Function.Basic
import Mathlib.Data.Set.Basic

/-!
# Locks and who owns them

A table of locks is a map from locks to owners.  `Lock` is a kind of lock object: what taking and
dropping it do, and which owner it stands for, so that a program's array of objects can be followed
by a table.  When every process wants only locks that come after all those it owns, no set of
processes is closed under waiting, and some process can go on.
-/

namespace ZephyrSamples
namespace LockTable

variable {P R L : Type*}

/-- A kind of lock object `L` for the processes `P`; `Rep l o` says that `l` is owned by `o`. -/
structure Lock (P L : Type*) where
  init : L
  take : P → L → Option L
  drop : P → L → L
  Rep : L → Option P → Prop
  rep_init : Rep init none
  rep_take : ∀ {p l l' o}, Rep l o → o ≠ some p → take p l = some l' →
    o = none ∧ Rep l' (some p)
  rep_blocked : ∀ {p l o}, Rep l o → take p l = none → ∃ q, o = some q
  rep_drop : ∀ {p l}, Rep l (some p) → Rep (drop p l) none

/-- The objects `locks` have the owners that `owner` says. -/
def Represents (K : Lock P L) (locks : R → L) (owner : R → Option P) : Prop :=
  ∀ r, K.Rep (locks r) (owner r)

theorem represents_init (K : Lock P L) : Represents K (fun _ : R => K.init) (fun _ => none) :=
  fun _ => K.rep_init

theorem Represents.update [DecidableEq R] {K : Lock P L} {locks : R → L} {owner : R → Option P}
    (h : Represents K locks owner) (r : R) {l : L} {o : Option P} (hl : K.Rep l o) :
    Represents K (Function.update locks r l) (Function.update owner r o) := by
  intro r'
  rcases eq_or_ne r' r with rfl | hne
  · rw [Function.update_self, Function.update_self]
    exact hl
  · rw [Function.update_of_ne hne, Function.update_of_ne hne]
    exact h r'

/-! ## Waiting -/

/-- Every member of `S` wants a lock that a member of `S` owns. -/
def Stuck (owner : R → Option P) (wants : P → Option R) (S : Set P) : Prop :=
  ∀ p ∈ S, ∃ r, wants p = some r ∧ ∃ q ∈ S, owner r = some q

/-- A process wants only locks that come after all those it owns. -/
def Ascending [LT R] (owner : R → Option P) (wants : P → Option R) : Prop :=
  ∀ p r r', wants p = some r → owner r' = some p → r' < r

/-- Take the last lock wanted in the set: its owner wants a later one. -/
theorem Ascending.not_stuck [LinearOrder R] [WellFoundedGT R] {owner : R → Option P}
    {wants : P → Option R} (h : Ascending owner wants) {S : Set P} (hS : S.Nonempty) :
    ¬ Stuck owner wants S := by
  intro hstuck
  obtain ⟨p, hp⟩ := hS
  obtain ⟨r, hr, -⟩ := hstuck p hp
  let wanted : Set R := fun r => ∃ p ∈ S, wants p = some r
  have hne : wanted.Nonempty := ⟨r, p, hp, hr⟩
  obtain ⟨last, ⟨p', hp', hlast⟩, hmax⟩ := wellFounded_gt.has_min wanted hne
  obtain ⟨r', hr', q, hq, howner⟩ := hstuck p' hp'
  obtain rfl : last = r' := Option.some_injective _ (hlast.symm.trans hr')
  obtain ⟨next, hnext, -⟩ := hstuck q hq
  have hlater : last < next := h q next last hnext howner
  exact hmax next ⟨q, hq, hnext⟩ hlater

theorem Ascending.exists_runnable [LinearOrder R] [WellFoundedGT R] [Nonempty P]
    {owner : R → Option P} {wants : P → Option R} (h : Ascending owner wants) {Runs : P → Prop}
    (hblocked : ∀ p, ¬ Runs p → ∃ r q, wants p = some r ∧ owner r = some q) : ∃ p, Runs p := by
  by_contra hnone
  have hnone' : ∀ p, ¬ Runs p := fun p hp => hnone ⟨p, hp⟩
  refine h.not_stuck Set.univ_nonempty fun p _ => ?_
  obtain ⟨r, q, hr, hq⟩ := hblocked p (hnone' p)
  exact ⟨r, hr, q, Set.mem_univ q, hq⟩

end LockTable
end ZephyrSamples
