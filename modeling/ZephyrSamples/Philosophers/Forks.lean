import ZephyrSamples.Lib.LockTable

/-!
# Forks

Semaphores and mutexes as the fork objects of `phil_obj_abstract.h`, with what `take` and `drop` do
to them.  A take that returns `none` blocks.
-/

namespace ZephyrSamples
namespace Philosophers

open LockTable

/-- `struct k_sem` with the limit 1 that `fork_init` gives it. -/
structure KSem where
  count : Nat
  deriving DecidableEq, Repr

def kSemTake (x : KSem) : Option KSem :=
  if 0 < x.count then some ⟨x.count - 1⟩ else none

def kSemGive (x : KSem) : KSem := ⟨min (x.count + 1) 1⟩

/-- `struct k_mutex`: it can be locked again by its owner. -/
structure KMutex (P : Type) where
  owner : Option P
  lockCount : Nat
  deriving DecidableEq, Repr

/-- How often a lock with this owner is taken. -/
def timesTaken {Q : Type} : Option Q → Nat
  | none => 0
  | some _ => 1

variable {P : Type} [DecidableEq P]

def kMutexLock (me : P) (x : KMutex P) : Option (KMutex P) :=
  if x.lockCount = 0 ∨ x.owner = some me then some ⟨some me, x.lockCount + 1⟩ else none

def kMutexUnlock (me : P) (x : KMutex P) : KMutex P :=
  if x.owner = some me then
    if x.lockCount - 1 = 0 then ⟨none, 0⟩ else ⟨some me, x.lockCount - 1⟩
  else x

def semaphores (P : Type) [DecidableEq P] : Lock P KSem where
  init := ⟨1⟩
  take _ x := kSemTake x
  drop _ x := kSemGive x
  Rep x o := x.count + timesTaken o = 1
  rep_init := rfl
  rep_take := by
    intro p x x' o hrep _ htake
    unfold kSemTake at htake
    split at htake
    · next hpos =>
      obtain rfl := Option.some_injective _ htake
      cases o with
      | none =>
        have hone : x.count + 0 = 1 := hrep
        refine ⟨rfl, ?_⟩
        show x.count - 1 + 1 = 1
        omega
      | some q =>
        have htaken : x.count + 1 = 1 := hrep
        omega
    · cases htake
  rep_blocked := by
    intro p x o hrep htake
    unfold kSemTake at htake
    split at htake
    · cases htake
    · cases o with
      | none =>
        have hfree : x.count + 0 = 1 := hrep
        omega
      | some q => exact ⟨q, rfl⟩
  rep_drop := by
    intro p x hrep
    have htaken : x.count + 1 = 1 := hrep
    show min (x.count + 1) 1 + 0 = 1
    omega

def mutexes (P : Type) [DecidableEq P] : Lock P (KMutex P) where
  init := ⟨none, 0⟩
  take := kMutexLock
  drop := kMutexUnlock
  Rep x o := x.owner = o ∧ x.lockCount = timesTaken o
  rep_init := ⟨rfl, rfl⟩
  rep_take := by
    rintro p x x' o ⟨howner, hcount⟩ hother htake
    unfold kMutexLock at htake
    split at htake
    · next hfree =>
      obtain rfl := Option.some_injective _ htake
      cases o with
      | none => exact ⟨rfl, rfl, congrArg (· + 1) hcount⟩
      | some q =>
        rw [howner, hcount] at hfree
        rcases hfree with hzero | hme
        · cases hzero
        · exact absurd hme hother
    · cases htake
  rep_blocked := by
    rintro p x o ⟨-, hcount⟩ htake
    unfold kMutexLock at htake
    split at htake
    · cases htake
    · next hbusy =>
      cases o with
      | none => exact absurd (Or.inl hcount) hbusy
      | some q => exact ⟨q, rfl⟩
  rep_drop := by
    rintro p x ⟨howner, hcount⟩
    have htaken : x.lockCount = 1 := hcount
    have hlast : x.lockCount - 1 = 0 := by omega
    unfold kMutexUnlock
    rw [if_pos howner, if_pos hlast]
    exact ⟨rfl, rfl⟩

/-- `FORKS`: the object type the demo is built with. -/
inductive ForkType where
  | semaphores
  | mutexes
  deriving DecidableEq, Repr

namespace ForkType

/-- `fork_obj_t` -/
def ForkObj (P : Type) : ForkType → Type
  | .semaphores => KSem
  | .mutexes => KMutex P

def lock (P : Type) [DecidableEq P] : (t : ForkType) → Lock P (t.ForkObj P)
  | .semaphores => Philosophers.semaphores P
  | .mutexes => Philosophers.mutexes P

end ForkType

end Philosophers
end ZephyrSamples
