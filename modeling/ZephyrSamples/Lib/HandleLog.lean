import Mathlib.Data.List.Basic

/-!
# Logs of handles

A log says which handles were taken, used and put back.  `Released log` says that every handle that
was taken has been put exactly once, and `Proper log` that nothing is done with a handle after it
was put.  Both hold of two logs one after the other exactly when they hold of each, if these are
about different handles.
-/

namespace ZephyrSamples
namespace HandleLog

/-- What is done with a handle; `K` are the ways to use one. -/
inductive Op (H K : Type*) where
  | get (h : H)
  | use (k : K) (h : H)
  | put (h : H)
  deriving DecidableEq

variable {H K : Type*}

namespace Op

def handle : Op H K → H
  | get h => h
  | use _ h => h
  | put h => h

def isPut : Op H K → Bool
  | put _ => true
  | _ => false

@[simp] theorem handle_get (h : H) : (get h : Op H K).handle = h := rfl

@[simp] theorem handle_use (k : K) (h : H) : (use k h : Op H K).handle = h := rfl

@[simp] theorem handle_put (h : H) : (put h : Op H K).handle = h := rfl

@[simp] theorem isPut_get (h : H) : (get h : Op H K).isPut = false := rfl

@[simp] theorem isPut_use (k : K) (h : H) : (use k h : Op H K).isPut = false := rfl

@[simp] theorem isPut_put (h : H) : (put h : Op H K).isPut = true := rfl

end Op

/-- No handle is in both logs. -/
def Apart (as bs : List (Op H K)) : Prop := ∀ a ∈ as, ∀ b ∈ bs, a.handle ≠ b.handle

/-- Nothing is done with a handle after it was put. -/
def Proper (log : List (Op H K)) : Prop :=
  log.Pairwise fun a b => a.isPut = true → b.handle ≠ a.handle

theorem proper_append {as bs : List (Op H K)} (h : Apart as bs) :
    Proper (as ++ bs) ↔ Proper as ∧ Proper bs := by
  refine List.pairwise_append.trans ⟨fun hall => ⟨hall.1, hall.2.1⟩, fun hboth => ?_⟩
  exact ⟨hboth.1, hboth.2, fun a ha b hb _ => (h a ha b hb).symm⟩

/-- As long as nothing is put, anything may be done. -/
theorem proper_append_of_unput {as bs : List (Op H K)} (h : ∀ a ∈ as, a.isPut = false)
    (hbs : Proper bs) : Proper (as ++ bs) := by
  have has : Proper as := by
    refine List.Pairwise.imp_of_mem (fun {a b} ha _ _ hput => ?_) (List.pairwise_of_forall
      (R := fun _ _ => True) fun _ _ => trivial)
    rw [h a ha] at hput
    exact absurd hput Bool.false_ne_true
  refine List.pairwise_append.mpr ⟨has, hbs, fun a ha b _ hput => ?_⟩
  rw [h a ha] at hput
  exact absurd hput Bool.false_ne_true

/-- The log uses one handle and does nothing else. -/
def Uses (h : H) (log : List (Op H K)) : Prop := ∀ op ∈ log, ∃ k, op = .use k h

section

variable {h : H} {log : List (Op H K)}

theorem uses_replicate (k : K) (h : H) (n : Nat) : Uses h (List.replicate n (.use k h)) :=
  fun _ hop => ⟨k, List.eq_of_mem_replicate hop⟩

theorem Uses.cons (k : K) (hlog : Uses h log) : Uses h (.use k h :: log) := by
  intro op hop
  rcases List.mem_cons.mp hop with rfl | hop
  · exact ⟨k, rfl⟩
  · exact hlog op hop

theorem Uses.handle (hlog : Uses h log) {op : Op H K} (hop : op ∈ log) : op.handle = h := by
  obtain ⟨k, rfl⟩ := hlog op hop
  rfl

theorem Uses.isPut (hlog : Uses h log) {op : Op H K} (hop : op ∈ log) : op.isPut = false := by
  obtain ⟨k, rfl⟩ := hlog op hop
  rfl

theorem Uses.get_notMem (hlog : Uses h log) (c : H) : Op.get c ∉ log := by
  intro hop
  obtain ⟨k, hk⟩ := hlog _ hop
  exact nomatch hk

theorem Uses.put_notMem (hlog : Uses h log) (c : H) : Op.put c ∉ log := by
  intro hop
  obtain ⟨k, hk⟩ := hlog _ hop
  exact nomatch hk

end

variable [DecidableEq H] [DecidableEq K]

/-- Every handle that was taken has been put exactly once. -/
def Released (log : List (Op H K)) : Prop := ∀ h, Op.get h ∈ log → log.count (Op.put h) = 1

omit [DecidableEq H] [DecidableEq K] in
theorem Apart.notMem {as bs : List (Op H K)} (h : Apart as bs) {a b : Op H K} (ha : a ∈ as)
    (hab : a.handle = b.handle) : b ∉ bs :=
  fun hb => h a ha b hb hab

omit [DecidableEq H] [DecidableEq K] in
theorem Apart.symm {as bs : List (Op H K)} (h : Apart as bs) : Apart bs as :=
  fun b hb a ha => (h a ha b hb).symm

theorem Uses.count_put {h : H} {log : List (Op H K)} (hlog : Uses h log) (c : H) :
    log.count (Op.put c) = 0 :=
  List.count_eq_zero_of_not_mem (hlog.put_notMem c)

theorem released_append {as bs : List (Op H K)} (h : Apart as bs) :
    Released (as ++ bs) ↔ Released as ∧ Released bs := by
  have hfirst (c : H) (hc : Op.get c ∈ as) :
      (as ++ bs).count (Op.put c) = as.count (Op.put c) := by
    have hnone : Op.put c ∉ bs := h.notMem hc rfl
    rw [List.count_append, List.count_eq_zero_of_not_mem hnone, Nat.add_zero]
  have hsecond (c : H) (hc : Op.get c ∈ bs) :
      (as ++ bs).count (Op.put c) = bs.count (Op.put c) := by
    have hnone : Op.put c ∉ as := h.symm.notMem hc rfl
    rw [List.count_append, List.count_eq_zero_of_not_mem hnone, Nat.zero_add]
  constructor
  · intro hall
    refine ⟨fun c hc => ?_, fun c hc => ?_⟩
    · rw [← hfirst c hc]
      exact hall c (List.mem_append_left bs hc)
    · rw [← hsecond c hc]
      exact hall c (List.mem_append_right as hc)
  · rintro ⟨has, hbs⟩ c hc
    rcases List.mem_append.mp hc with hc | hc
    · rw [hfirst c hc]
      exact has c hc
    · rw [hsecond c hc]
      exact hbs c hc

/-- A handle that is taken and never put is not released. -/
theorem not_released {log : List (Op H K)} {c : H} (hget : Op.get c ∈ log)
    (hput : Op.put c ∉ log) : ¬ Released log := by
  intro h
  have hone := h c hget
  rw [List.count_eq_zero_of_not_mem hput] at hone
  exact absurd hone Nat.zero_ne_one

end HandleLog
end ZephyrSamples
