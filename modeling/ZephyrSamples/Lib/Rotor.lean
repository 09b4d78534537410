import Mathlib.Algebra.Group.Units.Equiv
import Mathlib.Logic.Function.Iterate

/-!
# Rotor ciphers

A rotor is a permutation of a group of positions, turned by an offset.  A signal that passes rotors,
a reflector that is its own inverse, and the rotors backwards has been mapped by an involution,
`reflected_involutive`.  `Reciprocal` is what such a machine gives a cipher whose state advances
from letter to letter, and `encipher_encipher` what it gives for whole texts: enciphering twice from
one state is the identity. -/

namespace ZephyrSamples
namespace Rotor

section Positions

variable {G : Type*} [AddGroup G]

/-- The permutation read at positions that are shifted by `k`. -/
def turned (k : G) (p : Equiv.Perm G) : Equiv.Perm G :=
  (Equiv.addRight k).trans (p.trans (Equiv.addRight k).symm)

theorem turned_apply (k : G) (p : Equiv.Perm G) (x : G) : turned k p x = p (x + k) - k := by
  rw [sub_eq_add_neg]
  rfl

end Positions

variable {α σ : Type*}

/-- A permutation, a reflector and the permutation backwards. -/
def reflected (r : α → α) (p : Equiv.Perm α) (x : α) : α := p.symm (r (p x))

theorem reflected_involutive {r : α → α} (hr : Function.Involutive r) (p : Equiv.Perm α) :
    Function.Involutive (reflected r p) := by
  intro x
  rw [reflected, reflected, Equiv.apply_symm_apply, hr, Equiv.symm_apply_apply]

/-! ## Texts -/

variable (enc : σ → α → α × σ)

/-- A text, letter by letter, and the state after it. -/
def encipher : σ → List α → List α × σ
  | s, [] => ([], s)
  | s, a :: as =>
    let (b, s) := enc s a
    let (bs, s) := encipher s as
    (b :: bs, s)

@[simp] theorem encipher_nil (s : σ) : encipher enc s [] = ([], s) := rfl

@[simp] theorem encipher_cons (s : σ) (a : α) (as : List α) :
    encipher enc s (a :: as) =
      ((enc s a).1 :: (encipher enc (enc s a).2 as).1, (encipher enc (enc s a).2 as).2) := rfl

/-- In a state that is `ready`, a letter advances the state whatever letter it is, and the output is
a letter that the same state takes back to it. -/
structure Reciprocal (next : σ → σ) (ready : σ → Prop) (letter : α → Prop) : Prop where
  advance : ∀ s a, ready s → letter a → (enc s a).2 = next s
  ready_next : ∀ s, ready s → ready (next s)
  letter_out : ∀ s a, ready s → letter a → letter (enc s a).1
  take_back : ∀ s a, ready s → letter a → (enc s (enc s a).1).1 = a

namespace Reciprocal

variable {enc} {next : σ → σ} {ready : σ → Prop} {letter : α → Prop}
  (h : Reciprocal enc next ready letter)

include h

/-- The state after a text depends on its length only. -/
theorem encipher_state {s : σ} (hs : ready s) {as : List α} (has : ∀ a ∈ as, letter a) :
    (encipher enc s as).2 = next^[as.length] s := by
  induction as generalizing s with
  | nil => rfl
  | cons a as ih =>
    have ha : letter a := has a List.mem_cons_self
    rw [encipher_cons, h.advance s a hs ha, List.length_cons, Function.iterate_succ_apply]
    exact ih (h.ready_next s hs) fun b hb => has b (List.mem_cons_of_mem _ hb)

theorem encipher_letters {s : σ} (hs : ready s) {as : List α} (has : ∀ a ∈ as, letter a) :
    ∀ b ∈ (encipher enc s as).1, letter b := by
  induction as generalizing s with
  | nil =>
    intro b hb
    cases hb
  | cons a as ih =>
    have ha : letter a := has a List.mem_cons_self
    intro b hb
    rw [encipher_cons, h.advance s a hs ha] at hb
    rcases List.mem_cons.mp hb with rfl | hb
    · exact h.letter_out s a hs ha
    · exact ih (h.ready_next s hs) (fun c hc => has c (List.mem_cons_of_mem _ hc)) b hb

theorem encipher_encipher {s : σ} (hs : ready s) {as : List α} (has : ∀ a ∈ as, letter a) :
    (encipher enc s (encipher enc s as).1).1 = as := by
  induction as generalizing s with
  | nil => rfl
  | cons a as ih =>
    have ha : letter a := has a List.mem_cons_self
    rw [encipher_cons, encipher_cons, h.take_back s a hs ha, h.advance s a hs ha,
      h.advance s _ hs (h.letter_out s a hs ha)]
    rw [ih (h.ready_next s hs) fun b hb => has b (List.mem_cons_of_mem _ hb)]

end Reciprocal

end Rotor
end ZephyrSamples
