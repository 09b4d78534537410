import Mathlib.Logic.Function.Basic

/-!
# Two parties and the messages between them

A `Duplex` is two parties of one type and, for each, the messages sent to it and not yet delivered,
oldest first.  A party that acts is replaced and appends what it says to the other inbox; a party
that is delivered to is replaced and loses the head of its own.  What the two parties hold and the
messages carry is counted by `total`, and `Every` is an invariant of parties and messages that each
of the two moves keeps.
-/

namespace ZephyrSamples

inductive Side
  | left
  | right
deriving DecidableEq

namespace Side

def other : Side → Side
  | left => right
  | right => left

@[simp] theorem other_ne (s : Side) : s.other ≠ s := by
  cases s <;> decide

@[simp] theorem ne_other (s : Side) : s ≠ s.other := s.other_ne.symm

theorem eq_or_eq_other (s t : Side) : t = s ∨ t = s.other := by
  cases s <;> cases t <;> decide

end Side

structure Duplex (σ μ : Type*) where
  party : Side → σ
  inbox : Side → List μ

namespace Duplex

variable {σ μ : Type*}

/-- Something that happens to both parties at once. -/
def both (d : Duplex σ μ) (f : σ → σ) : Duplex σ μ :=
  { d with party := fun s => f (d.party s) }

/-- The party `s` becomes `a` and sends `out`. -/
def speak (d : Duplex σ μ) (s : Side) (a : σ) (out : List μ) : Duplex σ μ :=
  { party := Function.update d.party s a
    inbox := Function.update d.inbox s.other (d.inbox s.other ++ out) }

/-- The party `s` becomes `a` on being handed its oldest message. -/
def hear (d : Duplex σ μ) (s : Side) (a : σ) : Duplex σ μ :=
  { party := Function.update d.party s a
    inbox := Function.update d.inbox s (d.inbox s).tail }

@[simp] theorem both_party (d : Duplex σ μ) (f : σ → σ) (s : Side) :
    (d.both f).party s = f (d.party s) := rfl

@[simp] theorem both_inbox (d : Duplex σ μ) (f : σ → σ) : (d.both f).inbox = d.inbox := rfl

section Count

variable (hold : σ → Nat) (carry : μ → Nat)

def load : List μ → Nat
  | [] => 0
  | m :: ms => carry m + load ms

@[simp] theorem load_nil : load carry [] = 0 := rfl

@[simp] theorem load_cons (m : μ) (ms : List μ) :
    load carry (m :: ms) = carry m + load carry ms := rfl

theorem load_append (xs ys : List μ) :
    load carry (xs ++ ys) = load carry xs + load carry ys := by
  induction xs with
  | nil => simp
  | cons m xs ih =>
    rw [List.cons_append, load_cons, load_cons, ih]
    omega

theorem load_eq_zero {ms : List μ} : load carry ms = 0 ↔ ∀ m ∈ ms, carry m = 0 := by
  induction ms with
  | nil => simp
  | cons m ms ih =>
    rw [load_cons, Nat.add_eq_zero_iff, ih, List.forall_mem_cons]

/-- What is not held by the party `s`: what the other one holds and what is in flight. -/
def elsewhere (d : Duplex σ μ) (s : Side) : Nat :=
  hold (d.party s.other) + (load carry (d.inbox s) + load carry (d.inbox s.other))

def total (d : Duplex σ μ) : Nat :=
  hold (d.party .left) + hold (d.party .right) +
    (load carry (d.inbox .left) + load carry (d.inbox .right))

theorem total_eq (d : Duplex σ μ) (s : Side) :
    d.total hold carry = hold (d.party s) + d.elsewhere hold carry s := by
  cases s <;> simp only [total, elsewhere, Side.other] <;> omega

theorem elsewhere_eq_zero {d : Duplex σ μ} {s : Side} :
    d.elsewhere hold carry s = 0 ↔
      hold (d.party s.other) = 0 ∧ ∀ t, ∀ m ∈ d.inbox t, carry m = 0 := by
  simp only [elsewhere, Nat.add_eq_zero_iff, load_eq_zero]
  refine and_congr_right fun _ => ⟨?_, fun h => ⟨h s, h s.other⟩⟩
  rintro ⟨hs, ho⟩ t
  rcases s.eq_or_eq_other t with rfl | rfl
  · exact hs
  · exact ho

theorem elsewhere_speak (d : Duplex σ μ) (s : Side) (a : σ) (out : List μ) :
    (d.speak s a out).elsewhere hold carry s =
      d.elsewhere hold carry s + load carry out := by
  simp only [elsewhere, speak, Function.update_self, Function.update_of_ne s.other_ne,
    Function.update_of_ne s.ne_other, load_append]
  omega

theorem elsewhere_hear {d : Duplex σ μ} {s : Side} {m : μ} {rest : List μ}
    (hm : d.inbox s = m :: rest) (a : σ) :
    (d.hear s a).elsewhere hold carry s + carry m = d.elsewhere hold carry s := by
  simp only [elsewhere, hear, Function.update_self, Function.update_of_ne s.other_ne, hm,
    List.tail_cons, load_cons]
  omega

/-- A party that holds and sends no more than it held adds nothing. -/
theorem total_speak_le {d : Duplex σ μ} {s : Side} {a : σ} {out : List μ}
    (h : hold a + load carry out ≤ hold (d.party s)) :
    (d.speak s a out).total hold carry ≤ d.total hold carry := by
  have hself : (d.speak s a out).party s = a := Function.update_self ..
  rw [total_eq hold carry _ s, total_eq hold carry d s, elsewhere_speak, hself]
  omega

/-- A party that holds no more than it held and was handed adds nothing. -/
theorem total_hear_le {d : Duplex σ μ} {s : Side} {a : σ} {m : μ} {rest : List μ}
    (hm : d.inbox s = m :: rest) (h : hold a ≤ hold (d.party s) + carry m) :
    (d.hear s a).total hold carry ≤ d.total hold carry := by
  have hself : (d.hear s a).party s = a := Function.update_self ..
  have hrest := elsewhere_hear hold carry hm a
  rw [total_eq hold carry _ s, total_eq hold carry d s, hself]
  omega

theorem total_both {d : Duplex σ μ} {f : σ → σ} (hf : ∀ a, hold (f a) = hold a) :
    (d.both f).total hold carry = d.total hold carry := by
  simp only [total, both_party, both_inbox, hf]

end Count

/-- `I` holds of both parties and `M` of every message in flight. -/
structure Every (I : σ → Prop) (M : μ → Prop) (d : Duplex σ μ) : Prop where
  party : ∀ s, I (d.party s)
  inbox : ∀ s, ∀ m ∈ d.inbox s, M m

namespace Every

variable {I : σ → Prop} {M : μ → Prop} {d : Duplex σ μ}

theorem both (h : d.Every I M) {f : σ → σ} (hf : ∀ a, I a → I (f a)) : (d.both f).Every I M :=
  ⟨fun s => hf _ (h.party s), h.inbox⟩

theorem speak (h : d.Every I M) {s : Side} {a : σ} {out : List μ} (ha : I a)
    (hout : ∀ m ∈ out, M m) : (d.speak s a out).Every I M := by
  constructor
  · intro t
    rcases eq_or_ne t s with rfl | ht
    · simpa only [Duplex.speak, Function.update_self] using ha
    · simpa only [Duplex.speak, Function.update_of_ne ht] using h.party t
  · intro t m hm
    rcases eq_or_ne t s.other with rfl | ht
    · simp only [Duplex.speak, Function.update_self, List.mem_append] at hm
      exact hm.elim (h.inbox _ m) (hout m)
    · simp only [Duplex.speak, Function.update_of_ne ht] at hm
      exact h.inbox t m hm

theorem hear (h : d.Every I M) {s : Side} {a : σ} (ha : I a) : (d.hear s a).Every I M := by
  constructor
  · intro t
    rcases eq_or_ne t s with rfl | ht
    · simpa only [Duplex.hear, Function.update_self] using ha
    · simpa only [Duplex.hear, Function.update_of_ne ht] using h.party t
  · intro t m hm
    rcases eq_or_ne t s with rfl | ht
    · simp only [Duplex.hear, Function.update_self] at hm
      exact h.inbox _ m (List.mem_of_mem_tail hm)
    · simp only [Duplex.hear, Function.update_of_ne ht] at hm
      exact h.inbox t m hm

end Every

end Duplex
end ZephyrSamples
