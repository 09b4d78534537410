import Mathlib.Data.List.Nodup
import Mathlib.Data.List.Perm.Basic
import Mathlib.Data.Option.Basic
import Mathlib.Logic.Function.Basic

/-!
# Blocks that change hands

A map from blocks to the party that has them, `none` for a free block.  `Owns p owner bs` says that
`bs` are exactly the blocks of `p`, and `Holds p owner xs` that they are in the variables `xs`, one
in each: what a program has at a place of its code.  The rules of both are those of taking a block,
handing one on, and of others exchanging theirs. -/

namespace ZephyrSamples
namespace Custody

variable {B P : Type*} [DecidableEq B] {p : P} {owner : B → Option P} {bs : List B} {b : B}
  {o : Option P}

/-- The blocks of `p` are those of the list. -/
def Owns (p : P) (owner : B → Option P) (bs : List B) : Prop := ∀ b, owner b = some p ↔ b ∈ bs

omit [DecidableEq B] in
theorem Owns.congr {bs' : List B} (h : Owns p owner bs) (hbs : ∀ b, b ∈ bs ↔ b ∈ bs') :
    Owns p owner bs' :=
  fun b => (h b).trans (hbs b)

omit [DecidableEq B] in
theorem Owns.mem (h : Owns p owner bs) (hb : b ∈ bs) : owner b = some p := (h b).mpr hb

omit [DecidableEq B] in
theorem Owns.notMem (h : Owns p owner bs) (hb : owner b ≠ some p) : b ∉ bs :=
  fun hmem => hb (h.mem hmem)

theorem Owns.take (h : Owns p owner bs) (b : B) :
    Owns p (Function.update owner b (some p)) (b :: bs) := by
  intro b'
  rcases eq_or_ne b' b with rfl | hne
  · simp
  · rw [Function.update_of_ne hne, h b', List.mem_cons]
    exact (or_iff_right hne).symm

theorem Owns.take_last (h : Owns p owner bs) (b : B) :
    Owns p (Function.update owner b (some p)) (bs ++ [b]) :=
  (h.take b).congr fun b' => by rw [List.mem_cons, List.mem_append, List.mem_singleton, or_comm]

theorem Owns.give (h : Owns p owner (b :: bs)) (hb : b ∉ bs) (ho : o ≠ some p) :
    Owns p (Function.update owner b o) bs := by
  intro b'
  rcases eq_or_ne b' b with rfl | hne
  · rw [Function.update_self]
    exact ⟨fun h => absurd h ho, fun h => absurd h hb⟩
  · rw [Function.update_of_ne hne, h b', List.mem_cons]
    exact or_iff_right hne

theorem Owns.elsewhere (h : Owns p owner bs) (hb : owner b ≠ some p) (ho : o ≠ some p) :
    Owns p (Function.update owner b o) bs := by
  intro b'
  rcases eq_or_ne b' b with rfl | hne
  · rw [Function.update_self]
    exact ⟨fun h => absurd h ho, fun hmem => absurd (h.mem hmem) hb⟩
  · rw [Function.update_of_ne hne]
    exact h b'

/-- A block changes hands, and all others stay where they are. -/
theorem owns_moved {bs bs' : P → List B} (h : ∀ p, Owns p owner (bs p)) (b : B) (o : Option P)
    (hmem : ∀ p, b ∈ bs' p ↔ o = some p) (hrest : ∀ p c, c ≠ b → (c ∈ bs' p ↔ c ∈ bs p)) :
    ∀ p, Owns p (Function.update owner b o) (bs' p) := by
  intro p c
  rcases eq_or_ne c b with rfl | hne
  · rw [Function.update_self]
    exact (hmem p).symm
  · rw [Function.update_of_ne hne, h p c]
    exact (hrest p c hne).symm

/-- The variables hold the blocks of `p`, one each, and `p` has no others. -/
def Holds (p : P) (owner : B → Option P) (xs : List (Option B)) : Prop :=
  ∃ bs : List B, xs = bs.map some ∧ bs.Nodup ∧ Owns p owner bs

section Holds

variable {xs : List (Option B)} {x : Option B}

omit [DecidableEq B] in
theorem holds_nil : Holds p owner [] ↔ ∀ b, owner b ≠ some p := by
  constructor
  · rintro ⟨bs, hbs, -, howns⟩ b hb
    rw [List.map_eq_nil_iff.mp hbs.symm] at howns
    exact absurd ((howns b).mp hb) List.not_mem_nil
  · intro h
    exact ⟨[], rfl, List.nodup_nil, fun b => ⟨fun hb => absurd hb (h b), fun hb => (nomatch hb)⟩⟩

omit [DecidableEq B] in
theorem Holds.some_of_mem (h : Holds p owner xs) (hx : x ∈ xs) :
    ∃ b, x = some b ∧ owner b = some p := by
  obtain ⟨bs, rfl, -, howns⟩ := h
  obtain ⟨b, hb, rfl⟩ := List.mem_map.mp hx
  exact ⟨b, rfl, howns.mem hb⟩

omit [DecidableEq B] in
theorem Holds.nodup (h : Holds p owner xs) : xs.Nodup := by
  obtain ⟨bs, rfl, hnodup, -⟩ := h
  exact hnodup.map (Option.some_injective B)

omit [DecidableEq B] in
theorem Holds.perm {ys : List (Option B)} (h : Holds p owner xs) (hperm : xs.Perm ys) :
    Holds p owner ys := by
  obtain ⟨bs, rfl, hnodup, howns⟩ := h
  have hys : ∃ bs' : List B, ys = bs'.map some ∧ bs'.Perm bs := by
    have hcomp := congrFun (congrFun (List.eq_map_comp_perm (some : B → Option B)) ys) bs
    exact hcomp.mpr hperm.symm
  obtain ⟨bs', hys, hbs⟩ := hys
  exact ⟨bs', hys, hbs.nodup_iff.mpr hnodup, howns.congr fun b => hbs.mem_iff.symm⟩

theorem Holds.gets (h : Holds p owner xs) (hb : owner b ≠ some p) :
    Holds p (Function.update owner b (some p)) (xs ++ [some b]) := by
  obtain ⟨bs, rfl, hnodup, howns⟩ := h
  have hnew : b ∉ bs := howns.notMem hb
  refine ⟨bs ++ [b], ?_, ?_, howns.take_last b⟩
  · rw [List.map_append, List.map_singleton]
  · exact List.nodup_append.mpr ⟨hnodup, by simp, by grind⟩

theorem Holds.gives (h : Holds p owner (some b :: xs)) (ho : o ≠ some p) :
    Holds p (Function.update owner b o) xs := by
  obtain ⟨bs, hbs, hnodup, howns⟩ := h
  obtain ⟨b', bs, rfl, hb, hrest⟩ := List.map_eq_cons_iff.mp hbs.symm
  obtain rfl := Option.some.inj hb
  have hnew := List.nodup_cons.mp hnodup
  exact ⟨bs, hrest.symm, hnew.2, howns.give hnew.1 ho⟩

theorem Holds.elsewhere (h : Holds p owner xs) (hb : owner b ≠ some p) (ho : o ≠ some p) :
    Holds p (Function.update owner b o) xs := by
  obtain ⟨bs, hxs, hnodup, howns⟩ := h
  exact ⟨bs, hxs, hnodup, howns.elsewhere hb ho⟩

end Holds

theorem keeps_of_ne {b' : B} (h : owner b' = some p) (hne : b' ≠ b) :
    Function.update owner b o b' = some p := by
  rwa [Function.update_of_ne hne]

end Custody
end ZephyrSamples
