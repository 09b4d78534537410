import ZephyrSamples.Lib.Rotor
import Mathlib.Algebra.Group.Fin.Basic
import Mathlib.Algebra.Group.Nat.Defs
import Mathlib.Data.Fintype.EquivFin
import Mathlib.Data.Fin.Basic

/-!
# The enigma model of `shared_mem`

`enc.c`: three wheels with their reverse paths, a reflector and the wheel indexes.  When the wheels
are permutations, their reverse paths come from `calc_rev_wheel` and the reflector is its own
inverse, `enig_enc` is a rotor cipher in the sense of `Lib.Rotor`, and its wheel indexes count the
letters in base 26.
-/

namespace ZephyrSamples
namespace SharedMem

open Rotor

/-- `BYTE W1[26]`. -/
abbrev Wheel := Fin 26 → Nat

/-- `IMOD`, as an index of a wheel. -/
def imod (a b : Nat) : Fin 26 := Fin.ofNat 26 (a + b)

/-- The variables of `enc.c`. -/
structure Enigma where
  w1 : Wheel
  w2 : Wheel
  w3 : Wheel
  r : Wheel
  w1r : Wheel
  w2r : Wheel
  w3r : Wheel
  iw1 : Nat
  iw2 : Nat
  iw3 : Nat

/-- `char_to_index`, with `-1` for what is not in a-z. -/
def charToIndex (c : UInt8) : Int :=
  if c.toNat < 97 ∨ 122 < c.toNat then -1 else c.toNat - 97

def indexToChar (i : Int) : UInt8 :=
  if i < 0 ∨ 25 < i then 0xFF else UInt8.ofNat (97 + i.toNat)

/-- The loop of `calc_rev_wheel` over the indexes that are left. -/
def calcRevFrom (wheel : Wheel) : List (Fin 26) → Wheel → Int × Wheel
  | [], backpath => (1, backpath)
  | i :: is, backpath =>
    if h : wheel i < 26 then
      calcRevFrom wheel is (Function.update backpath ⟨wheel i, h⟩ i)
    else (-1, backpath)

/-- The result of `calc_rev_wheel` and the reverse path it leaves. -/
def calcRevWheel (wheel backpath : Wheel) : Int × Wheel :=
  calcRevFrom wheel (List.finRange 26) backpath

/-- One wheel: `(W[IMOD(IW, tmpIndex)] + WHEEL_SIZE - IW) % WHEEL_SIZE`. -/
def pass (w : Wheel) (iw t : Nat) : Fin 26 := Fin.ofNat 26 (w (imod iw t) + 26 - iw)

namespace Enigma

variable (m : Enigma)

def updateWheelIndex : Enigma :=
  let m := { m with iw1 := m.iw1 + 1 }
  let m := if 26 ≤ m.iw1 then { m with iw1 := m.iw1 % 26, iw2 := m.iw2 + 1 } else m
  let m := if 26 ≤ m.iw2 then { m with iw2 := m.iw2 % 26, iw3 := m.iw3 + 1 } else m
  if 26 ≤ m.iw3 then { m with iw3 := m.iw3 % 26 } else m

/-- `tmpIndex` from the index of the letter to that of the result. -/
def scramble (t : Nat) : Fin 26 :=
  let t := pass m.w1 m.iw1 t
  let t := pass m.w2 m.iw2 t
  let t := pass m.w3 m.iw3 t
  let t := m.r t
  let t := pass m.w3r m.iw3 t
  let t := pass m.w2r m.iw2 t
  pass m.w1r m.iw1 t

def enigEnc (pt : UInt8) : UInt8 × Enigma :=
  let t := charToIndex pt
  if t = -1 then (0xFF, m)
  else (indexToChar (m.scramble t.toNat : Nat), m.updateWheelIndex)

end Enigma

/-! ## Letters -/

def Letter (c : UInt8) : Prop := 97 ≤ c.toNat ∧ c.toNat ≤ 122

instance (c : UInt8) : Decidable (Letter c) := inferInstanceAs (Decidable (_ ∧ _))

theorem toNat_indexToChar (x : Fin 26) : (indexToChar (x : Nat)).toNat = 97 + x := by
  have hlt := x.isLt
  rw [indexToChar, if_neg (by omega), Int.toNat_natCast, UInt8.toNat_ofNat']
  omega

theorem letter_indexToChar (x : Fin 26) : Letter (indexToChar (x : Nat)) := by
  have hlt := x.isLt
  rw [Letter, toNat_indexToChar]
  omega

theorem charToIndex_indexToChar (x : Fin 26) : charToIndex (indexToChar (x : Nat)) = (x : Nat) := by
  have hlt := x.isLt
  rw [charToIndex, toNat_indexToChar, if_neg (by omega)]
  omega

theorem charToIndex_of_not_letter {c : UInt8} (h : ¬ Letter c) : charToIndex c = -1 := by
  refine if_pos ?_
  unfold Letter at h
  omega

theorem exists_index {c : UInt8} (h : Letter c) : ∃ x : Fin 26, c = indexToChar (x : Nat) := by
  obtain ⟨hlow, hhigh⟩ := h
  refine ⟨⟨c.toNat - 97, by omega⟩, UInt8.toNat_inj.mp ?_⟩
  rw [toNat_indexToChar]
  show c.toNat = 97 + (c.toNat - 97)
  omega

/-! ## Wheels as permutations -/

/-- The entries of a wheel are a permutation of 0, …, 25. -/
def Permutes (w : Wheel) : Prop := (∀ i, w i < 26) ∧ Function.Injective w

instance (w : Wheel) : Decidable (Permutes w) := inferInstanceAs (Decidable (_ ∧ _))

noncomputable def Permutes.perm {w : Wheel} (h : Permutes w) : Equiv.Perm (Fin 26) :=
  Equiv.ofBijective (fun i => ⟨w i, h.1 i⟩) <|
    Finite.injective_iff_bijective.mp fun _ _ hij => h.2 (Fin.mk.inj_iff.mp hij)

theorem Permutes.apply_eq {w : Wheel} (h : Permutes w) (i : Fin 26) : w i = (h.perm i : Nat) := rfl

/-- The loop stores `i` at the entry of the wheel at `i`, for the indexes it runs over. -/
theorem calcRevFrom_spec {wheel : Wheel} (h : Permutes wheel) (is : List (Fin 26))
    (backpath : Wheel) :
    (calcRevFrom wheel is backpath).1 = 1 ∧
      (∀ i ∈ is, (calcRevFrom wheel is backpath).2 (h.perm i) = i) ∧
      ∀ x, (∀ i ∈ is, h.perm i ≠ x) → (calcRevFrom wheel is backpath).2 x = backpath x := by
  induction is generalizing backpath with
  | nil =>
    refine ⟨rfl, ?_, fun x _ => rfl⟩
    intro i hi
    cases hi
  | cons i is ih =>
    have hstep : calcRevFrom wheel (i :: is) backpath =
        calcRevFrom wheel is (Function.update backpath (h.perm i) i) := dif_pos (h.1 i)
    obtain ⟨hone, hstored, hframe⟩ := ih (Function.update backpath (h.perm i) i)
    rw [hstep]
    refine ⟨hone, ?_, ?_⟩
    · intro j hj
      by_cases hmem : j ∈ is
      · exact hstored j hmem
      · obtain rfl : j = i := (List.mem_cons.mp hj).resolve_right hmem
        rw [hframe (h.perm j) ?_, Function.update_self]
        intro k hk hkj
        exact hmem (h.perm.injective hkj ▸ hk)
    · intro x hx
      rw [hframe x fun j hj => hx j (List.mem_cons_of_mem _ hj)]
      exact Function.update_of_ne (Ne.symm (hx i List.mem_cons_self)) _ _

theorem calcRevWheel_eq {wheel : Wheel} (h : Permutes wheel) (backpath : Wheel) :
    calcRevWheel wheel backpath = (1, fun x => (h.perm.symm x : Nat)) := by
  obtain ⟨hone, hstored, _⟩ := calcRevFrom_spec h (List.finRange 26) backpath
  refine Prod.ext hone (funext fun x => ?_)
  have hx := hstored (h.perm.symm x) (List.mem_finRange _)
  rw [Equiv.apply_symm_apply] at hx
  exact hx

/-- A pass of a wheel is its permutation turned by the wheel index. -/
theorem pass_eq_turned {w : Wheel} {p : Equiv.Perm (Fin 26)} (hw : ∀ i, w i = (p i : Nat))
    {iw : Nat} (hiw : iw < 26) (x : Fin 26) : pass w iw x = turned ⟨iw, hiw⟩ p x := by
  have himod : imod iw x = x + ⟨iw, hiw⟩ := by
    refine Fin.ext ?_
    rw [Fin.val_add, Nat.add_comm]
    rfl
  rw [turned_apply, ← himod]
  refine Fin.ext ?_
  have hlt := (p (imod iw x)).isLt
  rw [Fin.sub_def, pass, hw]
  show ((p (imod iw x) : Nat) + 26 - iw) % 26 = (26 - iw + (p (imod iw x) : Nat)) % 26
  congr 1
  omega

/-! ## The machine -/

namespace Enigma

def setWheels (m : Enigma) (iw1 iw2 iw3 : Nat) : Enigma :=
  { m with iw1 := iw1, iw2 := iw2, iw3 := iw3 }

/-- The wheel indexes as a number in base 26. -/
def position (m : Enigma) : Nat := m.iw3 * 26 ^ 2 + m.iw2 * 26 + m.iw1

/-- The wheels are permutations, their reverse paths are what `calc_rev_wheel` leaves, the reflector
is its own inverse, and the wheel indexes are in range. -/
structure Ready (m : Enigma) : Prop where
  w1 : Permutes m.w1
  w2 : Permutes m.w2
  w3 : Permutes m.w3
  w1r : ∃ backpath, calcRevWheel m.w1 backpath = (1, m.w1r)
  w2r : ∃ backpath, calcRevWheel m.w2 backpath = (1, m.w2r)
  w3r : ∃ backpath, calcRevWheel m.w3 backpath = (1, m.w3r)
  r : ∀ i : Fin 26, ∃ j : Fin 26, m.r i = j ∧ m.r j = i
  iw1 : m.iw1 < 26
  iw2 : m.iw2 < 26
  iw3 : m.iw3 < 26

variable {m : Enigma}

theorem reverse_eq {w wr : Wheel} (h : Permutes w)
    (hr : ∃ backpath, calcRevWheel w backpath = (1, wr)) (x : Fin 26) :
    wr x = (h.perm.symm x : Nat) := by
  obtain ⟨backpath, hback⟩ := hr
  rw [calcRevWheel_eq h] at hback
  exact (congrFun (Prod.mk.inj hback).2 x).symm

/-- The way through the machine is three turned wheels, a reflector and the
same wheels backwards. -/
theorem Ready.scramble_eq (h : m.Ready) :
    ∃ (r : Fin 26 → Fin 26) (p : Equiv.Perm (Fin 26)), Function.Involutive r ∧
      ∀ x : Fin 26, m.scramble x = reflected r p x := by
  choose r hr using h.r
  let p1 := turned ⟨m.iw1, h.iw1⟩ h.w1.perm
  let p2 := turned ⟨m.iw2, h.iw2⟩ h.w2.perm
  let p3 := turned ⟨m.iw3, h.iw3⟩ h.w3.perm
  refine ⟨r, p1.trans (p2.trans p3), ?_, fun x => ?_⟩
  · intro i
    refine Fin.ext ?_
    rw [← (hr (r i)).1, (hr i).2]
  · simp only [scramble, pass_eq_turned h.w1.apply_eq h.iw1, pass_eq_turned h.w2.apply_eq h.iw2,
      pass_eq_turned h.w3.apply_eq h.iw3, (hr _).1,
      pass_eq_turned (reverse_eq h.w1 h.w1r) h.iw1, pass_eq_turned (reverse_eq h.w2 h.w2r) h.iw2,
      pass_eq_turned (reverse_eq h.w3 h.w3r) h.iw3]
    rfl

theorem Ready.scramble_scramble (h : m.Ready) (x : Fin 26) : m.scramble (m.scramble x) = x := by
  obtain ⟨r, p, hr, hscramble⟩ := h.scramble_eq
  rw [hscramble, hscramble]
  exact reflected_involutive hr p x

theorem enigEnc_index (m : Enigma) (x : Fin 26) :
    m.enigEnc (indexToChar (x : Nat)) = (indexToChar (m.scramble x : Nat), m.updateWheelIndex) := by
  have hne : ¬ ((x : Nat) : Int) = -1 := by omega
  simp only [enigEnc, charToIndex_indexToChar, if_neg hne, Int.toNat_natCast]

theorem enigEnc_of_not_letter (m : Enigma) {c : UInt8} (h : ¬ Letter c) :
    m.enigEnc c = (0xFF, m) := by
  simp only [enigEnc, charToIndex_of_not_letter h, if_true]

/-! ## The wheel indexes -/

theorem setWheels_updateWheelIndex (m : Enigma) (a b c : Nat) :
    m.updateWheelIndex.setWheels a b c = m.setWheels a b c := by
  simp only [updateWheelIndex, setWheels]
  split <;> split <;> split <;> rfl

theorem updateWheelIndex_eq (m : Enigma) : m.updateWheelIndex =
    m.setWheels m.updateWheelIndex.iw1 m.updateWheelIndex.iw2 m.updateWheelIndex.iw3 := by
  rw [← setWheels_updateWheelIndex]
  rfl

theorem Ready.updateWheelIndex_position (h : m.Ready) :
    m.updateWheelIndex.iw1 < 26 ∧ m.updateWheelIndex.iw2 < 26 ∧ m.updateWheelIndex.iw3 < 26 ∧
      m.updateWheelIndex.position = (m.position + 1) % 26 ^ 3 := by
  have h1 := h.iw1
  have h2 := h.iw2
  have h3 := h.iw3
  simp only [position, updateWheelIndex]
  by_cases hc1 : 26 ≤ m.iw1 + 1
  · simp only [if_pos hc1]
    by_cases hc2 : 26 ≤ m.iw2 + 1
    · simp only [if_pos hc2]
      split <;> refine ⟨?_, ?_, ?_, ?_⟩ <;> simp only <;> omega
    · simp only [if_neg hc2, if_neg (Nat.not_le.mpr h3)]
      refine ⟨?_, ?_, ?_, ?_⟩ <;> omega
  · simp only [if_neg hc1, if_neg (Nat.not_le.mpr h2), if_neg (Nat.not_le.mpr h3)]
    refine ⟨?_, ?_, ?_, ?_⟩ <;> omega

theorem Ready.updateWheelIndex (h : m.Ready) : m.updateWheelIndex.Ready := by
  obtain ⟨h1, h2, h3, _⟩ := h.updateWheelIndex_position
  rw [updateWheelIndex_eq]
  exact { h with iw1 := h1, iw2 := h2, iw3 := h3 }

theorem reciprocal : Reciprocal enigEnc updateWheelIndex Ready Letter where
  advance := by
    intro m c _ hc
    obtain ⟨x, rfl⟩ := exists_index hc
    rw [enigEnc_index]
  ready_next := fun m hm => hm.updateWheelIndex
  letter_out := by
    intro m c _ hc
    obtain ⟨x, rfl⟩ := exists_index hc
    rw [enigEnc_index]
    exact letter_indexToChar _
  take_back := by
    intro m c hm hc
    obtain ⟨x, rfl⟩ := exists_index hc
    rw [enigEnc_index, enigEnc_index, hm.scramble_scramble]

theorem Ready.iterate (h : m.Ready) (n : Nat) : (Enigma.updateWheelIndex^[n] m).Ready := by
  induction n generalizing m with
  | zero => exact h
  | succ n ih => exact ih h.updateWheelIndex

theorem Ready.position_iterate (h : m.Ready) (n : Nat) :
    (Enigma.updateWheelIndex^[n] m).position = (m.position + n) % 26 ^ 3 := by
  induction n with
  | zero =>
    have h1 := h.iw1
    have h2 := h.iw2
    have h3 := h.iw3
    have hlt : m.position < 26 ^ 3 := by
      simp only [position]
      omega
    rw [Function.iterate_zero_apply, Nat.add_zero, Nat.mod_eq_of_lt hlt]
  | succ n ih =>
    rw [Function.iterate_succ_apply', (h.iterate n).updateWheelIndex_position.2.2.2, ih]
    omega

theorem setWheels_iterate (m : Enigma) (n a b c : Nat) :
    (updateWheelIndex^[n] m).setWheels a b c = m.setWheels a b c := by
  induction n with
  | zero => rfl
  | succ n ih => rw [Function.iterate_succ_apply', setWheels_updateWheelIndex, ih]

end Enigma

/-- Enciphering a text, setting the wheels back and enciphering the result gives the text; the
results are letters, and the wheel indexes count them. -/
theorem enigEnc_selfInverse {m : Enigma} (hm : m.Ready) {text : List UInt8}
    (htext : ∀ c ∈ text, Letter c) :
    let out := encipher Enigma.enigEnc m text
    (encipher Enigma.enigEnc (out.2.setWheels m.iw1 m.iw2 m.iw3) out.1).1 = text ∧
      (∀ c ∈ out.1, Letter c) ∧
      out.2.iw1 < 26 ∧ out.2.iw2 < 26 ∧ out.2.iw3 < 26 ∧
      out.2.position = (m.position + text.length) % 26 ^ 3 ∧
      ∀ c, ¬ Letter c → (out.2.enigEnc c).2 = out.2 := by
  intro out
  have hstate : out.2 = Enigma.updateWheelIndex^[text.length] m :=
    Enigma.reciprocal.encipher_state hm htext
  have hready : out.2.Ready := by
    rw [hstate]
    exact hm.iterate _
  refine ⟨?_, Enigma.reciprocal.encipher_letters hm htext, hready.iw1, hready.iw2,
    hready.iw3, ?_, ?_⟩
  · have hreset : out.2.setWheels m.iw1 m.iw2 m.iw3 = m := by
      rw [hstate, Enigma.setWheels_iterate]
      rfl
    rw [hreset]
    exact Enigma.reciprocal.encipher_encipher hm htext
  · rw [hstate]
    exact hm.position_iterate _
  · intro c hc
    rw [Enigma.enigEnc_of_not_letter _ hc]

/-- `START_WHEEL`. -/
def startWheel : Wheel := fun i => i

/-- `START_WHEEL2`. -/
def startWheel2 : Wheel := fun i =>
  [6, 7, 8, 9, 10, 11, 12, 13, 14, 15, 16, 17, 18, 19, 20, 21, 22, 23, 24, 25, 5, 0, 4, 1, 3,
    2].getD i 0

/-- `REFLECT`. -/
def reflect : Wheel := fun i =>
  [1, 0, 3, 2, 5, 4, 7, 6, 9, 8, 11, 10, 13, 12, 15, 14, 17, 16, 19, 18, 21, 20, 23, 22, 25,
    24].getD i 0

/-- The machine as `main` leaves it. -/
def mainEnigma : Enigma where
  w1 := startWheel2
  w2 := startWheel
  w3 := startWheel
  r := reflect
  w1r := (calcRevWheel startWheel2 fun _ => 0).2
  w2r := (calcRevWheel startWheel fun _ => 0).2
  w3r := (calcRevWheel startWheel fun _ => 0).2
  iw1 := 0
  iw2 := 0
  iw3 := 0

theorem startWheel2_permutes : Permutes startWheel2 := by decide

theorem startWheel_permutes : Permutes startWheel := by decide

theorem mainEnigma_ready : mainEnigma.Ready where
  w1 := startWheel2_permutes
  w2 := startWheel_permutes
  w3 := startWheel_permutes
  w1r := ⟨fun _ => 0, Prod.ext (calcRevFrom_spec startWheel2_permutes _ _).1 rfl⟩
  w2r := ⟨fun _ => 0, Prod.ext (calcRevFrom_spec startWheel_permutes _ _).1 rfl⟩
  w3r := ⟨fun _ => 0, Prod.ext (calcRevFrom_spec startWheel_permutes _ _).1 rfl⟩
  r := by decide
  iw1 := by decide
  iw2 := by decide
  iw3 := by decide

theorem enigEnc_selfInverse_main :
    let m := mainEnigma
    let text : List UInt8 := [104, 101, 108, 108, 111]
    let out := encipher Enigma.enigEnc m text
    (encipher Enigma.enigEnc (out.2.setWheels m.iw1 m.iw2 m.iw3) out.1).1 = text ∧
      (∀ c ∈ out.1, Letter c) ∧
      out.2.iw1 < 26 ∧ out.2.iw2 < 26 ∧ out.2.iw3 < 26 ∧
      out.2.position = (m.position + text.length) % 26 ^ 3 ∧
      ∀ c, ¬ Letter c → (out.2.enigEnc c).2 = out.2 :=
  enigEnc_selfInverse mainEnigma_ready (by decide +kernel)

end SharedMem
end ZephyrSamples
