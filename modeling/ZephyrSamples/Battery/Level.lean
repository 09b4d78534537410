import Mathlib.Algebra.Order.Floor.Semifield
import Mathlib.Data.Rat.Floor
import ZephyrSamples.Lib.Polyline

/-!
# The battery level

`battery_level_pptt` of the nRF battery sample.  The curve is a pointer without a length, and the
scan stops at a level of 0.  For a curve that falls to 0 the level is the polyline through its
points, rounded down. -/

namespace ZephyrSamples
namespace Battery

open Polyline

/-- `struct battery_level_point` -/
structure BatteryLevelPoint where
  lvlPptt : BitVec 16
  lvlMV : BitVec 16
  deriving DecidableEq

namespace BatteryLevelPoint

/-- The level as a number of 32 bits, to which the arithmetic promotes it. -/
def pptt (p : BatteryLevelPoint) : BitVec 32 := p.lvlPptt.setWidth 32

def mV (p : BatteryLevelPoint) : BitVec 32 := p.lvlMV.setWidth 32

/-- The point as a knot of the curve. -/
def knot (p : BatteryLevelPoint) : Knot ℚ := ⟨p.lvlMV.toNat, p.lvlPptt.toNat⟩

@[simp] theorem toNat_pptt (p : BatteryLevelPoint) : p.pptt.toNat = p.lvlPptt.toNat := by
  rw [pptt, BitVec.toNat_setWidth_of_le (by decide)]

@[simp] theorem toNat_mV (p : BatteryLevelPoint) : p.mV.toNat = p.lvlMV.toNat := by
  rw [mV, BitVec.toNat_setWidth_of_le (by decide)]

end BatteryLevelPoint

open BatteryLevelPoint

/-- The scan: `pb` where it stops, behind `pa` if there is a point in front of it.  The result is
`none` if it leaves the curve. -/
def scan (battMV : BitVec 32) :
    Option BatteryLevelPoint → List BatteryLevelPoint →
      Option (Option BatteryLevelPoint × BatteryLevelPoint)
  | _, [] => none
  | pa, pb :: rest =>
    if 0 < pb.lvlPptt ∧ battMV < pb.mV then scan battMV (some pb) rest else some (pa, pb)

/-- What follows the scan.  The result is `none` if it reads in front of the curve or divides by
0. -/
def interpolate (battMV : BitVec 32) :
    Option BatteryLevelPoint × BatteryLevelPoint → Option (BitVec 32)
  | (pa, pb) =>
    if battMV < pb.mV then some pb.pptt
    else
      match pa with
      | none => none
      | some pa =>
        if pa.mV - pb.mV = 0 then none
        else some (pb.pptt + (pa.pptt - pb.pptt) * (battMV - pb.mV) / (pa.mV - pb.mV))

def batteryLevelPptt (battMV : BitVec 32) (curve : List BatteryLevelPoint) : Option (BitVec 32) :=
  match curve with
  | [] => none
  | pb :: rest =>
    if pb.mV ≤ battMV then some pb.pptt
    else (scan battMV none (pb :: rest)).bind (interpolate battMV)

/-- The second point is below the first in both respects. -/
def Below (a b : BatteryLevelPoint) : Prop := b.lvlMV < a.lvlMV ∧ b.lvlPptt < a.lvlPptt

/-- A discharge curve: it falls strictly, and ends with a level of 0. -/
structure Curve where
  points : List BatteryLevelPoint
  falls : points.Pairwise Below
  last : ∃ p, points.getLast? = some p ∧ p.lvlPptt = 0

/-- What the level is to be. -/
structure Interpolates (curve : Curve) (level : BitVec 32 → Option (BitVec 32)) : Prop where
  top : ∀ u first, curve.points.head? = some first → first.lvlMV.toNat ≤ u.toNat →
    level u = some first.pptt
  bottom : ∀ u last, curve.points.getLast? = some last → u.toNat < last.lvlMV.toNat →
    level u = some 0
  point : ∀ p ∈ curve.points, level p.mV = some p.pptt
  between : ∀ u before right left after, curve.points = before ++ right :: left :: after →
    left.lvlMV.toNat < u.toNat → u.toNat < right.lvlMV.toNat →
      ∃ r, level u = some r ∧
        r.toNat = ⌊(left.lvlPptt.toNat : ℚ) + ((right.lvlPptt.toNat : ℚ) - left.lvlPptt.toNat) *
          (u.toNat - left.lvlMV.toNat) / (right.lvlMV.toNat - left.lvlMV.toNat)⌋₊
  bounded : ∀ u first, curve.points.head? = some first → ∃ r, level u = some r ∧ r ≤ first.pptt
  mono : ∀ u v r s, u ≤ v → level u = some r → level v = some s → r ≤ s

variable {a b : BatteryLevelPoint} {rest : List BatteryLevelPoint} {u : BitVec 32}

theorem Below.falls (h : Below a b) : Falls a.knot b.knot :=
  ⟨Nat.cast_lt.mpr (BitVec.lt_def.mp h.1), Nat.cast_lt.mpr (BitVec.lt_def.mp h.2)⟩

/-- The interpolation of natural numbers, rounded down. -/
theorem floor_line (h : Below a b) (hb : b.lvlMV.toNat ≤ u.toNat) :
    ⌊line b.knot a.knot u.toNat⌋₊ = b.lvlPptt.toNat +
      (a.lvlPptt.toNat - b.lvlPptt.toNat) * (u.toNat - b.lvlMV.toNat) /
        (a.lvlMV.toNat - b.lvlMV.toNat) := by
  have hmV : b.lvlMV.toNat ≤ a.lvlMV.toNat := (BitVec.lt_def.mp h.1).le
  have hpptt : b.lvlPptt.toNat ≤ a.lvlPptt.toNat := (BitVec.lt_def.mp h.2).le
  have hcast : line b.knot a.knot (u.toNat : ℚ) =
      (((a.lvlPptt.toNat - b.lvlPptt.toNat) * (u.toNat - b.lvlMV.toNat) : ℕ) : ℚ) /
        ((a.lvlMV.toNat - b.lvlMV.toNat : ℕ) : ℚ) + (b.lvlPptt.toNat : ℚ) := by
    rw [Nat.cast_mul, Nat.cast_sub hpptt, Nat.cast_sub hb, Nat.cast_sub hmV, add_comm]
    rfl
  rw [hcast, Nat.floor_add_natCast (by positivity), Nat.floor_div_eq_div, Nat.add_comm]

/-- The quotient in 32 bits is the interpolation, rounded down. -/
theorem interpolate_eq (h : Below a b) (hb : b.mV ≤ u) (ha : u < a.mV) :
    ∃ r, interpolate u (some a, b) = some r ∧ r.toNat = ⌊line b.knot a.knot u.toNat⌋₊ := by
  have hmV : b.lvlMV.toNat < a.lvlMV.toNat := BitVec.lt_def.mp h.1
  have hpptt : b.lvlPptt.toNat < a.lvlPptt.toNat := BitVec.lt_def.mp h.2
  have hbu : b.lvlMV.toNat ≤ u.toNat := toNat_mV b ▸ BitVec.le_def.mp hb
  have hua : u.toNat < a.lvlMV.toNat := toNat_mV a ▸ BitVec.lt_def.mp ha
  have hrise : (a.pptt - b.pptt).toNat = a.lvlPptt.toNat - b.lvlPptt.toNat := by
    rw [BitVec.toNat_sub_of_le (BitVec.le_def.mpr (by simpa using hpptt.le)), toNat_pptt,
      toNat_pptt]
  have hrun : (a.mV - b.mV).toNat = a.lvlMV.toNat - b.lvlMV.toNat := by
    rw [BitVec.toNat_sub_of_le (BitVec.le_def.mpr (by simpa using hmV.le)), toNat_mV, toNat_mV]
  have hpart : (u - b.mV).toNat = u.toNat - b.lvlMV.toNat := by
    rw [BitVec.toNat_sub_of_le hb, toNat_mV]
  have hne : a.mV - b.mV ≠ 0 := by
    intro hzero
    have hrun' : (a.mV - b.mV).toNat = 0 := by rw [hzero]; rfl
    omega
  -- the factors have 16 bits, and the quotient is at most the rise
  have hwide := a.lvlPptt.isLt
  have hwide' := a.lvlMV.isLt
  have hprod : (a.pptt - b.pptt).toNat * (u - b.mV).toNat < 2 ^ 32 := by
    rw [hrise, hpart]
    calc _ ≤ 65535 * 65535 := Nat.mul_le_mul (by omega) (by omega)
      _ < 2 ^ 32 := by decide
  have hquot : ((a.pptt - b.pptt) * (u - b.mV) / (a.mV - b.mV)).toNat =
      (a.lvlPptt.toNat - b.lvlPptt.toNat) * (u.toNat - b.lvlMV.toNat) /
        (a.lvlMV.toNat - b.lvlMV.toNat) := by
    rw [BitVec.toNat_udiv, BitVec.toNat_mul_of_lt hprod, hrise, hpart, hrun]
  have hle : (a.lvlPptt.toNat - b.lvlPptt.toNat) * (u.toNat - b.lvlMV.toNat) /
      (a.lvlMV.toNat - b.lvlMV.toNat) ≤ a.lvlPptt.toNat - b.lvlPptt.toNat :=
    Nat.div_le_of_le_mul (by
      rw [Nat.mul_comm]
      exact Nat.mul_le_mul_right _ (by omega))
  refine ⟨_, by rw [interpolate, if_neg (BitVec.not_lt.mpr hb)]; exact if_neg hne, ?_⟩
  rw [floor_line h hbu, BitVec.toNat_add_of_lt (by rw [hquot, toNat_pptt]; omega), hquot,
    toNat_pptt]

theorem scan_interpolate (hfalls : (a :: rest).Pairwise Below)
    (hlast : ((a :: rest).getLast (List.cons_ne_nil a rest)).lvlPptt = 0) (hu : u < a.mV)
    (pa : Option BatteryLevelPoint) :
    ∃ r, (scan u pa (a :: rest)).bind (interpolate u) = some r ∧
      r.toNat = ⌊below a.knot (rest.map knot) u.toNat⌋₊ := by
  induction rest generalizing a pa with
  | nil =>
    have hzero : a.lvlPptt = 0 := hlast
    have hstop : ¬ (0 < a.lvlPptt ∧ u < a.mV) := by simp [hzero]
    refine ⟨a.pptt, ?_, ?_⟩
    · rw [scan, if_neg hstop]
      exact if_pos hu
    · rw [toNat_pptt]
      exact (Nat.floor_natCast _).symm
  | cons b rest ih =>
    obtain ⟨hhead, hrest⟩ := List.pairwise_cons.mp hfalls
    have hab := hhead b List.mem_cons_self
    have hpos : 0 < a.lvlPptt := BitVec.lt_def.mpr (Nat.zero_lt_of_lt (BitVec.lt_def.mp hab.2))
    rw [scan, if_pos ⟨hpos, hu⟩, List.map_cons, below]
    by_cases hb : b.mV ≤ u
    · have hstop : ¬ (0 < b.lvlPptt ∧ u < b.mV) := fun h => absurd hb (BitVec.not_le.mpr h.2)
      have hleft : b.knot.x ≤ (u.toNat : ℚ) :=
        Nat.cast_le.mpr (toNat_mV b ▸ BitVec.le_def.mp hb)
      rw [scan, if_neg hstop, if_pos hleft]
      exact interpolate_eq hab hb hu
    · have hub := BitVec.not_le.mp hb
      have hleft : ¬ b.knot.x ≤ (u.toNat : ℚ) :=
        not_le.mpr (Nat.cast_lt.mpr (toNat_mV b ▸ BitVec.lt_def.mp hub))
      rw [if_neg hleft]
      exact ih hrest hlast hub (some a)

/-- On a curve that falls to 0 the level is its polyline, rounded down. -/
theorem batteryLevelPptt_eq (hfalls : (a :: rest).Pairwise Below)
    (hlast : ((a :: rest).getLast (List.cons_ne_nil a rest)).lvlPptt = 0) (u : BitVec 32) :
    ∃ r, batteryLevelPptt u (a :: rest) = some r ∧
      r.toNat = ⌊polyline a.knot (rest.map knot) u.toNat⌋₊ := by
  by_cases h : a.mV ≤ u
  · have hx : a.knot.x ≤ (u.toNat : ℚ) := Nat.cast_le.mpr (toNat_mV a ▸ BitVec.le_def.mp h)
    refine ⟨a.pptt, if_pos h, ?_⟩
    rw [polyline, if_pos hx, toNat_pptt]
    exact (Nat.floor_natCast _).symm
  · have hu := BitVec.not_le.mp h
    have hx : ¬ a.knot.x ≤ (u.toNat : ℚ) :=
      not_le.mpr (Nat.cast_lt.mpr (toNat_mV a ▸ BitVec.lt_def.mp hu))
    rw [batteryLevelPptt, if_neg h, polyline, if_neg hx]
    exact scan_interpolate hfalls hlast hu none

theorem pairwise_knot (hfalls : (a :: rest).Pairwise Below) :
    (a.knot :: rest.map knot).Pairwise Falls := by
  rw [← List.map_cons, List.pairwise_map]
  exact hfalls.imp Below.falls

section Falling

variable (hfalls : (a :: rest).Pairwise Below)
  (hlast : ((a :: rest).getLast (List.cons_ne_nil a rest)).lvlPptt = 0)
include hfalls hlast

theorem batteryLevelPptt_below
    (hu : u.toNat < ((a :: rest).getLast (List.cons_ne_nil a rest)).lvlMV.toNat) :
    batteryLevelPptt u (a :: rest) = some 0 := by
  obtain ⟨r, hr, hfloor⟩ := batteryLevelPptt_eq hfalls hlast u
  have hend : (a.knot :: rest.map knot).getLast (List.cons_ne_nil _ _) =
      ((a :: rest).getLast (List.cons_ne_nil a rest)).knot :=
    List.getLast_map (show (a :: rest).map knot ≠ [] from List.cons_ne_nil _ _)
  have hlow : (u.toNat : ℚ) < ((a :: rest).getLast (List.cons_ne_nil a rest)).knot.x :=
    Nat.cast_lt.mpr hu
  rw [polyline_eq_last (pairwise_knot hfalls) (hend ▸ hlow), hend, knot, Nat.floor_natCast,
    hlast] at hfloor
  have hr0 : r = 0 := BitVec.eq_of_toNat_eq hfloor
  rw [← hr0]
  exact hr

theorem batteryLevelPptt_point {p : BatteryLevelPoint} (hp : p ∈ a :: rest) :
    batteryLevelPptt p.mV (a :: rest) = some p.pptt := by
  obtain ⟨r, hr, hfloor⟩ := batteryLevelPptt_eq hfalls hlast p.mV
  have hx : (p.mV.toNat : ℚ) = p.knot.x := congrArg Nat.cast (toNat_mV p)
  have hy := polyline_knot (pairwise_knot hfalls) (List.mem_map_of_mem hp)
  rw [hx, hy, knot, Nat.floor_natCast, ← toNat_pptt] at hfloor
  rw [hr, BitVec.eq_of_toNat_eq hfloor]

theorem batteryLevelPptt_between {before after : List BatteryLevelPoint}
    {right left : BatteryLevelPoint} (hsplit : a :: rest = before ++ right :: left :: after)
    (hleft : left.lvlMV.toNat < u.toNat) (hright : u.toNat < right.lvlMV.toNat) :
    ∃ r, batteryLevelPptt u (a :: rest) = some r ∧
      r.toNat = ⌊line left.knot right.knot u.toNat⌋₊ := by
  obtain ⟨r, hr, hfloor⟩ := batteryLevelPptt_eq hfalls hlast u
  have hsplit' := congrArg (List.map knot) hsplit
  rw [List.map_append] at hsplit'
  rw [polyline_eq_line hsplit' (pairwise_knot hfalls) (Nat.cast_le.mpr hleft.le)
    (Nat.cast_lt.mpr hright)] at hfloor
  exact ⟨r, hr, hfloor⟩

theorem batteryLevelPptt_le (u : BitVec 32) :
    ∃ r, batteryLevelPptt u (a :: rest) = some r ∧ r ≤ a.pptt := by
  obtain ⟨r, hr, hfloor⟩ := batteryLevelPptt_eq hfalls hlast u
  have hle := Nat.floor_le_floor (polyline_le (pairwise_knot hfalls) (u.toNat : ℚ))
  rw [← hfloor, knot, Nat.floor_natCast, ← toNat_pptt] at hle
  exact ⟨r, hr, BitVec.le_def.mpr hle⟩

theorem batteryLevelPptt_mono {v r s : BitVec 32} (huv : u ≤ v)
    (hr : batteryLevelPptt u (a :: rest) = some r) (hs : batteryLevelPptt v (a :: rest) = some s) :
    r ≤ s := by
  obtain ⟨r', hr', hfloor⟩ := batteryLevelPptt_eq hfalls hlast u
  obtain ⟨s', hs', hfloor'⟩ := batteryLevelPptt_eq hfalls hlast v
  obtain rfl := Option.some.inj (hr.symm.trans hr')
  obtain rfl := Option.some.inj (hs.symm.trans hs')
  have huv' : (u.toNat : ℚ) ≤ v.toNat := Nat.cast_le.mpr (BitVec.le_def.mp huv)
  rw [BitVec.le_def, hfloor, hfloor']
  exact Nat.floor_le_floor (polyline_mono (pairwise_knot hfalls) huv')

end Falling

/-- For every discharge curve the level is the rounded interpolation, and it rises with the
voltage. -/
theorem batteryLevelPptt_interpolates (curve : Curve) :
    Interpolates curve (batteryLevelPptt · curve.points) := by
  obtain ⟨points, hfalls, last, hlast, hzero⟩ := curve
  cases points with
  | nil => exact absurd hlast (by simp)
  | cons a rest =>
    obtain rfl : (a :: rest).getLast (List.cons_ne_nil a rest) = last := by
      rw [List.getLast?_eq_some_getLast (List.cons_ne_nil a rest)] at hlast
      exact Option.some.inj hlast
    constructor
    case top =>
      intro u first hfirst hu
      obtain rfl := Option.some.inj hfirst
      exact if_pos (BitVec.le_def.mpr (toNat_mV a ▸ hu))
    case bottom =>
      intro u last hlast' hu
      obtain rfl := Option.some.inj (hlast.symm.trans hlast')
      exact batteryLevelPptt_below hfalls hzero hu
    case point => exact fun p hp => batteryLevelPptt_point hfalls hzero hp
    case between =>
      intro u before right left after hsplit hleft hright
      exact batteryLevelPptt_between hfalls hzero hsplit hleft hright
    case bounded =>
      intro u first hfirst
      obtain rfl := Option.some.inj hfirst
      exact batteryLevelPptt_le hfalls hzero u
    case mono => exact fun u v r s huv hr hs => batteryLevelPptt_mono hfalls hzero huv hr hs

/-- The curve of `main.c`. -/
def lipo : Curve where
  points := [⟨10000, 3950⟩, ⟨625, 3550⟩, ⟨0, 3100⟩]
  falls := by simp [Below]
  last := ⟨⟨0, 3100⟩, rfl, rfl⟩

example : batteryLevelPptt 3750 lipo.points = some 5312 := by decide

end Battery
end ZephyrSamples
