import ZephyrSamples.Lighting.RangeBinding

/-!
# The target of a Delta Set

A Delta Set of a new transaction adds its delta to the present level.  The sum is formed in 32 bits,
and a target below the lightness range is settled by the sign of `light->delta`, which is what the
last transition or Move left there and not the delta of the message.
-/

namespace ZephyrSamples
namespace Lighting

open Runs

/-- The delta of a Delta Set. -/
def Message.delta (m : Message) : Int32 := Int32.ofInt (pullLe32 m.buf).1.toNat

/-- The lightness of a level in the range, by the sign of the delta that led below it. -/
def boundLightness (light : Int) (delta : Int) (rangeMin rangeMax : UInt16) : Int :=
  if 0 < light ∧ light < rangeMin.toNat then if delta < 0 then 0 else rangeMin.toNat
  else if light > rangeMax.toNat then rangeMax.toNat
  else light

/-- The target the Mesh Model asks for: the sum is an integer, clamped to the levels, and its
lightness is bound by the sign of the delta. -/
def deltaTarget (base delta : Int) (rangeMin rangeMax : UInt16) : Int :=
  boundLightness (max (-32768) (min 32767 (base + delta)) + 32768) delta rangeMin rangeMax

/-! ## The target a handler sets -/

theorem DeltaHandler.toInt_clampLevel (target : Int32) :
    (DeltaHandler.clampLevel target).toInt = max (-32768) (min 32767 target.toInt) := by
  unfold DeltaHandler.clampLevel
  split
  · rename_i hlow
    rw [max_eq_left (by omega)]
    rfl
  · split
    · rename_i hhigh
      rw [min_eq_left (by omega)]
      rfl
    · rw [Int16.toInt_ofInt_of_le (by omega) (by omega)]
      omega

theorem toNat_levelLight (level : Int16) :
    ((UInt16.ofInt (level.toInt + 32768)).toNat : ℤ) = level.toInt + 32768 := by
  have hlow := level.le_toInt
  have hhigh := level.toInt_lt
  exact toNat_ofInt_uint16 (by omega) (by omega)

theorem deltaLevel_eq (linearToActual : UInt16 → UInt16) (level : Int16) (s : Server) :
    ((s.assignTarget linearToActual (.deltaLevelLight level)).light.target.toNat : ℤ) =
      boundLightness (level.toInt + 32768) s.light.delta s.light.rangeMin s.light.rangeMax := by
  rw [← toNat_levelLight level]
  generalize hlight : UInt16.ofInt (level.toInt + 32768) = light
  show ((s.setLightTarget
    (UInt16.ofInt (level.toInt + 32768))).constrainTargetLightness2.light.target.toNat : ℤ) = _
  rw [hlight]
  unfold Server.constrainTargetLightness2 boundLightness Server.setLightTarget
  simp only [gt_iff_lt, UInt16.lt_iff_toNat_lt, UInt16.toNat_zero, Bool.and_eq_true,
    decide_eq_true_eq, Nat.cast_lt, Nat.cast_pos]
  split_ifs <;> rfl

section Accept

variable {linearToActual : UInt16 → UInt16} {ctx : MsgCtx} {buf : Buf} {s : Server} {a : Aim}

/-- The target of a new transaction starts from the present level. -/
theorem DeltaHandler.accept_new {h : DeltaHandler}
    (hstatic : ∀ level l, h.lastLevel (h.setLastLevel level l) = level)
    (hnew : s.isRepeat (pullU8 (pullLe32 buf).2).1 ctx = false)
    (haccept : h.accept linearToActual ctx buf s = some a) :
    ∃ tt delay, a = ⟨h.toStarter, h.aim linearToActual
      ((h.level s).toInt32 + Int32.ofInt (pullLe32 buf).1.toNat)
      (pullU8 (pullLe32 buf).2).1 tt delay ctx
      { s with lastLevels := h.setLastLevel (h.level s) s.lastLevels }⟩ := by
  unfold DeltaHandler.accept DeltaHandler.inspect at haccept
  simp only [hnew, Bool.false_and, Bool.false_eq_true, if_false, hstatic] at haccept
  cases hfields : Server.optionalFields (pullU8 (pullLe32 buf).2).2
      { s with lastLevels := h.setLastLevel (h.level s) s.lastLevels } with
  | none => simp [hfields] at haccept
  | some fields =>
    simp only [hfields] at haccept
    obtain rfl := Option.some.inj haccept
    exact ⟨fields.1, fields.2, rfl⟩

end Accept

/-! ## Sums of 32 bits -/

theorem toInt_levelAdd (level : Int16) (delta : Int32) :
    (level.toInt32 + delta).toInt = Int.bmod (level.toInt + delta.toInt) (2 ^ 32) := by
  rw [Int32.toInt_add, Int16.toInt_toInt32]

/-- A sum of 32 bits that overflows is on the other side of all levels. -/
theorem levelAdd_cases (level : Int16) (delta : Int32) :
    (-2 ^ 31 ≤ level.toInt + delta.toInt ∧ level.toInt + delta.toInt < 2 ^ 31 ∧
      (level.toInt32 + delta).toInt = level.toInt + delta.toInt) ∨
    (level.toInt + delta.toInt < -2 ^ 31 ∧ 32767 < (level.toInt32 + delta).toInt) ∨
    (2 ^ 31 ≤ level.toInt + delta.toInt ∧ (level.toInt32 + delta).toInt < -32768) := by
  have hlevel := level.le_toInt
  have hlevel' := level.toInt_lt
  have hdelta := delta.le_toInt
  have hdelta' := delta.toInt_lt
  rw [toInt_levelAdd, Int.bmod_def]
  split <;> omega

/-- The sum does not overflow, and below the range both deltas have the same sign. -/
def DeltaFits (base delta lightDelta : Int) (rangeMin : UInt16) : Prop :=
  (-2 ^ 31 ≤ base + delta ∧ base + delta < 2 ^ 31) ∧
    (0 < base + delta + 32768 → base + delta + 32768 < rangeMin.toNat →
      (lightDelta < 0 ↔ delta < 0))

instance (base delta lightDelta : Int) (rangeMin : UInt16) :
    Decidable (DeltaFits base delta lightDelta rangeMin) :=
  inferInstanceAs (Decidable (_ ∧ _))

theorem boundLightness_congr {light delta delta' : Int} {rangeMin rangeMax : UInt16} :
    boundLightness light delta rangeMin rangeMax = boundLightness light delta' rangeMin rangeMax ↔
      (0 < light → light < rangeMin.toNat → (delta < 0 ↔ delta' < 0)) := by
  unfold boundLightness
  split_ifs <;> omega

theorem boundLightness_eq_deltaTarget_iff {level : Int16} {delta : Int32} {lightDelta : Int}
    {rangeMin rangeMax : UInt16} (hpos : 0 < rangeMin) (hrange : rangeMin ≤ rangeMax) :
    boundLightness ((DeltaHandler.clampLevel (level.toInt32 + delta)).toInt + 32768) lightDelta
        rangeMin rangeMax = deltaTarget level.toInt delta.toInt rangeMin rangeMax ↔
      DeltaFits level.toInt delta.toInt lightDelta rangeMin := by
  have hpos : 0 < rangeMin.toNat := UInt16.lt_iff_toNat_lt.mp hpos
  have hle : rangeMin.toNat ≤ rangeMax.toNat := UInt16.le_iff_toNat_le.mp hrange
  have hmax := rangeMax.toNat_lt
  rw [DeltaHandler.toInt_clampLevel, deltaTarget]
  rcases levelAdd_cases level delta with ⟨hlow, hhigh, hsum⟩ | ⟨hlow, hsum⟩ | ⟨hhigh, hsum⟩
  · rw [hsum, boundLightness_congr, DeltaFits]
    omega
  · -- The sum wraps from below all levels to above them.
    refine iff_of_false ?_ fun hfits => absurd hfits.1.1 (by omega)
    rw [show max (-32768) (min 32767 (level.toInt32 + delta).toInt) + 32768 = 65535 by omega,
      show max (-32768) (min 32767 (level.toInt + delta.toInt)) + 32768 = 0 by omega]
    unfold boundLightness
    split_ifs <;> omega
  · refine iff_of_false ?_ fun hfits => absurd hfits.1.2 (by omega)
    rw [show max (-32768) (min 32767 (level.toInt32 + delta).toInt) + 32768 = 0 by omega,
      show max (-32768) (min 32767 (level.toInt + delta.toInt)) + 32768 = 65535 by omega]
    unfold boundLightness
    split_ifs <;> omega

/-! ## Runs -/

theorem Message.delta_accepted {linearToActual : UInt16 → UInt16} {m : Message} {s : Server}
    {a : Aim} (hrequest : m.request = .genDelta) (hnew : s.isRepeat m.tid m.ctx = false)
    (haccept : m.accept linearToActual s = some a) :
    (a.state.light.target.toNat : ℤ) =
      boundLightness ((DeltaHandler.clampLevel
        ((Server.levelOf s.light.current).toInt32 + m.delta)).toInt + 32768) s.light.delta
        s.light.rangeMin s.light.rangeMax := by
  obtain ⟨request, acked, ctx, buf⟩ := m
  obtain rfl : request = .genDelta := hrequest
  have hnew : s.isRepeat (pullU8 (pullLe32 buf).2).1 ctx = false := by
    rw [tid_delta]
    exact hnew
  unfold Message.accept at haccept
  split at haccept
  · cases haccept
  · have hlight (h : DeltaHandler)
        (hstatic : ∀ level l, h.lastLevel (h.setLastLevel level l) = level)
        (htarget : h.target = .deltaLevelLight)
        (hlevel : h.level s = Server.levelOf s.light.current)
        (haccept : h.accept linearToActual ctx buf s = some a) :
        (a.state.light.target.toNat : ℤ) =
          boundLightness ((DeltaHandler.clampLevel ((Server.levelOf s.light.current).toInt32 +
            Int32.ofInt (pullLe32 buf).1.toNat)).toInt + 32768) s.light.delta s.light.rangeMin
            s.light.rangeMax := by
      obtain ⟨tt, delay, rfl⟩ := DeltaHandler.accept_new hstatic hnew haccept
      rw [hlevel]
      show ((h.aim linearToActual _ _ tt delay ctx _).light.target.toNat : ℤ) = _
      rw [DeltaHandler.aim, setTarget_light, htarget, deltaLevel_eq]
      rfl
    cases acked with
    | false => exact hlight genDeltaUnack (fun _ _ => rfl) rfl rfl haccept
    | true => exact hlight genDeltaAck (fun _ _ => rfl) rfl rfl haccept

/-- In every reachable state, a Delta Set of a new transaction sets the target the Mesh Model asks
for exactly if its delta fits. -/
theorem deltaSet_target_iff (linearToActual : UInt16 → UInt16) {s₀ : Server} (hboot : Booted s₀)
    (es : List Event) {m : Message} (hrequest : m.request = .genDelta)
    (hnew : (run (step linearToActual) s₀ es).isRepeat m.tid m.ctx = false)
    (haccept : (m.accept linearToActual (run (step linearToActual) s₀ es)).isSome = true) :
    ((receive linearToActual m (run (step linearToActual) s₀ es)).light.target.toNat : ℤ) =
        deltaTarget (Server.levelOf (run (step linearToActual) s₀ es).light.current).toInt
          m.delta.toInt (run (step linearToActual) s₀ es).light.rangeMin
          (run (step linearToActual) s₀ es).light.rangeMax ↔
      DeltaFits (Server.levelOf (run (step linearToActual) s₀ es).light.current).toInt m.delta.toInt
        (run (step linearToActual) s₀ es).light.delta
        (run (step linearToActual) s₀ es).light.rangeMin := by
  have hpos := lightRangeMin_pos linearToActual hboot es
  have hranged : LightRanged (run (step linearToActual) s₀ es) :=
    run_invariant (step linearToActual) (step_lightRanged linearToActual) hboot.lightRanged es
  generalize run (step linearToActual) s₀ es = s at *
  obtain ⟨a, haccept⟩ := Option.isSome_iff_exists.mp haccept
  rw [(receive_lightTarget linearToActual haccept).1, m.delta_accepted hrequest hnew haccept]
  exact boundLightness_eq_deltaTarget_iff hpos hranged

/-- A Delta Set of client A, with its delta in network order. -/
def deltaSet (delta : Buf) : Message where
  request := .genDelta
  acked := false
  ctx := { addr := 0x0100, recvDst := 0x0300, now := 10000 }
  buf := delta ++ [1]

/-- Down by 65400, to the lightness 135 of the range from 100 to 200. -/
theorem deltaSet_target_dimmed :
    ((receive id (deltaSet [0x88, 0x00, 0xFF, 0xFF])
        (run (step id) bootState [.message narrowRange])).light.target.toNat : ℤ) =
      deltaTarget 32767 (-65400) 100 200 :=
  (deltaSet_target_iff id booted_bootState [.message narrowRange]
    (m := deltaSet [0x88, 0x00, 0xFF, 0xFF]) rfl (by decide) (by decide)).mpr (by decide)

/-- Down by 65485, to the lightness 50 below the range: the light should go off, and `light->delta`,
which is zero, sends it to the start of the range. -/
theorem deltaSet_not_target :
    (Booted bootState ∧
      (run (step id) bootState [.message narrowRange]).isRepeat
        (deltaSet [0x33, 0x00, 0xFF, 0xFF]).tid
        (deltaSet [0x33, 0x00, 0xFF, 0xFF]).ctx = false ∧
      (deltaSet [0x33, 0x00, 0xFF, 0xFF]).delta.toInt = -65485 ∧
      (Server.levelOf (run (step id) bootState [.message narrowRange]).light.current).toInt =
        32767) ∧
      deltaTarget 32767 (-65485) 100 200 = 0 ∧
      (receive id (deltaSet [0x33, 0x00, 0xFF, 0xFF])
        (run (step id) bootState [.message narrowRange])).light.target = 100 :=
  ⟨⟨booted_bootState, by decide⟩, by decide⟩

end Lighting
end ZephyrSamples
