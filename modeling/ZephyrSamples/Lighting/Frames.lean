import ZephyrSamples.Lighting.Server

/-!
# What the functions of the server change

One lemma for each function below the handlers, giving its result as an update of the state it
started from.  The proofs about runs use these and look into a function only for what an update
writes.
-/

namespace ZephyrSamples
namespace Lighting

open Binary32

/-! ## Words -/

theorem toNat_ofInt_uint16 {n : ℤ} (h₀ : 0 ≤ n) (h₁ : n < 2 ^ 16) :
    ((UInt16.ofInt n).toNat : ℤ) = n := by
  rw [UInt16.ofInt, Int.emod_eq_of_lt h₀ h₁, UInt16.toNat_ofNat', Nat.mod_eq_of_lt (by omega)]
  omega

theorem toNat_ofInt_uint32 {n : ℤ} (h₀ : 0 ≤ n) (h₁ : n < 2 ^ 32) :
    ((UInt32.ofInt n).toNat : ℤ) = n := by
  rw [UInt32.ofInt, Int.emod_eq_of_lt h₀ h₁, UInt32.toNat_ofNat', Nat.mod_eq_of_lt (by omega)]
  omega

/-! ## Statuses -/

namespace Server

/-- The state with another remaining time and other responses. -/
def withStatus (rt : UInt8) (sent : List Status) (s : Server) : Server :=
  { s with transition := { s.transition with rt := rt }, sent := sent }

/-- The state without the remaining time and the responses, which is all a status request leaves
behind. -/
def forgetStatus (s : Server) : Server := s.withStatus 0 []

@[simp] theorem forgetStatus_withStatus (rt : UInt8) (sent : List Status) (s : Server) :
    (s.withStatus rt sent).forgetStatus = s.forgetStatus := rfl

@[simp] theorem forgetStatus_forgetStatus (s : Server) :
    s.forgetStatus.forgetStatus = s.forgetStatus := rfl

theorem withStatus_self (s : Server) : s = s.withStatus s.transition.rt s.sent := rfl

theorem getCurrent_withStatus (rt : UInt8) (sent : List Status) (s : Server) :
    (s.withStatus rt sent).getCurrent = s.getCurrent := by
  funext binding
  cases binding <;> rfl

theorem getTarget_withStatus (rt : UInt8) (sent : List Status) (s : Server) :
    (s.withStatus rt sent).getTarget = s.getTarget := by
  funext binding
  cases binding <;> rfl

end Server

theorem Transition.calculateRt_eq (now : Int) (t : Transition) :
    ∃ rt, ∀ old, ({ t with rt := old } : Transition).calculateRt now = { t with rt := rt } := by
  by_cases hmove : t.type = some .move
  · exact ⟨unknownValue, fun old => by simp [calculateRt, hmove]⟩
  · by_cases hstarted : t.justStarted = true
    · exact ⟨t.tt, fun old => by simp [calculateRt, hmove, hstarted]⟩
    · refine ⟨(t.calculateRt now).rt, fun old => ?_⟩
      simp [calculateRt, hmove, hstarted]

namespace StatusReport

variable (r : StatusReport)

theorem get_eq (now : Int) (s : Server) : ∃ rt sent, r.get now s = s.withStatus rt sent := by
  obtain ⟨rt, hrt⟩ := s.transition.calculateRt_eq now
  have hrt : s.transition.calculateRt now = { s.transition with rt := rt } := hrt s.transition.rt
  unfold get
  split
  · exact ⟨_, _, rfl⟩
  · split
    · rw [hrt]
      exact ⟨_, _, rfl⟩
    · exact ⟨_, _, rfl⟩

/-- A publication adds the same values whatever the remaining time and the responses were. -/
theorem publish_eq (ctx : MsgCtx) (s : Server) :
    ∃ published, ∀ rt sent, ∃ rt',
      r.publish ctx (s.withStatus rt sent) =
        { s with published := published }.withStatus rt' sent := by
  obtain ⟨now, hnow⟩ := s.transition.calculateRt_eq ctx.now
  by_cases hpub : ctx.pubAssigned = false
  · exact ⟨s.published, fun rt sent => ⟨rt, by simp only [publish, if_pos hpub]⟩⟩
  · by_cases hcounter : s.transition.counter = 0
    · refine ⟨s.published ++ [⟨r.op, r.bindings.map s.getCurrent⟩], fun rt sent => ⟨rt, ?_⟩⟩
      have hcounter : ¬ (s.withStatus rt sent).transition.counter ≠ 0 := fun h => h hcounter
      simp only [publish, if_neg hpub, if_neg hcounter, Server.getCurrent_withStatus]
      rfl
    · refine ⟨s.published ++ [⟨r.op, r.bindings.map s.getCurrent ++ r.bindings.map s.getTarget ++
        [some (now.toNat : Int)]⟩], fun rt sent => ⟨now, ?_⟩⟩
      have hcounter : (s.withStatus rt sent).transition.counter ≠ 0 := hcounter
      have hrt : (s.withStatus rt sent).transition.calculateRt ctx.now =
          { s.transition with rt := now } := hnow rt
      have htarget : ({ s.withStatus rt sent with
          transition := { s.transition with rt := now } } : Server).getTarget = s.getTarget :=
        Server.getTarget_withStatus now sent s
      simp only [publish, if_neg hpub, if_pos hcounter, Server.getCurrent_withStatus, hrt]
      rw [htarget]
      rfl

end StatusReport

/-! ## The light -/

namespace Server

theorem updateLightState_eq (s : Server) : ∃ leds effects, s.updateLightState =
    { s with
      leds := leds
      effects := effects
      reset := true
      noTransitionQueued := s.noTransitionQueued || s.transition.counter = 0 || !s.reset } := by
  by_cases h : s.transition.counter = 0 ∨ s.reset = false
  · refine ⟨s.updateLedGpio.leds, s.effects ++ [.submitNoTransitionWork], ?_⟩
    have hq : (s.noTransitionQueued || s.transition.counter = 0 || !s.reset) = true := by
      rcases h with h | h <;> simp [h]
    have hif : (decide (s.transition.counter = 0) || decide (s.reset = false)) = true := by
      simpa using h
    rw [hq]
    unfold updateLightState
    exact if_pos hif
  · obtain ⟨hcounter, hreset⟩ := not_or.mp h
    have hreset : s.reset = true := by simpa using hreset
    refine ⟨s.updateLedGpio.leds, s.effects, ?_⟩
    have hq : (s.noTransitionQueued || s.transition.counter = 0 || !s.reset) =
        s.noTransitionQueued := by
      simp [hcounter, hreset]
    have hif : ¬ (decide (s.transition.counter = 0) || decide (s.reset = false)) = true := by
      simpa using h
    rw [hq, ← hreset]
    unfold updateLightState
    exact if_neg hif

section Lit

variable (s : Server)

@[simp] theorem updateLightState_light : s.updateLightState.light = s.light := by
  obtain ⟨leds, effects, heq⟩ := s.updateLightState_eq
  rw [heq]

@[simp] theorem updateLightState_temp : s.updateLightState.temp = s.temp := by
  obtain ⟨leds, effects, heq⟩ := s.updateLightState_eq
  rw [heq]

@[simp] theorem updateLightState_duv : s.updateLightState.duv = s.duv := by
  obtain ⟨leds, effects, heq⟩ := s.updateLightState_eq
  rw [heq]

@[simp] theorem updateLightState_transition :
    s.updateLightState.transition = s.transition := by
  obtain ⟨leds, effects, heq⟩ := s.updateLightState_eq
  rw [heq]

@[simp] theorem updateLightState_noTransitionQueued :
    s.updateLightState.noTransitionQueued =
      (s.noTransitionQueued || s.transition.counter = 0 || !s.reset) := by
  obtain ⟨leds, effects, heq⟩ := s.updateLightState_eq
  rw [heq]

end Lit

theorem updateLightState_withStatus (rt : UInt8) (sent : List Status) (s : Server) :
    (s.withStatus rt sent).updateLightState = s.updateLightState.withStatus rt sent := by
  unfold updateLightState
  show (if (s.transition.counter = 0 || s.reset = false) = true then _ else _) =
    withStatus rt sent (if (s.transition.counter = 0 || s.reset = false) = true then _ else _)
  split <;> rfl

theorem startHandler_withStatus (handler : TtHandler) (rt : UInt8) (sent : List Status)
    (s : Server) :
    (s.withStatus rt sent).startHandler handler = (s.startHandler handler).withStatus rt sent := by
  unfold startHandler
  show (if s.transition.counter = 0 ∧ s.transition.delay = 0 then _ else _) =
    withStatus rt sent (if s.transition.counter = 0 ∧ s.transition.delay = 0 then _ else _)
  split
  · exact updateLightState_withStatus rt sent s
  · rfl

end Server

/-! ## Counters -/

namespace Transition

/-- The lengths of the steps are multiples of a tenth of a second. -/
theorem stepResolution_eq (resolution : UInt8) : ∃ tenths, 1 ≤ tenths ∧ tenths ≤ 6000 ∧
    (stepResolution resolution).toNat = 100 * tenths := by
  unfold stepResolution
  split
  · exact ⟨1, by decide⟩
  · split
    · exact ⟨10, by decide⟩
    · split
      · exact ⟨100, by decide⟩
      · exact ⟨6000, by decide⟩

theorem trunc_ticks_lt {total : UInt32} (hhigh : total.toNat ≤ 37800000) :
    trunc (rnd (rnd total.toNat / 100)) < 2 ^ 26 := by
  have hrnd : rnd total.toNat ≤ ((1 : ℤ) : ℚ) * 2 ^ (26 : ℤ) := by
    apply rnd_le (by norm_num) (by norm_num)
    have : (total.toNat : ℚ) ≤ 37800000 := by exact_mod_cast hhigh
    norm_num
    linarith
  have hquot : rnd (rnd total.toNat / 100) ≤ ((1 : ℤ) : ℚ) * 2 ^ (25 : ℤ) := by
    apply rnd_le (by norm_num) (by norm_num)
    norm_num at hrnd ⊢
    linarith
  apply trunc_lt (by norm_num)
  push_cast at hquot ⊢
  norm_num at hquot ⊢
  linarith

/-- A duration of less than a second has as many ticks as tenths of a second. -/
theorem ticks_of_lt {total : UInt32} {q : ℕ} (htotal : total.toNat = 100 * q) (hq : q < 10) :
    (UInt32.ofInt (trunc (rnd (rnd total.toNat / 100)))).toNat = q := by
  have hduration : rnd total.toNat = ((100 * q : ℤ) : ℚ) := by
    rw [htotal, ← Int.cast_natCast]
    exact_mod_cast rnd_intCast (n := 100 * q) (by rw [abs_of_nonneg (by omega)]; omega)
  have hquotient : rnd (rnd total.toNat / 100) = ((q : ℤ) : ℚ) := by
    have hdiv : ((100 * q : ℤ) : ℚ) / 100 = ((q : ℤ) : ℚ) := by
      push_cast
      ring
    rw [hduration, hdiv]
    exact rnd_intCast (by rw [abs_of_nonneg (by omega)]; omega)
  have htrunc : trunc ((q : ℤ) : ℚ) = q := by
    rw [trunc_of_nonneg (by exact_mod_cast Int.natCast_nonneg q), Int.floor_intCast]
  have hword := toNat_ofInt_uint32 (n := q) (by omega) (by omega)
  rw [hquotient, htrunc]
  omega

/-- A longer one has at least the ten the counter is cut to. -/
theorem ten_le_ticks {total : UInt32} {q : ℕ} (htotal : total.toNat = 100 * q) (hq : 10 ≤ q)
    (hhigh : total.toNat ≤ 37800000) :
    10 ≤ (UInt32.ofInt (trunc (rnd (rnd total.toNat / 100)))).toNat := by
  have hlow : ((1000 : ℤ) : ℚ) ≤ rnd total.toNat := by
    apply intCast_le_rnd (by norm_num)
    have hle : 1000 ≤ total.toNat := by omega
    exact_mod_cast hle
  have hten : (10 : ℤ) ≤ trunc (rnd (rnd total.toNat / 100)) := by
    apply le_trunc (by norm_num)
    apply intCast_le_rnd (by norm_num)
    push_cast at hlow ⊢
    linarith
  have hword := trunc_ticks_lt hhigh
  have := toNat_ofInt_uint32 (n := trunc (rnd (rnd total.toNat / 100))) (by omega) (by omega)
  omega

/-- The counter of a duration of `q` tenths of a second is the least of `q` and ten. -/
theorem cut_ticks {total : UInt32} {q : ℕ} (htotal : total.toNat = 100 * q)
    (hhigh : total.toNat ≤ 37800000) :
    (if UInt32.ofInt (trunc (rnd (rnd total.toNat / 100))) > deviceSpecificResolution then
      deviceSpecificResolution else UInt32.ofInt (trunc (rnd (rnd total.toNat / 100)))).toNat =
      min q 10 := by
  rcases Nat.lt_or_ge q 10 with hq | hq
  · have hticks := ticks_of_lt htotal hq
    have hle : ¬ UInt32.ofInt (trunc (rnd (rnd total.toNat / 100))) > deviceSpecificResolution := by
      rw [gt_iff_lt, UInt32.lt_iff_toNat_lt, hticks]
      exact Nat.not_lt.mpr hq.le
    rw [if_neg hle, hticks]
    omega
  · have hticks := ten_le_ticks htotal hq hhigh
    rw [Nat.min_eq_right hq]
    split
    · rfl
    · rename_i hle
      have hle : (UInt32.ofInt (trunc (rnd (rnd total.toNat / 100)))).toNat ≤ 10 :=
        UInt32.not_lt.mp hle
      omega

/-- The milliseconds a byte of six bits of steps under two of resolution stands for. -/
def duration (byte : UInt8) : UInt32 := (byte &&& 0x3F).toUInt32 * stepResolution (byte >>> 6)

theorem totalDuration_eq {t : Transition} (h : t.tt &&& 0x3F ≠ 0) : ∃ q, 1 ≤ q ∧
    ((t.tt &&& 0x3F).toUInt32 * stepResolution (t.tt >>> 6)).toNat = 100 * q ∧
    ((t.tt &&& 0x3F).toUInt32 * stepResolution (t.tt >>> 6)).toNat ≤ 37800000 := by
  have hlow : 1 ≤ (t.tt &&& 0x3F).toNat := by
    have : (t.tt &&& 0x3F).toNat ≠ 0 := fun h0 => h (UInt8.toNat_inj.mp h0)
    omega
  have hhigh : (t.tt &&& 0x3F).toNat ≤ 63 := by
    have : (t.tt &&& 0x3F).toNat = t.tt.toNat &&& 63 := by simp
    rw [this]
    exact Nat.and_le_right
  obtain ⟨tenths, hone, hle, hres⟩ := stepResolution_eq (t.tt >>> 6)
  have htotal : ((t.tt &&& 0x3F).toUInt32 * stepResolution (t.tt >>> 6)).toNat =
      100 * ((t.tt &&& 0x3F).toNat * tenths) := by
    rw [UInt32.toNat_mul, UInt8.toNat_toUInt32, hres, Nat.mod_eq_of_lt (by nlinarith)]
    ring
  refine ⟨_, Nat.mul_pos hlow hone, htotal, ?_⟩
  rw [htotal]
  nlinarith

/-- A transition time of at least one step is cut into between one and ten ticks of equal length. -/
theorem setTransitionCounter_ticks (t : Transition) (h : t.tt &&& 0x3F ≠ 0) :
    ∃ total counter : UInt32, t.setTransitionCounter =
      some { t with totalDuration := total, counter := counter } ∧
      0 < total.toNat ∧ 1 ≤ counter.toNat ∧ counter.toNat ≤ 10 ∧
      counter.toNat * (total / counter).toNat = total.toNat := by
  obtain ⟨q, hq, htotal, hhigh⟩ := totalDuration_eq h
  generalize hT : (t.tt &&& 0x3F).toUInt32 * stepResolution (t.tt >>> 6) = total at htotal hhigh
  have hcut := cut_ticks htotal hhigh
  generalize hC : UInt32.ofInt (trunc (rnd (rnd total.toNat / 100))) = counter at hcut
  refine ⟨total, if counter > deviceSpecificResolution then deviceSpecificResolution else counter,
    ?_, by omega, by omega, by omega, ?_⟩
  · simp only [setTransitionCounter, if_neg h, hT, hC]
  · rw [UInt32.toNat_div, hcut, htotal]
    rcases Nat.le_total q 10 with hle | hle
    · rw [Nat.min_eq_left hle, Nat.mul_div_cancel _ hq]
      ring
    · rw [Nat.min_eq_right hle]
      omega

/-- A transition time of at least one step gives between one and ten ticks. -/
theorem setTransitionCounter_eq (t : Transition) (h : t.tt &&& 0x3F ≠ 0) :
    ∃ total counter : UInt32, t.setTransitionCounter =
      some { t with totalDuration := total, counter := counter } ∧
      counter ≠ 0 ∧ counter.toNat ≤ 10 ∧ total / counter ≠ 0 ∧ total = duration t.tt := by
  obtain ⟨total, counter, hsome, hpos, hone, hten, hticks⟩ := t.setTransitionCounter_ticks h
  refine ⟨total, counter, hsome, ?_, hten, fun hzero => ?_, ?_⟩
  · rintro rfl
    exact absurd hone (by decide)
  · rw [hzero, UInt32.toNat_zero] at hticks
    omega
  · simp only [setTransitionCounter, if_neg h, Option.some_inj] at hsome
    exact (congrArg Transition.totalDuration hsome).symm

end Transition

/-- The bindings for which `set_transition_values` computes the delta of the temperature. -/
def StateBinding.movesTemp : StateBinding → Bool
  | .ctlLight | .levelTemp | .ctlTemp => true
  | _ => false

namespace Server

theorem setTransitionValues_of_zero (type : StateBinding) {s : Server}
    (h : s.transition.tt &&& 0x3F = 0) : s.setTransitionValues type = s := by
  have hnone : s.transition.setTransitionCounter = none := if_pos h
  simp only [setTransitionValues, hnone]

theorem setTransitionValues_eq (type : StateBinding) {s : Server}
    (h : s.transition.tt &&& 0x3F ≠ 0) :
    ∃ (total counter quo : UInt32) (light temp duv : Int), s.setTransitionValues type =
      { s with
        light := { s.light with delta := light }
        temp := { s.temp with delta := temp }
        duv := { s.duv with delta := duv }
        transition := { s.transition with
          totalDuration := total, counter := counter, quoTt := quo } } ∧
      counter ≠ 0 ∧ counter.toNat ≤ 10 ∧ quo ≠ 0 ∧ total = Transition.duration s.transition.tt ∧
      (s.transition.type ≠ some .move → type.movesTemp = true →
        temp = transitionDelta s.temp.current.toNat s.temp.target.toNat counter) := by
  obtain ⟨total, counter, hsome, hne, hle, hquo, htotal⟩ := s.transition.setTransitionCounter_eq h
  by_cases hmove : s.transition.type = some .move
  · refine ⟨total, counter, total, s.light.delta, s.temp.delta, s.duv.delta, ?_, hne, hle, ?_,
      htotal, fun hn => absurd hmove hn⟩
    · simp only [setTransitionValues, hsome, hmove, if_true]
    · rintro rfl
      exact hquo (by simp)
  · let light := transitionDelta s.light.current.toNat s.light.target.toNat counter
    let temp := transitionDelta s.temp.current.toNat s.temp.target.toNat counter
    let duv := transitionDelta s.duv.current.toInt s.duv.target.toInt counter
    refine ⟨total, counter, total / counter,
      if type matches .onoff | .levelLight | .actual | .linear | .ctlLight then light
        else s.light.delta,
      if type.movesTemp then temp else s.temp.delta,
      if type matches .ctlLight | .ctlTemp then duv else s.duv.delta, ?_, hne, hle, hquo,
      htotal, fun _ htemp => if_pos htemp⟩
    simp only [setTransitionValues, hsome, if_neg hmove]
    cases type <;> rfl

end Server

/-! ## Scopes -/

namespace Scope

/-- The attributes outside the scope are at their targets. -/
def OthersAtRest (scope : Scope) (s : Server) : Prop :=
  (scope.has .light = false → s.light.current = s.light.target) ∧
    (scope.has .temp = false → s.temp.current = s.temp.target) ∧
    (scope.has .duv = false → s.duv.current = s.duv.target)

instance (scope : Scope) (s : Server) : Decidable (scope.OthersAtRest s) :=
  inferInstanceAs (Decidable (_ ∧ _ ∧ _))

theorem atRest_iff (scope : Scope) (s : Server) :
    s.AtRest ↔ scope.arrived s = true ∧ scope.OthersAtRest s := by
  cases scope <;>
    simp [arrived, OthersAtRest, has, Server.AtRest, Server.lightArrived, Server.tempArrived,
      Server.duvArrived] <;> tauto

theorem settle_eq (scope : Scope) (s : Server) : scope.settle s =
    { s with
      light := { s.light with
        current := if scope.has .light then s.light.target else s.light.current }
      temp := { s.temp with current := if scope.has .temp then s.temp.target else s.temp.current }
      duv := { s.duv with
        current := if scope.has .duv then s.duv.target else s.duv.current } } := by
  cases scope <;> rfl

/-- `s'` is `s` with other targets, all in the scope, and with other requests made. -/
def Aims (scope : Scope) (s s' : Server) : Prop :=
  ∃ (light temp : UInt16) (duv : Int16) (effects : List Effect), s' =
      { s with
        light := { s.light with target := light }
        temp := { s.temp with target := temp }
        duv := { s.duv with target := duv }
        effects := effects } ∧
    (scope.has .light = false → light = s.light.target) ∧
    (scope.has .temp = false → temp = s.temp.target) ∧
    (scope.has .duv = false → duv = s.duv.target)

theorem Aims.refl (scope : Scope) (s : Server) : scope.Aims s s :=
  ⟨_, _, _, _, rfl, fun _ => rfl, fun _ => rfl, fun _ => rfl⟩

theorem Aims.trans {scope : Scope} {s s' s'' : Server} (h : scope.Aims s s')
    (h' : scope.Aims s' s'') : scope.Aims s s'' := by
  obtain ⟨light, temp, duv, effects, rfl, hlight, htemp, hduv⟩ := h
  obtain ⟨light', temp', duv', effects', rfl, hlight', htemp', hduv'⟩ := h'
  refine ⟨light', temp', duv', effects', rfl, ?_, ?_, ?_⟩
  · exact fun hscope => (hlight' hscope).trans (hlight hscope)
  · exact fun hscope => (htemp' hscope).trans (htemp hscope)
  · exact fun hscope => (hduv' hscope).trans (hduv hscope)

theorem aims_setLightTarget {scope : Scope} (h : scope.has .light = true) (target : UInt16)
    (s : Server) : scope.Aims s (s.setLightTarget target) :=
  ⟨target, _, _, _, rfl, fun hscope => by simp [h] at hscope, fun _ => rfl, fun _ => rfl⟩

theorem aims_setTempTarget {scope : Scope} (h : scope.has .temp = true) (target : UInt16)
    (s : Server) : scope.Aims s (s.setTempTarget target) :=
  ⟨_, target, _, _, rfl, fun _ => rfl, fun hscope => by simp [h] at hscope, fun _ => rfl⟩

theorem aims_setDuvTarget {scope : Scope} (h : scope.has .duv = true) (target : Int16)
    (s : Server) : scope.Aims s (s.setDuvTarget target) :=
  ⟨_, _, target, _, rfl, fun _ => rfl, fun _ => rfl, fun hscope => by simp [h] at hscope⟩

theorem aims_constrainTargetLightness2 {scope : Scope} (h : scope.has .light = true) (s : Server) :
    scope.Aims s s.constrainTargetLightness2 := by
  unfold Server.constrainTargetLightness2
  split
  · split
    · exact aims_setLightTarget h _ s
    · exact aims_setLightTarget h _ s
  · split
    · exact aims_setLightTarget h _ s
    · exact Aims.refl scope s

/-- The `switch` of `set_target` writes the target of the attribute its case is about. -/
theorem aims_assignTarget (linearToActual : UInt16 → UInt16) {scope : Scope} {t : Target}
    (h : scope.has t.attribute = true) (s : Server) :
    scope.Aims s (s.assignTarget linearToActual t) := by
  cases t with
  | onoff onoff =>
    show scope.Aims s (if onoff = stateOff then _ else if onoff = stateOn then
      if s.light.dflt = 0 then _ else _ else s)
    split
    · exact aims_setLightTarget h _ s
    · split
      · split
        · exact aims_setLightTarget h _ s
        · exact aims_setLightTarget h _ s
      · exact Aims.refl scope s
  | levelLight level => exact aims_setLightTarget h _ s
  | deltaLevelLight level =>
    exact (aims_setLightTarget h _ s).trans (aims_constrainTargetLightness2 h _)
  | moveLight target => exact aims_setLightTarget h _ s
  | actual actual => exact aims_setLightTarget h _ s
  | linear linear => exact aims_setLightTarget h _ s
  | ctlLight lightness => exact aims_setLightTarget h _ s
  | levelTemp level => exact aims_setTempTarget h _ s
  | moveTemp target => exact aims_setTempTarget h _ s
  | ctlTemp temp => exact aims_setTempTarget h _ s
  | ctlDeltaUv deltaUv => exact aims_setDuvTarget h _ s

theorem setTarget_eq (linearToActual : UInt16 → UInt16) (t : Target) (s : Server) :
    ∃ effects, s.setTarget linearToActual t =
      { s.assignTarget linearToActual t with effects := effects } := by
  by_cases h : (s.assignTarget linearToActual t).onpowerup = stateRestore
  · exact ⟨_, if_pos h⟩
  · exact ⟨_, if_neg h⟩

theorem aims_setTarget (linearToActual : UInt16 → UInt16) {scope : Scope} {t : Target}
    (h : scope.has t.attribute = true) (s : Server) :
    scope.Aims s (s.setTarget linearToActual t) := by
  obtain ⟨effects, heq⟩ := setTarget_eq linearToActual t s
  rw [heq]
  exact (aims_assignTarget linearToActual h s).trans
    ⟨_, _, _, effects, rfl, fun _ => rfl, fun _ => rfl, fun _ => rfl⟩

theorem aims_foldl_setTarget (linearToActual : UInt16 → UInt16) {scope : Scope}
    {targets : List Target} (h : ∀ t ∈ targets, scope.has t.attribute = true) (s : Server) :
    scope.Aims s (targets.foldl (fun s t => s.setTarget linearToActual t) s) := by
  induction targets generalizing s with
  | nil => exact Aims.refl scope s
  | cons t targets ih =>
    have hfirst := aims_setTarget linearToActual (h t List.mem_cons_self) s
    exact hfirst.trans (ih (fun t' ht' => h t' (List.mem_cons_of_mem t ht')) _)

end Scope

/-! ## Expiries and work items -/

namespace Server

/-- `s'` is `s` with other present values, in another phase of the transition. -/
def Advances (s s' : Server) : Prop :=
  ∃ (light temp : UInt16) (duv : Int16) (transition : Transition) (leds : Leds)
    (effects : List Effect) (reset queued : Bool), s' =
      { s with
        light := { s.light with current := light }
        temp := { s.temp with current := temp }
        duv := { s.duv with current := duv }
        transition := { transition with
          tt := s.transition.tt
          type := s.transition.type
          timer := { transition.timer with handler := s.transition.timer.handler } }
        leds := leds
        effects := effects
        reset := reset
        noTransitionQueued := queued }

theorem Advances.refl (s : Server) : s.Advances s :=
  ⟨_, _, _, s.transition, _, _, _, _, rfl⟩

theorem Advances.trans {s s' s'' : Server} (h : s.Advances s') (h' : s'.Advances s'') :
    s.Advances s'' := by
  obtain ⟨light, temp, duv, transition, leds, effects, reset, queued, rfl⟩ := h
  obtain ⟨light', temp', duv', transition', leds', effects', reset', queued', rfl⟩ := h'
  exact ⟨light', temp', duv', transition', leds', effects', reset', queued', rfl⟩

theorem advances_updateLightState (s : Server) : s.Advances s.updateLightState := by
  obtain ⟨leds, effects, heq⟩ := s.updateLightState_eq
  rw [heq]
  exact ⟨_, _, _, s.transition, leds, effects, true, _, rfl⟩

theorem advances_timerStop (s : Server) : s.Advances s.timerStop :=
  ⟨_, _, _, s.timerStop.transition, _, _, _, _, rfl⟩

theorem advances_setCounter (counter : UInt32) (s : Server) : s.Advances (s.setCounter counter) :=
  ⟨_, _, _, (s.setCounter counter).transition, _, _, _, _, rfl⟩

theorem advances_lightToTarget (s : Server) : s.Advances s.lightToTarget :=
  ⟨_, _, _, s.transition, _, _, _, _, rfl⟩

theorem advances_tempToTarget (s : Server) : s.Advances s.tempToTarget :=
  ⟨_, _, _, s.transition, _, _, _, _, rfl⟩

theorem advances_duvToTarget (s : Server) : s.Advances s.duvToTarget :=
  ⟨_, _, _, s.transition, _, _, _, _, rfl⟩

theorem advances_stepLight (s : Server) : s.Advances s.stepLight :=
  ⟨_, _, _, s.transition, _, _, _, _, rfl⟩

theorem advances_stepTemp (s : Server) : s.Advances s.stepTemp :=
  ⟨_, _, _, s.transition, _, _, _, _, rfl⟩

theorem advances_stepDuv (s : Server) : s.Advances s.stepDuv :=
  ⟨_, _, _, s.transition, _, _, _, _, rfl⟩

section Phases

variable {step arrive : Server → Server} {now : Int} {s : Server}

theorem firstExpiry_of_zero (h : s.transition.counter = 0) : s.firstExpiry now =
    { s with
      transition := { s.transition with justStarted := false } }.updateLightState.timerStop :=
  if_pos h

theorem firstExpiry_of_ne (h : s.transition.counter ≠ 0) : s.firstExpiry now =
    { s with transition := { s.transition with justStarted := false, startTimestamp := now } } :=
  if_neg h

theorem workHandler_first (h : s.transition.justStarted = true) :
    workHandler step arrive now s = s.firstExpiry now :=
  if_pos h

theorem workHandler_step (h : s.transition.justStarted = false)
    (hcounter : s.transition.counter - 1 ≠ 0) : workHandler step arrive now s =
      (step (s.setCounter (s.transition.counter - 1))).updateLightState :=
  (if_neg (by simp [h])).trans (if_pos hcounter)

theorem workHandler_arrive (h : s.transition.justStarted = false)
    (hcounter : s.transition.counter - 1 = 0) : workHandler step arrive now s =
      (arrive (s.setCounter (s.transition.counter - 1))).updateLightState.timerStop :=
  (if_neg (by simp [h])).trans (if_neg (not_not.mpr hcounter))

end Phases

theorem advances_firstExpiry (now : Int) (s : Server) : s.Advances (s.firstExpiry now) := by
  by_cases hcounter : s.transition.counter = 0
  · rw [firstExpiry_of_zero hcounter]
    have hstarted :
        s.Advances { s with transition := { s.transition with justStarted := false } } :=
      ⟨_, _, _, { s.transition with justStarted := false }, _, _, _, _, rfl⟩
    exact (hstarted.trans (advances_updateLightState _)).trans (advances_timerStop _)
  · rw [firstExpiry_of_ne hcounter]
    exact ⟨_, _, _, { s.transition with justStarted := false, startTimestamp := now }, _, _, _, _,
      rfl⟩

theorem advances_workHandler {step arrive : Server → Server}
    (hstep : ∀ s : Server, s.Advances (step s)) (harrive : ∀ s : Server, s.Advances (arrive s))
    (now : Int) (s : Server) : s.Advances (workHandler step arrive now s) := by
  have hcounted := advances_setCounter (s.transition.counter - 1) s
  by_cases hfirst : s.transition.justStarted = true
  · rw [workHandler_first hfirst]
    exact advances_firstExpiry now s
  · have hfirst : s.transition.justStarted = false := by simpa using hfirst
    by_cases hcounter : s.transition.counter - 1 = 0
    · rw [workHandler_arrive hfirst hcounter]
      exact ((hcounted.trans (harrive _)).trans (advances_updateLightState _)).trans
        (advances_timerStop _)
    · rw [workHandler_step hfirst hcounter]
      exact (hcounted.trans (hstep _)).trans (advances_updateLightState _)

/-- The state after a Move has taken the lightness on. -/
def movedLight (s : Server) : Server :=
  let light := moveValue s.light.current s.light.rangeMin s.light.rangeMax s.light.delta
  { s with light := { s.light with current := UInt16.ofInt light } }

def movedTemp (s : Server) : Server :=
  let temp := moveValue s.temp.current s.temp.rangeMin s.temp.rangeMax s.temp.delta
  { s with temp := { s.temp with current := UInt16.ofInt temp } }

theorem levelMoveLightnessWorkHandler_eq (s : Server) : s.levelMoveLightnessWorkHandler =
    if (s.light.target.toNat : Int) =
        moveValue s.light.current s.light.rangeMin s.light.rangeMax s.light.delta then
      (s.movedLight.updateLightState.setCounter 0).timerStop
    else s.movedLight.updateLightState := by
  have htarget : s.movedLight.updateLightState.light.target = s.light.target := by
    rw [updateLightState_light]
    rfl
  show (if (s.movedLight.updateLightState.light.target.toNat : Int) = _ then _ else _) = _
  rw [htarget]
  rfl

theorem levelMoveTempWorkHandler_eq (s : Server) : s.levelMoveTempWorkHandler =
    if (s.temp.target.toNat : Int) =
        moveValue s.temp.current s.temp.rangeMin s.temp.rangeMax s.temp.delta then
      (s.movedTemp.updateLightState.setCounter 0).timerStop
    else s.movedTemp.updateLightState := by
  have htarget : s.movedTemp.updateLightState.temp.target = s.temp.target := by
    rw [updateLightState_temp]
    rfl
  show (if (s.movedTemp.updateLightState.temp.target.toNat : Int) = _ then _ else _) = _
  rw [htarget]
  rfl

theorem advances_levelMoveLightnessWorkHandler (s : Server) :
    s.Advances s.levelMoveLightnessWorkHandler := by
  have hmove : s.Advances s.movedLight := ⟨_, _, _, s.transition, _, _, _, _, rfl⟩
  have hlit := hmove.trans (advances_updateLightState _)
  rw [levelMoveLightnessWorkHandler_eq]
  split
  · exact (hlit.trans (advances_setCounter 0 _)).trans (advances_timerStop _)
  · exact hlit

theorem advances_levelMoveTempWorkHandler (s : Server) :
    s.Advances s.levelMoveTempWorkHandler := by
  have hmove : s.Advances s.movedTemp := ⟨_, _, _, s.transition, _, _, _, _, rfl⟩
  have hlit := hmove.trans (advances_updateLightState _)
  rw [levelMoveTempWorkHandler_eq]
  split
  · exact (hlit.trans (advances_setCounter 0 _)).trans (advances_timerStop _)
  · exact hlit

theorem advances_levelWorkHandler {move step arrive : Server → Server}
    (hmove : ∀ s : Server, s.Advances (move s)) (hstep : ∀ s : Server, s.Advances (step s))
    (harrive : ∀ s : Server, s.Advances (arrive s)) (now : Int) (s : Server) :
    s.Advances (levelWorkHandler move step arrive now s) := by
  unfold levelWorkHandler
  split
  · exact hmove s
  · exact advances_workHandler hstep harrive now s

theorem advances_expiryWork (handler : TtHandler) (now : Int) (s : Server) :
    s.Advances (expiryWork handler now s) := by
  cases handler with
  | onoff => exact advances_workHandler advances_stepLight advances_lightToTarget now s
  | levelLightness =>
    exact advances_levelWorkHandler advances_levelMoveLightnessWorkHandler advances_stepLight
      advances_lightToTarget now s
  | levelTemp =>
    exact advances_levelWorkHandler advances_levelMoveTempWorkHandler advances_stepTemp
      advances_tempToTarget now s
  | lightLightnessActual =>
    exact advances_workHandler advances_stepLight advances_lightToTarget now s
  | lightLightnessLinear =>
    exact advances_workHandler advances_stepLight advances_lightToTarget now s
  | lightCtl =>
    have hstep (s : Server) : s.Advances s.stepLight.stepTemp.stepDuv :=
      ((advances_stepLight s).trans (advances_stepTemp _)).trans (advances_stepDuv _)
    have harrive (s : Server) : s.Advances s.lightToTarget.tempToTarget.duvToTarget :=
      ((advances_lightToTarget s).trans (advances_tempToTarget _)).trans (advances_duvToTarget _)
    exact advances_workHandler hstep harrive now s
  | lightCtlTemp =>
    have hstep (s : Server) : s.Advances s.stepTemp.stepDuv :=
      (advances_stepTemp s).trans (advances_stepDuv _)
    have harrive (s : Server) : s.Advances s.tempToTarget.duvToTarget :=
      (advances_tempToTarget s).trans (advances_duvToTarget _)
    exact advances_workHandler hstep harrive now s

theorem advances_timerExpiry (now : Int) (s : Server) : s.Advances (s.timerExpiry now) := by
  unfold timerExpiry
  split
  · exact Advances.refl s
  · rename_i handler _
    let timer := { s.transition.timer with running := s.transition.timer.period ≠ 0 }
    have htimer : s.Advances { s with transition := { s.transition with timer := timer } } :=
      ⟨_, _, _, { s.transition with timer := timer }, _, _, _, _, rfl⟩
    exact htimer.trans (advances_expiryWork handler now _)

theorem noTransitionWorkHandler_eq (s : Server) : ∃ last leds effects,
    s.noTransitionWorkHandler =
      { s with
        light := { s.light with current := s.light.target, last := last }
        temp := { s.temp with current := s.temp.target }
        duv := { s.duv with current := s.duv.target }
        leds := leds
        effects := effects } := by
  unfold noTransitionWorkHandler
  by_cases hlast : s.light.target ≠ 0
  · by_cases hrest : s.AtRest
    · simp [hlast, hrest, saveOnFlash]
    · simp [hlast, hrest, saveOnFlash, updateLedGpio]
  · by_cases hrest : s.AtRest
    · simp [hlast, hrest]
    · simp [hlast, hrest, updateLedGpio]

end Server

end Lighting
end ZephyrSamples
