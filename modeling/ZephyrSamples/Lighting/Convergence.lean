import ZephyrSamples.Lib.Ramp
import ZephyrSamples.Lighting.Temperature

/-!
# Transitions to a target

What the expiries of the timer do once `set_transition_values` has set up a transition other than a
Move.  After the first expiry, which starts the clock, every attribute of the handler is on the ramp
from its start to its target, and the timer stops with the last tick.
-/

namespace ZephyrSamples
namespace Lighting

open Binary32 Ramp Runs

/-! ## Attributes and handlers -/

namespace Attribute

def current : Attribute → Server → ℤ
  | .light, s => s.light.current.toNat
  | .temp, s => s.temp.current.toNat
  | .duv, s => s.duv.current.toInt

def target : Attribute → Server → ℤ
  | .light, s => s.light.target.toNat
  | .temp, s => s.temp.target.toNat
  | .duv, s => s.duv.target.toInt

def delta : Attribute → Server → ℤ
  | .light, s => s.light.delta
  | .temp, s => s.temp.delta
  | .duv, s => s.duv.delta

/-- The values the field of the attribute can have. -/
def Fits : Attribute → ℤ → Prop
  | .duv, n => -2 ^ 15 ≤ n ∧ n < 2 ^ 15
  | _, n => 0 ≤ n ∧ n < 2 ^ 16

theorem fits_current (a : Attribute) (s : Server) : a.Fits (a.current s) := by
  cases a with
  | light =>
    exact ⟨Int.natCast_nonneg _, by have := s.light.current.toNat_lt; simp only [current]; omega⟩
  | temp =>
    exact ⟨Int.natCast_nonneg _, by have := s.temp.current.toNat_lt; simp only [current]; omega⟩
  | duv => exact ⟨s.duv.current.le_toInt, s.duv.current.toInt_lt⟩

theorem fits_target (a : Attribute) (s : Server) : a.Fits (a.target s) := by
  cases a with
  | light =>
    exact ⟨Int.natCast_nonneg _, by have := s.light.target.toNat_lt; simp only [target]; omega⟩
  | temp =>
    exact ⟨Int.natCast_nonneg _, by have := s.temp.target.toNat_lt; simp only [target]; omega⟩
  | duv => exact ⟨s.duv.target.le_toInt, s.duv.target.toInt_lt⟩

theorem Fits.of_mem {a : Attribute} {x y n : ℤ} (hx : a.Fits x) (hy : a.Fits y)
    (hn : n ∈ Set.uIcc x y) : a.Fits n := by
  have hn := Set.mem_uIcc.mp hn
  cases a <;> simp only [Fits] at * <;> omega

theorem Fits.abs_sub_lt {a : Attribute} {x y : ℤ} (hx : a.Fits x) (hy : a.Fits y) :
    |x - y| < 2 ^ 20 := by
  rw [abs_lt]
  cases a <;> simp only [Fits] at * <;> omega

end Attribute

/-- What the handlers that install the expiry function put into the end they share.  The Delta Set
handlers of a level have the same as its Set handlers. -/
def TtHandler.starter : TtHandler → Starter
  | .onoff => Lighting.genOnoff.toStarter
  | .levelLightness => Lighting.genLevel.toStarter
  | .levelTemp => Lighting.genLevelTemp.toStarter
  | .lightLightnessActual => Lighting.lightLightness.toStarter
  | .lightLightnessLinear => Lighting.lightLightnessLinear.toStarter
  | .lightCtl => Lighting.lightCtl.toStarter
  | .lightCtlTemp => Lighting.lightCtlTemp.toStarter

/-- The attributes the handler owns. -/
def TtHandler.owns (kind : TtHandler) (a : Attribute) : Bool := kind.starter.scope.has a

/-- The end of a handler whose attributes are not at their targets, from `set_transition_values`
on. -/
def TtHandler.launch (kind : TtHandler) (ctx : MsgCtx) (s : Server) : Server :=
  (kind.starter.status.publish ctx
    (s.setTransitionValues kind.starter.binding).setJustStarted).startHandler kind

/-! ## Ticks -/

namespace Scope

/-- The assignments of a tick that is not the last. -/
def tick : Scope → Server → Server
  | .light, s => s.stepLight
  | .temp, s => s.stepTemp
  | .tempDuv, s => s.stepTemp.stepDuv
  | .lightTempDuv, s => s.stepLight.stepTemp.stepDuv

theorem tick_transition (scope : Scope) (s : Server) :
    (scope.tick s).transition = s.transition := by
  cases scope <;> rfl

theorem settle_transition (scope : Scope) (s : Server) :
    (scope.settle s).transition = s.transition := by
  cases scope <;> rfl

end Scope

namespace Attribute

/-- The attribute, with all that a tick leaves of it. -/
structure Same (a : Attribute) (s s' : Server) : Prop where
  target : a.target s' = a.target s
  delta : a.delta s' = a.delta s

theorem Same.trans {a : Attribute} {s s' s'' : Server} (h : a.Same s s') (h' : a.Same s' s'') :
    a.Same s s'' :=
  ⟨h'.target.trans h.target, h'.delta.trans h.delta⟩

variable (a : Attribute) (scope : Scope) (s : Server)

theorem same_tick : a.Same s (scope.tick s) := by
  cases scope <;> cases a <;> exact ⟨rfl, rfl⟩

theorem same_settle : a.Same s (scope.settle s) := by
  cases scope <;> cases a <;> exact ⟨rfl, rfl⟩

/-- A tick takes an attribute of the scope on by its delta. -/
theorem current_tick (h : scope.has a = true) (hfits : a.Fits (a.current s - a.delta s)) :
    a.current (scope.tick s) = a.current s - a.delta s := by
  have hlight (h : Fits .light (current .light s - delta .light s)) :
      current .light s.stepLight = current .light s - delta .light s :=
    toNat_ofInt_uint16 h.1 h.2
  have htemp (h : Fits .temp (current .temp s - delta .temp s)) :
      current .temp s.stepTemp = current .temp s - delta .temp s :=
    toNat_ofInt_uint16 h.1 h.2
  have hduv (h : Fits .duv (current .duv s - delta .duv s)) :
      current .duv s.stepDuv = current .duv s - delta .duv s :=
    Int16.toInt_ofInt_of_le h.1 h.2
  cases scope <;> cases a <;> first | exact hlight hfits | exact htemp hfits | exact hduv hfits |
    cases h

theorem current_settle (h : scope.has a = true) : a.current (scope.settle s) = a.target s := by
  cases scope <;> cases a <;> first | rfl | cases h

theorem current_tick_of_not (h : scope.has a = false) : a.current (scope.tick s) = a.current s := by
  cases scope <;> cases a <;> first | rfl | cases h

theorem current_settle_of_not (h : scope.has a = false) :
    a.current (scope.settle s) = a.current s := by
  cases scope <;> cases a <;> first | rfl | cases h

end Attribute

/-- Two states in which the attributes are the same. -/
theorem Attribute.ext_of_eq (a : Attribute) (s s' : Server) (hlight : s'.light = s.light)
    (htemp : s'.temp = s.temp) (hduv : s'.duv = s.duv) :
    a.current s' = a.current s ∧ a.Same s s' := by
  cases a with
  | light =>
    exact ⟨by rw [current, hlight]; rfl, by rw [target, hlight]; rfl, by rw [delta, hlight]; rfl⟩
  | temp =>
    exact ⟨by rw [current, htemp]; rfl, by rw [target, htemp]; rfl, by rw [delta, htemp]; rfl⟩
  | duv => exact ⟨by rw [current, hduv]; rfl, by rw [target, hduv]; rfl, by rw [delta, hduv]; rfl⟩

/-- The work item of an expiry of a transition that is not a Move. -/
theorem expiryWork_nonMove (kind : TtHandler) (now : Int) {s : Server}
    (htype : s.transition.type = some .nonMove) : Server.expiryWork kind now s =
      Server.workHandler kind.starter.scope.tick kind.starter.scope.settle now s := by
  have hlevel (move step arrive : Server → Server) :
      Server.levelWorkHandler move step arrive now s = Server.workHandler step arrive now s :=
    if_neg fun hmove => by simp [htype] at hmove
  cases kind with
  | levelLightness => exact hlevel _ _ _
  | levelTemp => exact hlevel _ _ _
  | _ => rfl

/-- The expiry of a periodic timer. -/
theorem step_timerExpiry {linearToActual : UInt16 → UInt16} {kind : TtHandler} {s : Server}
    {now : Int} (hrunning : s.transition.timer.running = true)
    (hhandler : s.transition.timer.handler = some kind) (hperiod : s.transition.timer.period ≠ 0) :
    step linearToActual s (.timerExpiry now) = Server.expiryWork kind now s := by
  have hexpired : s.expired = s := by
    have hperiodic : decide (s.transition.timer.period ≠ 0) = s.transition.timer.running := by
      rw [hrunning]
      exact decide_eq_true hperiod
    unfold Server.expired
    rw [hperiodic]
  show (if s.transition.timer.running then s.timerExpiry now else s) = _
  rw [if_pos hrunning, Server.timerExpiry_eq now hhandler, hexpired]

/-! ## Launch -/

/-- The number of ticks of the transition that is set up. -/
def Server.ticks (s : Server) : ℕ := s.transition.counter.toNat

theorem TtHandler.setTransitionValues_owned (kind : TtHandler) {s : Server}
    (htype : s.transition.type = some .nonMove) (hsteps : s.transition.tt &&& 0x3F ≠ 0) :
    ∃ total counter : UInt32,
      0 < total.toNat ∧ 1 ≤ counter.toNat ∧ counter.toNat ≤ 10 ∧
      counter.toNat * (total / counter).toNat = total.toNat ∧
      (s.setTransitionValues kind.starter.binding).transition =
        { s.transition with
          totalDuration := total, counter := counter, quoTt := total / counter } ∧
      ∀ a, a.current (s.setTransitionValues kind.starter.binding) = a.current s ∧
        a.target (s.setTransitionValues kind.starter.binding) = a.target s ∧
        (kind.owns a = true → a.delta (s.setTransitionValues kind.starter.binding) =
          transitionDelta (a.current s) (a.target s) counter) := by
  obtain ⟨total, counter, hsome, hpos, hone, hten, hticks⟩ :=
    s.transition.setTransitionCounter_ticks hsteps
  have hmove : ¬ s.transition.type = some .move := by simp [htype]
  refine ⟨total, counter, hpos, hone, hten, hticks, ?_, fun a => ?_⟩
  · simp only [Server.setTransitionValues, hsome, if_neg hmove]
    cases kind <;> rfl
  · simp only [Server.setTransitionValues, hsome, if_neg hmove]
    cases kind <;> cases a <;> first | exact ⟨rfl, rfl, fun _ => rfl⟩ |
      exact ⟨rfl, rfl, fun hno => by cases hno⟩

/-- What the launch of a transition leaves. -/
structure Launched (kind : TtHandler) (s s₀ : Server) : Prop where
  current : ∀ a : Attribute, a.current s₀ = a.current s
  target : ∀ a : Attribute, a.target s₀ = a.target s
  delta : ∀ a : Attribute, kind.owns a = true →
    a.delta s₀ = (a.current s₀ - a.target s₀).tdiv s₀.ticks
  type : s₀.transition.type = some .nonMove
  justStarted : s₀.transition.justStarted = true
  ticks : 1 ≤ s₀.ticks ∧ s₀.ticks ≤ 10 ∧
    s₀.ticks * s₀.transition.quoTt.toNat = s₀.transition.totalDuration.toNat
  handler : s₀.transition.timer.handler = some kind
  running : s₀.transition.timer.running = true
  period : s₀.transition.timer.period ≠ 0

theorem TtHandler.launched (kind : TtHandler) (ctx : MsgCtx) {s : Server}
    (htype : s.transition.type = some .nonMove) (hsteps : s.transition.tt &&& 0x3F ≠ 0) :
    Launched kind s (kind.launch ctx s) := by
  obtain ⟨total, counter, hpos, hone, hten, hticks, htransition, hattributes⟩ :=
    kind.setTransitionValues_owned htype hsteps
  have hcounter : counter ≠ 0 := by
    rintro rfl
    exact absurd hone (by decide)
  have hnot :
      ¬ ((s.setTransitionValues kind.starter.binding).setJustStarted.transition.counter = 0 ∧
      (s.setTransitionValues kind.starter.binding).setJustStarted.transition.delay = 0) := by
    simp [Server.setJustStarted, htransition, hcounter]
  obtain ⟨rt, duration, published, heq⟩ :=
    startHandler_publish_of_not kind.starter.status kind ctx hnot
  have hlaunch : (kind.launch ctx s).transition =
      { s.transition with
        justStarted := true, rt := rt, totalDuration := total, counter := counter
        quoTt := total / counter
        timer := { handler := some kind, running := true, duration := duration,
                   period := (total / counter).toNat } } := by
    rw [launch, heq]
    simp only [Server.setJustStarted, htransition]
  have hsame (a : Attribute) := a.ext_of_eq (s.setTransitionValues kind.starter.binding)
    (kind.launch ctx s) (by rw [launch, heq]; rfl) (by rw [launch, heq]; rfl)
    (by rw [launch, heq]; rfl)
  have hcurrent (a : Attribute) := (hsame a).1.trans (hattributes a).1
  have htarget (a : Attribute) := (hsame a).2.target.trans (hattributes a).2.1
  refine ⟨hcurrent, htarget, fun a howns => ?_, ?_, ?_, ?_, ?_, ?_, ?_⟩
  · rw [(hsame a).2.delta, (hattributes a).2.2 howns, Server.ticks, hlaunch, hcurrent, htarget]
    exact transitionDelta_eq ((a.fits_current s).abs_sub_lt (a.fits_target s)) hcounter hten
  all_goals simp only [Server.ticks, hlaunch]
  · exact htype
  · exact ⟨hone, hten, hticks⟩
  · intro hzero
    rw [hzero] at hticks
    omega

/-- What the timer has done after `k` of its expiries, of which the first starts the clock and the
last is the one after as many ticks as there are. -/
structure Underway (kind : TtHandler) (s₀ s : Server) (k : ℕ) : Prop where
  current : ∀ a : Attribute, a.current s =
    if kind.owns a then ramp (a.current s₀) (a.target s₀) s₀.ticks (k - 1) else a.current s₀
  same : ∀ a : Attribute, a.Same s₀ s
  type : s.transition.type = some .nonMove
  justStarted : s.transition.justStarted = decide (k = 0)
  counter : s.ticks = s₀.ticks - (k - 1)
  handler : s.transition.timer.handler = some kind
  running : s.transition.timer.running = decide (k ≤ s₀.ticks)
  period : s.transition.timer.period ≠ 0

theorem Launched.underway {kind : TtHandler} {s s₀ : Server} (h : Launched kind s s₀) :
    Underway kind s₀ s₀ 0 where
  current a := by
    rw [ramp_zero h.ticks.1]
    split <;> rfl
  same a := ⟨rfl, rfl⟩
  type := h.type
  justStarted := h.justStarted
  counter := rfl
  handler := h.handler
  running := by simp [h.running]
  period := h.period

section Expiry

variable {linearToActual : UInt16 → UInt16} {kind : TtHandler} {s₀ s : Server} {k : ℕ} {now : Int}

theorem Underway.counter_ne (h : Underway kind s₀ s k) (hk : k ≤ s₀.ticks) (hpos : 0 < s₀.ticks) :
    s.transition.counter ≠ 0 := by
  intro hzero
  have hcount := h.counter
  rw [Server.ticks, hzero, UInt32.toNat_zero] at hcount
  omega

/-- While the timer runs an expiry runs the work item. -/
theorem Underway.step_eq (h : Underway kind s₀ s k) (hk : k ≤ s₀.ticks) :
    step linearToActual s (.timerExpiry now) =
      Server.workHandler kind.starter.scope.tick kind.starter.scope.settle now s := by
  have hrunning : s.transition.timer.running = true := by simpa [h.running] using hk
  rw [step_timerExpiry hrunning h.handler h.period]
  exact expiryWork_nonMove kind now h.type

/-- The first expiry starts the clock. -/
theorem Underway.step_first (h : Underway kind s₀ s 0) (hpos : 0 < s₀.ticks) :
    Underway kind s₀ (step linearToActual s (.timerExpiry now)) 1 := by
  have hfirst : s.transition.justStarted = true := h.justStarted
  have hrunning : s.transition.timer.running = true := by simp [h.running]
  rw [h.step_eq (Nat.zero_le _), Server.workHandler_first hfirst,
    Server.firstExpiry_of_ne (h.counter_ne (Nat.zero_le _) hpos)]
  have hsame (a : Attribute) := a.ext_of_eq s { s with
    transition := { s.transition with justStarted := false, startTimestamp := now } } rfl rfl rfl
  refine ⟨fun a => (hsame a).1.trans (h.current a), fun a => (h.same a).trans (hsame a).2, h.type,
    rfl, h.counter, h.handler, ?_, h.period⟩
  simpa [hrunning] using Nat.succ_le_of_lt hpos

/-- An expiry in between is a tick. -/
theorem Underway.step_tick (h : Underway kind s₀ s k) (hk : 0 < k) (hlt : k < s₀.ticks)
    (hdelta : ∀ a : Attribute, kind.owns a = true →
      a.delta s₀ = (a.current s₀ - a.target s₀).tdiv s₀.ticks) :
    Underway kind s₀ (step linearToActual s (.timerExpiry now)) (k + 1) := by
  have hfirst : s.transition.justStarted = false := by
    simpa [h.justStarted] using Nat.ne_of_gt hk
  have hcounter := h.counter_ne hlt.le (by omega)
  have hpred : (s.transition.counter - 1).toNat = s₀.ticks - k := by
    have hcount := h.counter
    rw [Server.counter_pred hcounter]
    unfold Server.ticks at hcount ⊢
    omega
  have hlast : s.transition.counter - 1 ≠ 0 := by
    intro hzero
    rw [hzero, UInt32.toNat_zero] at hpred
    omega
  have hsame (a : Attribute) := a.ext_of_eq
    (kind.starter.scope.tick (s.setCounter (s.transition.counter - 1)))
    (kind.starter.scope.tick (s.setCounter (s.transition.counter - 1))).updateLightState
    (by simp) (by simp) (by simp)
  have htransition : (kind.starter.scope.tick
      (s.setCounter (s.transition.counter - 1))).updateLightState.transition =
      { s.transition with counter := s.transition.counter - 1 } := by
    rw [Server.updateLightState_transition, Scope.tick_transition]
    rfl
  have hcounted (a : Attribute) := a.ext_of_eq s
    (s.setCounter (s.transition.counter - 1)) rfl rfl rfl
  rw [h.step_eq hlt.le, Server.workHandler_step hfirst hlast]
  refine ⟨fun a => ?_, fun a => ?_, ?_, ?_, ?_, ?_, ?_, ?_⟩
  · rw [(hsame a).1]
    by_cases howns : kind.owns a = true
    · have hramp : a.current s - a.delta s =
          ramp (a.current s₀) (a.target s₀) s₀.ticks (k + 1 - 1) := by
        obtain ⟨j, rfl⟩ := Nat.exists_eq_add_of_le' hk
        rw [h.current a, if_pos howns, (h.same a).delta, hdelta a howns]
        exact (ramp_succ hlt).symm
      have hnext :=
        a.current_tick kind.starter.scope (s.setCounter (s.transition.counter - 1)) howns
        (by
          rw [(hcounted a).1, (hcounted a).2.delta, hramp]
          exact (a.fits_current s₀).of_mem (a.fits_target s₀) ramp_mem_uIcc)
      rw [hnext, (hcounted a).1, (hcounted a).2.delta, hramp, if_pos howns]
    · have howns : kind.owns a = false := by simpa using howns
      rw [a.current_tick_of_not _ _ howns, (hcounted a).1, h.current a, howns]
      rfl
  · exact (((h.same a).trans (hcounted a).2).trans (a.same_tick _ _)).trans (hsame a).2
  · rw [htransition]
    exact h.type
  · rw [htransition]
    simpa using hfirst
  · rw [Server.ticks, htransition]
    exact hpred
  · rw [htransition]
    exact h.handler
  · rw [htransition]
    simpa [h.running, hlt.le] using Nat.succ_le_of_lt hlt
  · rw [htransition]
    exact h.period

/-- The last expiry puts the attributes on their targets and stops the timer. -/
theorem Underway.step_last (h : Underway kind s₀ s s₀.ticks) (hpos : 0 < s₀.ticks) :
    Underway kind s₀ (step linearToActual s (.timerExpiry now)) (s₀.ticks + 1) := by
  have hfirst : s.transition.justStarted = false := by
    simpa [h.justStarted] using Nat.ne_of_gt hpos
  have hcounter := h.counter_ne le_rfl hpos
  have hpred : (s.transition.counter - 1).toNat = 0 := by
    have hcount := h.counter
    rw [Server.counter_pred hcounter]
    unfold Server.ticks at hcount hpos
    omega
  have hlast : s.transition.counter - 1 = 0 := UInt32.toNat_inj.mp hpred
  have hsame (a : Attribute) := a.ext_of_eq
    (kind.starter.scope.settle (s.setCounter (s.transition.counter - 1)))
    (kind.starter.scope.settle
      (s.setCounter (s.transition.counter - 1))).updateLightState.timerStop
    (by simp [Server.timerStop]) (by simp [Server.timerStop]) (by simp [Server.timerStop])
  have htransition : (kind.starter.scope.settle
      (s.setCounter (s.transition.counter - 1))).updateLightState.timerStop.transition =
      { s.transition with
        counter := s.transition.counter - 1
        timer := { s.transition.timer with running := false } } := by
    simp only [Server.timerStop, Server.updateLightState_transition, Scope.settle_transition]
    rfl
  have hcounted (a : Attribute) := a.ext_of_eq s
    (s.setCounter (s.transition.counter - 1)) rfl rfl rfl
  rw [h.step_eq le_rfl, Server.workHandler_arrive hfirst hlast]
  refine ⟨fun a => ?_, fun a => ?_, ?_, ?_, ?_, ?_, ?_, ?_⟩
  · rw [(hsame a).1]
    by_cases howns : kind.owns a = true
    · rw [a.current_settle _ _ howns, (hcounted a).2.target, (h.same a).target, if_pos howns,
        ramp_of_le (by omega)]
    · have howns : kind.owns a = false := by simpa using howns
      rw [a.current_settle_of_not _ _ howns, (hcounted a).1, h.current a, howns]
      rfl
  · exact (((h.same a).trans (hcounted a).2).trans (a.same_settle _ _)).trans (hsame a).2
  · rw [htransition]
    exact h.type
  · rw [htransition]
    simpa using hfirst
  · rw [Server.ticks, htransition, hpred]
    omega
  · rw [htransition]
    exact h.handler
  · rw [htransition]
    simp
  · rw [htransition]
    exact h.period

/-- A timer that has stopped does not expire. -/
theorem Underway.step_stopped (h : Underway kind s₀ s k) (hk : s₀.ticks < k) :
    Underway kind s₀ (step linearToActual s (.timerExpiry now)) (k + 1) := by
  have hstopped : s.transition.timer.running = false := by simpa [h.running] using hk
  have hstep : step linearToActual s (.timerExpiry now) = s := if_neg (by simp [hstopped])
  rw [hstep]
  refine ⟨fun a => ?_, h.same, h.type, ?_, ?_, h.handler, ?_, h.period⟩
  · rw [h.current a, ramp_of_le (by omega), ramp_of_le (by omega)]
  · rw [h.justStarted]
    simp [Nat.ne_of_gt (Nat.zero_lt_of_lt hk)]
  · rw [h.counter]
    omega
  · rw [hstopped]
    simp
    omega

variable (linearToActual) in
theorem Underway.step (h : Underway kind s₀ s k) (hpos : 0 < s₀.ticks)
    (hdelta : ∀ a : Attribute, kind.owns a = true →
      a.delta s₀ = (a.current s₀ - a.target s₀).tdiv s₀.ticks) :
    Underway kind s₀ (Lighting.step linearToActual s (.timerExpiry now)) (k + 1) := by
  rcases Nat.eq_zero_or_pos k with rfl | hk
  · exact h.step_first hpos
  · rcases Nat.lt_trichotomy k s₀.ticks with hlt | rfl | hgt
    · exact h.step_tick hk hlt hdelta
    · exact h.step_last hpos
    · exact h.step_stopped hgt

end Expiry

/-- After `nows.length` expiries. -/
theorem Launched.underway_run {linearToActual : UInt16 → UInt16} {kind : TtHandler} {s s₀ : Server}
    (h : Launched kind s s₀) (nows : List Int) :
    Underway kind s₀ (run (step linearToActual) s₀ (nows.map .timerExpiry)) nows.length := by
  induction nows using List.reverseRecOn with
  | nil => exact h.underway
  | append_singleton nows now ih =>
    rw [List.map_append, run_append, List.length_append]
    exact ih.step linearToActual h.ticks.1 h.delta

/-- The state after `k` expiries is on the way, or at its end. -/
structure Converging (linearToActual : UInt16 → UInt16) (kind : TtHandler) (s₀ s : Server)
    (k : ℕ) : Prop where
  between : ∀ a : Attribute, kind.owns a = true →
    a.current s ∈ Set.uIcc (a.current s₀) (a.target s₀)
  onward : ∀ a : Attribute, kind.owns a = true → ∀ now,
    a.current (step linearToActual s (.timerExpiry now)) ∈ Set.uIcc (a.current s) (a.target s₀)
  arrived : ∀ a : Attribute, kind.owns a = true → s₀.ticks < k → a.current s = a.target s₀
  others : ∀ a : Attribute, kind.owns a = false → a.current s = a.current s₀
  running : s.transition.timer.running = true ↔ k ≤ s₀.ticks

theorem Underway.converging {linearToActual : UInt16 → UInt16} {kind : TtHandler} {s s₀ s' : Server}
    {k : ℕ} (h : Launched kind s s₀) (hs : Underway kind s₀ s' k) :
    Converging linearToActual kind s₀ s' k := by
  refine ⟨fun a howns => ?_, fun a howns now => ?_, fun a howns hk => ?_, fun a howns => ?_, ?_⟩
  · rw [hs.current a, if_pos howns]
    exact ramp_mem_uIcc
  · rw [(hs.step linearToActual h.ticks.1 h.delta).current a, hs.current a, if_pos howns,
      if_pos howns]
    rcases Nat.eq_zero_or_pos k with rfl | hk
    · exact Set.left_mem_uIcc
    · obtain ⟨j, rfl⟩ := Nat.exists_eq_add_of_le' hk
      exact ramp_succ_mem_uIcc
  · rw [hs.current a, if_pos howns, ramp_of_le (by omega)]
  · rw [hs.current a, howns]
    rfl
  · rw [hs.running]
    simp

/-- A transition that is not a Move, whatever its handler, its ends and its time. -/
theorem nonMove_converges (linearToActual : UInt16 → UInt16) (kind : TtHandler) (ctx : MsgCtx)
    {s : Server} (htype : s.transition.type = some .nonMove)
    (hsteps : s.transition.tt &&& 0x3F ≠ 0) :
    (∀ a : Attribute, a.current (kind.launch ctx s) = a.current s ∧
      a.target (kind.launch ctx s) = a.target s) ∧
    (1 ≤ (kind.launch ctx s).ticks ∧ (kind.launch ctx s).ticks ≤ 10 ∧
      (kind.launch ctx s).ticks * (kind.launch ctx s).transition.quoTt.toNat =
        (kind.launch ctx s).transition.totalDuration.toNat) ∧
    ∀ nows : List Int, Converging linearToActual kind (kind.launch ctx s)
      (run (step linearToActual) (kind.launch ctx s) (nows.map .timerExpiry)) nows.length := by
  have hlaunched := kind.launched ctx htype hsteps
  exact ⟨fun a => ⟨hlaunched.current a, hlaunched.target a⟩, hlaunched.ticks,
    fun nows => (hlaunched.underway_run nows).converging hlaunched⟩

/-- A Light CTL Set over half a second is set up: the light goes up, the temperature down, and the
Delta UV below zero. -/
def fading : Server where
  light := { current := 0, target := 65535 }
  temp := { current := 20000, target := 801 }
  duv := { current := 7, target := -32768 }
  transition := { type := some .nonMove, tt := 0x05 }

/-- The context the message comes in. -/
def fadingCtx : MsgCtx := { addr := 0x0100, recvDst := 0x0300, now := 0 }

theorem nonMove_converges_fading :
    (fading.transition.type = some .nonMove ∧ fading.transition.tt &&& 0x3F ≠ 0) ∧
      Converging id .lightCtl (TtHandler.lightCtl.launch fadingCtx fading)
        (run (step id) (TtHandler.lightCtl.launch fadingCtx fading)
          ([0, 100, 200, 300, 400, 500].map .timerExpiry)) 6 :=
  ⟨⟨rfl, by decide⟩, (nonMove_converges id .lightCtl fadingCtx rfl (by decide)).2.2 _⟩

end Lighting
end ZephyrSamples
