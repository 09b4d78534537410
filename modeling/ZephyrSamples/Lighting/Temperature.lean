import ZephyrSamples.Lib.Ramp
import ZephyrSamples.Lighting.Conversions
import ZephyrSamples.Lighting.Quiescence

/-!
# The colour temperature

The present and the target temperature should stay in the temperature range and the range should
never become a single temperature, or the conversions of `Conversions` are undefined.  Three steps
can break this: a Range Set message that makes the range a single temperature or leaves a
temperature outside it, and a run of `no_transition_work` in the middle of a transition, which puts
the present temperature on the target while the ticks to come still move it on.
-/

namespace ZephyrSamples
namespace Lighting

open Binary32

/-- The integer is a temperature of the range. -/
def Temperature.Holds (t : Temperature) (n : ℤ) : Prop :=
  t.rangeMin.toNat ≤ n ∧ n ≤ t.rangeMax.toNat

instance (t : Temperature) (n : ℤ) : Decidable (t.Holds n) := inferInstanceAs (Decidable (_ ∧ _))

namespace Server

instance (s : Server) (temp : UInt16) : Decidable (s.InTempRange temp) :=
  inferInstanceAs (Decidable (_ ∧ _))

theorem inTempRange_iff (s : Server) (temp : UInt16) :
    s.InTempRange temp ↔ s.temp.Holds temp.toNat := by
  rw [InTempRange, Temperature.Holds, UInt16.le_iff_toNat_le, UInt16.le_iff_toNat_le]
  omega

/-- A transition that steps the temperature is under way. -/
def tempMoving (s : Server) : Bool :=
  s.transition.timer.running && s.transition.counter ≠ 0 && s.transition.type ≠ some .move &&
    s.transition.timer.handler.any TtHandler.movesTemp

/-- Where the steps still to come take a temperature, before the last tick puts it on the target. -/
def tempAhead (s : Server) (temp : UInt16) : ℤ :=
  if s.tempMoving then temp.toNat - (s.transition.counter.toNat - 1) * s.temp.delta
  else temp.toNat

end Server

/-- What the arithmetic of the colour temperature relies on. -/
structure TempDefined (s : Server) : Prop where
  span : s.tempSpan ≠ 0
  current : s.InTempRange s.temp.current
  target : s.InTempRange s.temp.target
  currentLevel : ∃ level, s.tempLevel s.temp.current = some level ∧
    -32768 ≤ trunc level ∧ trunc level ≤ 32767
  targetLevel : ∃ level, s.tempLevel s.temp.target = some level ∧
    -32768 ≤ trunc level ∧ trunc level ≤ 32767
  color : ∃ color, s.ledColor = some color ∧ 0 ≤ color ∧ color ≤ 100

/-- The steps that keep it so.  A Range Set message that sets the range gives it two ends and leaves
the present temperature, the target and the steps under way inside; `no_transition_work` runs only
where the steps to come, taken from the target, stay in the range. -/
def KeepsTemp (s : Server) : Event → Prop
  | .message m => m.setsTempRange = true →
      (pullRange m.buf).1 < (pullRange m.buf).2 ∧
      (s.setTempRange (pullRange m.buf)).InTempRange s.temp.current ∧
      (s.setTempRange (pullRange m.buf)).InTempRange s.temp.target ∧
      (s.setTempRange (pullRange m.buf)).temp.Holds (s.tempAhead s.temp.current)
  | .noTransitionWork => s.noTransitionQueued = true →
      s.temp.Holds (s.tempAhead s.temp.target)
  | _ => True

instance instDecidableKeepsTemp (s : Server) : ∀ e, Decidable (KeepsTemp s e)
  | .message m => inferInstanceAs (Decidable (m.setsTempRange = true → _ ∧ _ ∧ _ ∧ _))
  | .noTransitionWork => inferInstanceAs (Decidable (s.noTransitionQueued = true → _))
  | .query _ _ | .timerExpiry _ => instDecidableTrue

/-- The invariant: every step still to come stays in the range. -/
structure TempOrdered (s : Server) : Prop where
  timed : s.transition.Timed
  ranged : s.temp.Ranged
  current : s.InTempRange s.temp.current
  target : s.InTempRange s.temp.target
  ahead : s.temp.Holds (s.tempAhead s.temp.current)
  move : s.transition.timer.running = true → s.transition.type = some .move →
    s.transition.timer.handler = some .levelLightness ∨
      s.transition.timer.handler = some .levelTemp

theorem TempOrdered.defined {s : Server} (h : TempOrdered s) : TempDefined s where
  span := (Server.tempSpan_bounds h.ranged).1.ne'
  current := h.current
  target := h.target
  currentLevel := Server.tempLevel_bounds h.ranged h.current
  targetLevel := Server.tempLevel_bounds h.ranged h.target
  color := Server.ledColor_bounds h.ranged h.current

/-! ## Steps of a transition -/

/-- All the steps of a transition in `n` ticks but the last stop between its ends. -/
theorem between_of_ramp {x y lo hi : ℤ} {n : ℕ} (hn : 0 < n) (hx : lo ≤ x ∧ x ≤ hi)
    (hy : lo ≤ y ∧ y ≤ hi) :
    lo ≤ x - (n - 1) * (x - y).tdiv n ∧ x - (n - 1) * (x - y).tdiv n ≤ hi := by
  have hends : Set.uIcc x y ⊆ Set.Icc lo hi := Set.uIcc_subset_Icc hx hy
  have hmem : Ramp.ramp x y n (n - 1) ∈ Set.Icc lo hi := hends Ramp.ramp_mem_uIcc
  rwa [Ramp.ramp_of_lt (by omega), Nat.cast_pred hn] at hmem

/-- A step of several that all stay in the range stays in it. -/
theorem between_of_steps {x d n lo hi : ℤ} (hn : 1 ≤ n) (hx : lo ≤ x ∧ x ≤ hi)
    (hall : lo ≤ x - n * d ∧ x - n * d ≤ hi) : lo ≤ x - d ∧ x - d ≤ hi := by
  rcases le_or_gt 0 d with hd | hd
  · constructor <;> nlinarith
  · constructor <;> nlinarith

/-! ## Messages -/

section Targets

variable {linearToActual : UInt16 → UInt16} {s : Server}

theorem setTarget_temp (t : Target) :
    (s.setTarget linearToActual t).temp = (s.assignTarget linearToActual t).temp := by
  obtain ⟨effects, heq⟩ := Scope.setTarget_eq linearToActual t s
  rw [heq]

theorem setTarget_duvTarget_temp (deltaUv : Int16) :
    (s.setTarget linearToActual (.ctlDeltaUv deltaUv)).temp = s.temp :=
  setTarget_temp (.ctlDeltaUv deltaUv)

theorem inTempRange_constrainTemperature (h : s.temp.Ranged) (temp : UInt16) :
    s.InTempRange (s.constrainTemperature temp) := by
  have hspan := UInt16.le_of_lt h.span
  unfold Server.constrainTemperature
  split
  · exact ⟨UInt16.le_refl _, hspan⟩
  · split
    · exact ⟨hspan, UInt16.le_refl _⟩
    · rename_i hlow hhigh
      exact ⟨UInt16.not_lt.mp hlow, UInt16.not_lt.mp hhigh⟩

theorem inTempRange_moveTarget (h : s.temp.Ranged) (hcurrent : s.InTempRange s.temp.current)
    (delta : Int16) :
    s.InTempRange (moveTarget delta s.temp.current s.temp.rangeMin s.temp.rangeMax) := by
  have hspan := UInt16.le_of_lt h.span
  unfold moveTarget
  split
  · exact ⟨UInt16.le_refl _, hspan⟩
  · split
    · exact ⟨hspan, UInt16.le_refl _⟩
    · exact hcurrent

end Targets

section Accept

variable {linearToActual : UInt16 → UInt16} {m : Message} {s : Server} {a : Aim}

theorem Accepted.tempTarget_of_not_has (h : Accepted m s a)
    (hscope : a.starter.scope.has .temp = false) : a.state.temp.target = s.temp.target := by
  obtain ⟨_, _, _, _, _, _, _, temp, _, _, heq, _, htemp, _⟩ := h.begins
  rw [heq]
  exact htemp hscope

/-- What a handler accepts is for the temperature only if the handler is. -/
theorem accept_has_temp {α : Type} {h : SetHandler α} {ctx : MsgCtx} {buf : Buf}
    (hset : h.scope.has .temp = false) (haccept : h.accept linearToActual ctx buf s = some a) :
    a.starter.scope.has .temp = false := by
  obtain ⟨_, _, tt, delay, -, rfl⟩ := SetHandler.accept_aim haccept
  exact hset

/-- The temperature of a Light CTL Set is constrained to the range. -/
theorem lightCtl_tempTarget (h : s.temp.Ranged) {ctx : MsgCtx} {buf : Buf}
    (haccept : lightCtl.accept linearToActual ctx buf s = some a) :
    s.InTempRange a.state.temp.target := by
  obtain ⟨_, _, tt, delay, -, rfl⟩ := SetHandler.accept_aim haccept
  let lit := (s.beginTransition .nonMove (pullCtl buf).2.1 tt delay ctx).setTarget
    linearToActual (.ctlLight (pullCtl buf).1.1)
  have hlit : lit.temp = s.temp := setTarget_temp (.ctlLight (pullCtl buf).1.1)
  show s.InTempRange ((lit.setTarget linearToActual (.ctlTemp (pullCtl buf).1.2.1)).setTarget
    linearToActual (.ctlDeltaUv (pullCtl buf).1.2.2)).temp.target
  rw [setTarget_duvTarget_temp, setTarget_temp]
  have hclamped := inTempRange_constrainTemperature (s := lit) (by rw [hlit]; exact h)
    (pullCtl buf).1.2.1
  rw [Server.InTempRange, hlit] at hclamped
  exact hclamped

theorem accept_tempTarget (h : s.temp.Ranged) (hcurrent : s.InTempRange s.temp.current)
    (htarget : s.InTempRange s.temp.target) (haccept : m.accept linearToActual s = some a) :
    s.InTempRange a.state.temp.target := by
  by_cases hscope : a.starter.scope.has .temp = false
  · rw [(Message.accepted_of_accept haccept).tempTarget_of_not_has hscope]
    exact htarget
  · obtain ⟨request, acked, ctx, buf⟩ := m
    unfold Message.accept at haccept
    split at haccept
    · cases haccept
    · have hlight {α : Type} {h : SetHandler α} (hset : h.scope.has .temp = false)
          (haccept : h.accept linearToActual ctx buf s = some a) : False :=
        hscope (accept_has_temp hset haccept)
      cases request with
      | genOnoff => exact (hlight rfl haccept).elim
      | genLevel => exact (hlight rfl haccept).elim
      | genDelta =>
        obtain ⟨_, _, _, _, -, rfl⟩ := DeltaHandler.accept_aim haccept
        cases acked <;> exact absurd rfl hscope
      | genMove =>
        obtain ⟨_, _, _, -, rfl⟩ := MoveHandler.accept_aim haccept
        exact absurd rfl hscope
      | lightLightness => exact (hlight rfl haccept).elim
      | lightLightnessLinear => exact (hlight rfl haccept).elim
      | lightCtl => exact lightCtl_tempTarget h haccept
      | lightCtlTemp =>
        obtain ⟨_, _, tt, delay, -, rfl⟩ := SetHandler.accept_aim haccept
        let begun := s.beginTransition .nonMove (pullCtlTemp buf).2.1 tt delay ctx
        show s.InTempRange ((begun.setTarget linearToActual
          (.ctlTemp (pullCtlTemp buf).1.1)).setTarget linearToActual
            (.ctlDeltaUv (pullCtlTemp buf).1.2)).temp.target
        rw [setTarget_duvTarget_temp, setTarget_temp]
        exact inTempRange_constrainTemperature (s := begun) h _
      | genLevelTemp =>
        obtain ⟨_, _, tt, delay, -, rfl⟩ := SetHandler.accept_aim haccept
        show s.InTempRange (Server.setTarget linearToActual _ _).temp.target
        rw [setTarget_temp]
        exact Server.inTempRange_levelToLightCtlTemp
          (s := s.beginTransition .nonMove (pullWord buf).2.1 tt delay ctx) h _
      | genDeltaTemp =>
        obtain ⟨target, tt, delay, lastLevels, -, rfl⟩ := DeltaHandler.accept_aim haccept
        have hlevel := Server.inTempRange_levelToLightCtlTemp
          (s := ({ s with lastLevels := lastLevels } : Server).beginTransition .nonMove
            (pullU8 (pullLe32 buf).2).1 tt delay ctx) h (DeltaHandler.clampLevel target)
        show s.InTempRange (DeltaHandler.aim _ linearToActual target _ tt delay ctx _).temp.target
        rw [DeltaHandler.aim, setTarget_temp]
        cases acked <;> exact hlevel
      | genMoveTemp =>
        obtain ⟨_, tt, delay, -, rfl⟩ := MoveHandler.accept_aim haccept
        show s.InTempRange (genMoveTemp.aim linearToActual _ _ tt delay ctx s).temp.target
        rw [MoveHandler.aim, setTarget_temp]
        exact inTempRange_moveTarget h hcurrent _
      | _ => cases haccept

end Accept

theorem transitionDelta_eq {current target : ℤ} {counter : UInt32} (h : |current - target| < 2 ^ 20)
    (hpos : counter ≠ 0) (hle : counter.toNat ≤ 10) :
    transitionDelta current target counter = (current - target).tdiv counter.toNat := by
  have hne : counter.toNat ≠ 0 := fun h0 => hpos (UInt32.toNat_inj.mp h0)
  have hcounter : rnd counter.toNat = ((counter.toNat : ℤ) : ℚ) := by
    rw [← Int.cast_natCast]
    exact rnd_intCast (by rw [abs_of_nonneg (by omega)]; omega)
  have hdiff : rnd (current - target : ℤ) = (current - target : ℤ) := rnd_intCast (by omega)
  rw [transitionDelta, hdiff, hcounter]
  exact trunc_rnd_div h (by omega) (by omega)

theorem Server.Keeps.tempOrdered {s s' : Server} (h : s.Keeps s') (ho : TempOrdered s) :
    TempOrdered s' := by
  have ht := h.timed ho.timed
  obtain ⟨_, _, _, _, _, _, _, _, _, _, _, _, rfl⟩ := h
  exact ⟨ht, ⟨ho.ranged.low, ho.ranged.span, ho.ranged.high⟩, ho.current, ho.target, ho.ahead,
    ho.move⟩

theorem Message.setRanges_tempOrdered {m : Message} {s : Server} (h : TempOrdered s)
    (hkeeps : KeepsTemp s (.message m)) : TempOrdered (m.setRanges s) := by
  unfold Message.setRanges
  split
  · exact ⟨h.timed, h.ranged, h.current, h.target, h.ahead, h.move⟩
  · split
    · rename_i hsets
      obtain ⟨hspan, hcurrent, htarget, hahead⟩ := hkeeps hsets
      simp only [Message.setsTempRange, Bool.and_eq_true, decide_eq_true_eq] at hsets
      exact ⟨h.timed, ⟨hsets.1.1.2, hspan, hsets.2⟩, hcurrent, htarget, hahead, h.move⟩
    · exact h

theorem tempOrdered_of_forgetStatus {s s' : Server} (h : s.forgetStatus = s'.forgetStatus)
    (ho : TempOrdered s') : TempOrdered s := by
  have hforget : TempOrdered s'.forgetStatus :=
    ⟨⟨ho.timed.handler, ho.timed.progress, ho.timed.periodic⟩, ho.ranged, ho.current, ho.target,
      ho.ahead, ho.move⟩
  rw [← h] at hforget
  exact ⟨⟨hforget.timed.handler, hforget.timed.progress, hforget.timed.periodic⟩, hforget.ranged,
    hforget.current, hforget.target, hforget.ahead, hforget.move⟩

theorem Server.tempAhead_of_stopped {s : Server} (h : s.transition.timer.running = false)
    (temp : UInt16) : s.tempAhead temp = temp.toNat := by
  simp [tempAhead, tempMoving, h]

section Messages

variable {m : Message} {s s' : Server} {a : Aim}

theorem Accepted.tempOrdered (h : Accepted m s a) (ho : TempOrdered s)
    (htarget : s.InTempRange a.state.temp.target) : TempOrdered a.state := by
  have hstopped := h.stopped
  obtain ⟨_, _, _, _, _, _, _, _, _, _, heq⟩ := h.state_eq
  have hcurrent : a.state.InTempRange a.state.temp.current := by
    rw [heq]
    exact ho.current
  refine ⟨.of_stopped hstopped, ?_, hcurrent, ?_, ?_, fun h => by simp [hstopped] at h⟩
  · rw [heq]
    exact ⟨ho.ranged.low, ho.ranged.span, ho.ranged.high⟩
  · rw [heq] at htarget ⊢
    exact htarget
  · rw [Server.tempAhead_of_stopped hstopped]
    exact (Server.inTempRange_iff _ _).mp hcurrent

theorem Started.inTempRange_iff (h : Started a s') (temp : UInt16) :
    s'.InTempRange temp ↔ a.state.InTempRange temp := by
  rw [Server.InTempRange, Server.InTempRange, h.tempRangeMin, h.tempRangeMax]

theorem Started.holds_iff (h : Started a s') (n : ℤ) :
    s'.temp.Holds n ↔ a.state.temp.Holds n := by
  rw [Temperature.Holds, Temperature.Holds, h.tempRangeMin, h.tempRangeMax]

/-- The timer of a transition that starts runs for the transition's own handler. -/
theorem Started.timer_of_running (h : Started a s') (haccepted : Accepted m s a)
    (hrunning : s'.transition.timer.running = true) :
    s'.transition.timer.handler = some a.starter.timer := by
  rcases h.timer with ⟨_, htimer, _⟩ | ⟨_, htimer⟩
  · exact htimer
  · rw [htimer, haccepted.stopped] at hrunning
    cases hrunning

theorem Started.current_inTempRange (h : Started a s') (ho : TempOrdered a.state) :
    s'.InTempRange s'.temp.current := by
  rw [h.inTempRange_iff]
  rcases h.tempCurrent with heq | heq
  · rw [heq]
    exact ho.current
  · rw [heq]
    exact ho.target

/-- What is subtracted in the first step of a transition leaves the temperature between its start
and its end. -/
theorem Started.tempAhead_holds (h : Started a s') (haccepted : Accepted m s a)
    (ho : TempOrdered a.state) : s'.temp.Holds (s'.tempAhead s'.temp.current) := by
  unfold Server.tempAhead
  split
  · rename_i hmoving
    simp only [Server.tempMoving, Bool.and_eq_true, decide_eq_true_eq] at hmoving
    obtain ⟨⟨⟨hrunning, hcounter⟩, htype⟩, hhandler⟩ := hmoving
    obtain ⟨hle, hsame, hdelta⟩ := h.counter hcounter
    have htimer := h.timer_of_running haccepted hrunning
    rw [h.type] at htype
    have hnonMove : a.state.transition.type = some .nonMove := by
      obtain ⟨type, hbegins⟩ := haccepted.begins
      rw [hbegins.type_eq] at htype ⊢
      cases type with
      | move => exact absurd rfl htype
      | nonMove => rfl
    have hmoves : a.starter.timer.movesTemp = true := by simpa [htimer] using hhandler
    rw [hdelta htype (haccepted.nonMove hnonMove hmoves), hsame, h.holds_iff]
    have hc := (Server.inTempRange_iff _ _).mp ho.current
    have ht := (Server.inTempRange_iff _ _).mp ho.target
    have hcounter' : s'.transition.counter.toNat ≠ 0 := fun h0 =>
      hcounter (UInt32.toNat_inj.mp h0)
    have hsmall : |(a.state.temp.current.toNat : ℤ) - a.state.temp.target.toNat| < 2 ^ 20 := by
      have := a.state.temp.current.toNat_lt
      have := a.state.temp.target.toNat_lt
      rw [abs_lt]
      omega
    rw [transitionDelta_eq hsmall hcounter hle]
    exact between_of_ramp (by omega) hc ht
  · exact (Server.inTempRange_iff _ _).mp (h.current_inTempRange ho)

theorem Started.tempOrdered (h : Started a s') (haccepted : Accepted m s a)
    (ho : TempOrdered a.state) : TempOrdered s' := by
  refine ⟨h.timed haccepted.stopped, ?_, h.current_inTempRange ho, ?_,
    h.tempAhead_holds haccepted ho, ?_⟩
  · exact {
      low := h.tempRangeMin ▸ ho.ranged.low
      span := h.tempRangeMin ▸ h.tempRangeMax ▸ ho.ranged.span
      high := h.tempRangeMax ▸ ho.ranged.high }
  · rw [h.inTempRange_iff, h.tempTarget]
    exact ho.target
  · intro hrunning htype
    rw [h.type] at htype
    rw [h.timer_of_running haccepted hrunning]
    rcases haccepted.move htype with heq | heq
    · exact .inl (by rw [heq])
    · exact .inr (by rw [heq])

theorem receive_tempOrdered (linearToActual : UInt16 → UInt16) (h : TempOrdered s)
    (hkeeps : KeepsTemp s (.message m)) : TempOrdered (receive linearToActual m s) := by
  cases haccept : m.accept linearToActual s with
  | none =>
    exact (receive_of_none haccept).tempOrdered (Message.setRanges_tempOrdered h hkeeps)
  | some a =>
    have haccepted := Message.accepted_of_accept haccept
    have htarget := accept_tempTarget h.ranged h.current h.target haccept
    have hstate := haccepted.tempOrdered h htarget
    refine tempOrdered_of_forgetStatus (receive_of_some haccept) ?_
    cases hreturns : a.returns with
    | true =>
      rw [a.finish_of_returns m.ctx haccepted.counter hreturns]
      exact hstate
    | false =>
      exact (a.finish_started m.ctx haccepted.counter hreturns).tempOrdered haccepted hstate

end Messages

/-! ## Expiries -/

namespace Server

/-- The temperature of a state and what is still to come stay in the range of `temp`. -/
def TempWithin (temp : Temperature) (s : Server) : Prop :=
  temp.Holds s.temp.current.toNat ∧ temp.Holds (s.tempAhead s.temp.current)

theorem tempWithin_of_not_moving {temp : Temperature} {s : Server} (h : s.tempMoving = false)
    (hcurrent : temp.Holds s.temp.current.toNat) : TempWithin temp s := by
  refine ⟨hcurrent, ?_⟩
  rw [tempAhead, h]
  exact hcurrent

section Expiry

variable {step arrive : Server → Server} {now : Int} {s : Server}

theorem counter_pred {counter : UInt32} (h : counter ≠ 0) :
    (counter - 1).toNat = counter.toNat - 1 := by
  have hpos : counter.toNat ≠ 0 := fun h0 => h (UInt32.toNat_inj.mp h0)
  rw [UInt32.toNat_sub_of_le _ _ (UInt32.le_iff_toNat_le.mpr (by simp; omega))]
  rfl

/-- A tick takes the temperature one step nearer to where all the ticks take it. -/
theorem ahead_after_step {count : Nat} (h : count - 1 ≠ 0) (current delta : ℤ) :
    current - delta - (((count - 1 : ℕ) : ℤ) - 1) * delta = current - (count - 1) * delta := by
  rw [Nat.cast_sub (by omega)]
  push_cast
  ring

theorem workHandler_step_tempWithin (hstep : ∀ s : Server, (step s).transition = s.transition)
    (hstepTemp : ∀ s : Server, (step s).temp = s.stepTemp.temp)
    (hfirst : s.transition.justStarted = false) (hcounter : s.transition.counter ≠ 0)
    (hlast : ¬ s.transition.counter - 1 = 0) (hcurrent : s.temp.Holds s.temp.current.toNat)
    (hahead : s.temp.Holds
      (s.temp.current.toNat - (s.transition.counter.toNat - 1) * s.temp.delta)) :
    TempWithin s.temp (workHandler step arrive now s) := by
  rw [workHandler_step hfirst hlast]
  have hpred := counter_pred hcounter
  have hmore : s.transition.counter.toNat - 1 ≠ 0 := fun h0 =>
    hlast (UInt32.toNat_inj.mp (hpred.trans h0))
  have hnext := between_of_steps (n := s.transition.counter.toNat - 1) (by omega) hcurrent
    hahead
  have hword : ((UInt16.ofInt (s.temp.current.toNat - s.temp.delta)).toNat : ℤ) =
      s.temp.current.toNat - s.temp.delta := by
    have := s.temp.rangeMax.toNat_lt
    exact toNat_ofInt_uint16 (by omega) (by omega)
  have htemp : (step (s.setCounter (s.transition.counter - 1))).updateLightState.temp =
      { s.temp with current := UInt16.ofInt (s.temp.current.toNat - s.temp.delta) } := by
    rw [updateLightState_temp, hstepTemp]
    rfl
  have hcount : (step (s.setCounter
      (s.transition.counter - 1))).updateLightState.transition.counter =
        s.transition.counter - 1 := by
    rw [updateLightState_transition, hstep]
    rfl
  rw [TempWithin, tempAhead, htemp, hcount]
  dsimp only
  rw [hword]
  refine ⟨hnext, ?_⟩
  split
  · rw [hpred, ahead_after_step hmore]
    exact hahead
  · exact hnext

/-- The work handlers that step the temperature take it towards the target and stop there. -/
theorem workHandler_tempWithin (hstep : ∀ s : Server, (step s).transition = s.transition)
    (hstepTemp : ∀ s : Server, (step s).temp = s.stepTemp.temp)
    (harrive : ∀ s : Server, (arrive s).temp = s.tempToTarget.temp)
    (h : s.transition.Expired) (hcurrent : s.temp.Holds s.temp.current.toNat)
    (htarget : s.temp.Holds s.temp.target.toNat)
    (hahead : s.transition.counter ≠ 0 →
      s.temp.Holds (s.temp.current.toNat - (s.transition.counter.toNat - 1) * s.temp.delta)) :
    TempWithin s.temp (workHandler step arrive now s) := by
  by_cases hfirst : s.transition.justStarted = true
  · rw [workHandler_first hfirst]
    by_cases hcounter : s.transition.counter = 0
    · rw [firstExpiry_of_zero hcounter]
      refine tempWithin_of_not_moving (by simp [tempMoving, timerStop]) ?_
      simpa [timerStop] using hcurrent
    · rw [firstExpiry_of_ne hcounter]
      refine ⟨hcurrent, ?_⟩
      unfold tempAhead
      split
      · exact hahead hcounter
      · exact hcurrent
  · have hfirst : s.transition.justStarted = false := by simpa using hfirst
    have hcounter : s.transition.counter ≠ 0 := h.progress.resolve_left (by simp [hfirst])
    by_cases hlast : s.transition.counter - 1 = 0
    · rw [workHandler_arrive hfirst hlast]
      refine tempWithin_of_not_moving (by simp [tempMoving, timerStop]) ?_
      simpa [timerStop, harrive, tempToTarget, setCounter] using htarget
    · exact workHandler_step_tempWithin hstep hstepTemp hfirst hcounter hlast hcurrent
        (hahead hcounter)

theorem workHandler_temp (hstep : ∀ s : Server, (step s).temp = s.temp)
    (harrive : ∀ s : Server, (arrive s).temp = s.temp) :
    (workHandler step arrive now s).temp = s.temp := by
  by_cases hfirst : s.transition.justStarted = true
  · rw [workHandler_first hfirst]
    by_cases hcounter : s.transition.counter = 0
    · rw [firstExpiry_of_zero hcounter]
      simp [timerStop]
    · rw [firstExpiry_of_ne hcounter]
  · have hfirst : s.transition.justStarted = false := by simpa using hfirst
    by_cases hlast : s.transition.counter - 1 = 0
    · rw [workHandler_arrive hfirst hlast]
      simp [timerStop, harrive, setCounter]
    · rw [workHandler_step hfirst hlast]
      simp [hstep, setCounter]

theorem levelMoveLightnessWorkHandler_temp : s.levelMoveLightnessWorkHandler.temp = s.temp := by
  rw [levelMoveLightnessWorkHandler_eq]
  split <;> simp [timerStop, setCounter, movedLight]

/-- A Move does not leave the range. -/
theorem moveValue_bounds (current : UInt16) {rangeMin rangeMax : UInt16} (delta : Int)
    (h : rangeMin ≤ rangeMax) :
    rangeMin.toNat ≤ moveValue current rangeMin rangeMax delta ∧
      moveValue current rangeMin rangeMax delta ≤ rangeMax.toNat := by
  have hle := UInt16.le_iff_toNat_le.mp h
  unfold moveValue
  dsimp only
  split
  · omega
  · split <;> omega

theorem levelMoveTempWorkHandler_holds (h : s.temp.rangeMin ≤ s.temp.rangeMax) :
    s.temp.Holds s.levelMoveTempWorkHandler.temp.current.toNat := by
  have hvalue := moveValue_bounds s.temp.current s.temp.delta h
  have hcurrent : s.levelMoveTempWorkHandler.temp.current = UInt16.ofInt
      (moveValue s.temp.current s.temp.rangeMin s.temp.rangeMax s.temp.delta) := by
    rw [levelMoveTempWorkHandler_eq]
    split <;> simp [timerStop, setCounter, movedTemp]
  rw [hcurrent, toNat_ofInt_uint16]
  · exact hvalue
  · exact le_trans (by omega) hvalue.1
  · exact lt_of_le_of_lt hvalue.2 (by have := s.temp.rangeMax.toNat_lt; omega)

end Expiry

theorem firstExpiry_temp (now : Int) (s : Server) : (s.firstExpiry now).temp = s.temp := by
  by_cases hcounter : s.transition.counter = 0
  · rw [firstExpiry_of_zero hcounter]
    simp [timerStop]
  · rw [firstExpiry_of_ne hcounter]

theorem expiryWork_kind {s : Server} {handler : TtHandler} (now : Int)
    (hhandler : s.transition.timer.handler = some handler) :
    (expiryWork handler now s.expired).transition.type = s.transition.type ∧
      (expiryWork handler now s.expired).transition.timer.handler = some handler := by
  obtain ⟨_, _, _, _, _, _, _, _, heq⟩ := advances_expiryWork handler now s.expired
  rw [heq]
  exact ⟨rfl, hhandler⟩

theorem expiryWork_unmoved {s : Server} {handler : TtHandler} (now : Int) (h : TempOrdered s)
    (hhandler : s.transition.timer.handler = some handler) (hmoves : handler.movesTemp = false)
    (htemp : (expiryWork handler now s.expired).temp = s.temp) :
    TempWithin s.temp (expiryWork handler now s.expired) := by
  have hcurrent := (inTempRange_iff _ _).mp h.current
  refine tempWithin_of_not_moving ?_ (by rw [htemp]; exact hcurrent)
  simp [tempMoving, (expiryWork_kind now hhandler).2, hmoves]

/-- A transition of the temperature that is not a move takes its next step. -/
theorem workHandler_moved {s : Server} {handler : TtHandler} {step arrive : Server → Server}
    (now : Int) (h : TempOrdered s) (hrunning : s.transition.timer.running = true)
    (hhandler : s.transition.timer.handler = some handler) (hmoves : handler.movesTemp = true)
    (htype : s.transition.type ≠ some .move)
    (hstep : ∀ s : Server, (step s).transition = s.transition)
    (hstepTemp : ∀ s : Server, (step s).temp = s.stepTemp.temp)
    (harrive : ∀ s : Server, (arrive s).temp = s.tempToTarget.temp) :
    TempWithin s.temp (workHandler step arrive now s.expired) := by
  have hexpired := expired_expired h.timed hrunning
  have hcurrent := (inTempRange_iff _ _).mp h.current
  have htarget := (inTempRange_iff _ _).mp h.target
  refine workHandler_tempWithin (s := s.expired) hstep hstepTemp harrive hexpired hcurrent
    htarget ?_
  intro hcounter
  have hmoving : s.tempMoving = true := by
    have hcounter : s.transition.counter ≠ 0 := hcounter
    simp [tempMoving, hrunning, hcounter, htype, hhandler, hmoves]
  have hahead := h.ahead
  rw [tempAhead, if_pos hmoving] at hahead
  exact hahead

theorem expiryWork_tempWithin {s : Server} {handler : TtHandler} (now : Int) (h : TempOrdered s)
    (hrunning : s.transition.timer.running = true)
    (hhandler : s.transition.timer.handler = some handler) :
    TempWithin s.temp (expiryWork handler now s.expired) := by
  have hcurrent := (inTempRange_iff _ _).mp h.current
  cases handler with
  | onoff =>
    exact expiryWork_unmoved now h hhandler rfl
      (workHandler_temp (s := s.expired) (fun _ => rfl) fun _ => rfl)
  | levelLightness =>
    refine expiryWork_unmoved now h hhandler rfl ?_
    show (levelWorkHandler _ _ _ now s.expired).temp = s.temp
    unfold levelWorkHandler
    split
    · exact levelMoveLightnessWorkHandler_temp (s := s.expired)
    · exact workHandler_temp (s := s.expired) (fun _ => rfl) fun _ => rfl
  | levelTemp =>
    by_cases htype : s.transition.type = some .move
    · refine tempWithin_of_not_moving
        (by simp [tempMoving, (expiryWork_kind now hhandler).1, htype]) ?_
      show s.temp.Holds (levelWorkHandler _ _ _ now s.expired).temp.current.toNat
      unfold levelWorkHandler
      by_cases hfirst : s.expired.transition.justStarted = true
      · rw [if_neg fun hif => hif.1 hfirst, workHandler_first hfirst, firstExpiry_temp]
        exact hcurrent
      · rw [if_pos ⟨hfirst, htype⟩]
        exact levelMoveTempWorkHandler_holds (s := s.expired) (UInt16.le_of_lt h.ranged.span)
    · show TempWithin s.temp (levelWorkHandler _ _ _ now s.expired)
      unfold levelWorkHandler
      rw [if_neg fun hif => htype hif.2]
      exact workHandler_moved now h hrunning hhandler rfl htype (fun _ => rfl) (fun _ => rfl)
        fun _ => rfl
  | lightLightnessActual =>
    exact expiryWork_unmoved now h hhandler rfl
      (workHandler_temp (s := s.expired) (fun _ => rfl) fun _ => rfl)
  | lightLightnessLinear =>
    exact expiryWork_unmoved now h hhandler rfl
      (workHandler_temp (s := s.expired) (fun _ => rfl) fun _ => rfl)
  | lightCtl =>
    refine workHandler_moved now h hrunning hhandler rfl (fun htype => ?_) (fun _ => rfl)
      (fun _ => rfl) fun _ => rfl
    rcases h.move hrunning htype with heq | heq <;> simp [hhandler] at heq
  | lightCtlTemp =>
    refine workHandler_moved now h hrunning hhandler rfl (fun htype => ?_) (fun _ => rfl)
      (fun _ => rfl) fun _ => rfl
    rcases h.move hrunning htype with heq | heq <;> simp [hhandler] at heq

theorem timerExpiry_tempOrdered {s : Server} (now : Int) (h : TempOrdered s)
    (hrunning : s.transition.timer.running = true) : TempOrdered (s.timerExpiry now) := by
  obtain ⟨handler, hhandler⟩ := Option.isSome_iff_exists.mp (h.timed.handler hrunning)
  have hwithin := expiryWork_tempWithin now h hrunning hhandler
  have htimed := expiryWork_timed handler now (expired_expired h.timed hrunning)
  rw [timerExpiry_eq now hhandler]
  obtain ⟨_, _, _, _, _, _, _, _, heq⟩ := advances_expiryWork handler now s.expired
  rw [heq] at hwithin htimed ⊢
  exact ⟨htimed, ⟨h.ranged.low, h.ranged.span, h.ranged.high⟩,
    (inTempRange_iff _ _).mpr hwithin.1, h.target, hwithin.2, fun _ => h.move hrunning⟩

end Server

theorem noTransitionWork_tempOrdered {s : Server} (h : TempOrdered s)
    (hkeeps : s.temp.Holds (s.tempAhead s.temp.target)) :
    TempOrdered ({ s with noTransitionQueued := false } : Server).noTransitionWorkHandler := by
  obtain ⟨last, leds, effects, heq⟩ := Server.noTransitionWorkHandler_eq
    { s with noTransitionQueued := false }
  rw [heq]
  exact ⟨h.timed, ⟨h.ranged.low, h.ranged.span, h.ranged.high⟩, h.target, h.target, hkeeps, h.move⟩

/-! ## Runs -/

section Runs

variable (linearToActual : UInt16 → UInt16)

theorem step_tempOrdered (s : Server) (e : Event) (h : TempOrdered s) (hkeeps : KeepsTemp s e) :
    TempOrdered (step linearToActual s e) := by
  cases e with
  | message m => exact receive_tempOrdered linearToActual h hkeeps
  | query q now => exact (q.get_keeps now s).tempOrdered h
  | timerExpiry now =>
    show TempOrdered (if s.transition.timer.running then s.timerExpiry now else s)
    split
    · rename_i hrunning
      exact s.timerExpiry_tempOrdered now h hrunning
    · exact h
  | noTransitionWork =>
    show TempOrdered (if s.noTransitionQueued then _ else s)
    split
    · rename_i hqueued
      exact noTransitionWork_tempOrdered h (hkeeps hqueued)
    · exact h

end Runs

theorem Server.powerUp_temp (s : Server) : ∃ current, s.powerUp.temp =
    { s.temp with current := current } ∧ (current = s.temp.dflt ∨ current = s.temp.target) := by
  unfold powerUp
  dsimp only
  split
  · exact ⟨_, rfl, .inl rfl⟩
  · split
    · exact ⟨_, rfl, .inl rfl⟩
    · split
      · exact ⟨_, rfl, .inr rfl⟩
      · exact ⟨_, rfl, .inl rfl⟩

theorem Loaded.tempRange_bounds {s : Server} (h : Loaded s) :
    tempMin ≤ s.retrieveRanges.temp.rangeMin ∧ s.retrieveRanges.temp.rangeMax ≤ tempMax := by
  unfold Server.retrieveRanges
  dsimp only
  split
  · rename_i hrange
    exact ⟨(h.tempRange hrange).1, (h.tempRange hrange).2.2⟩
  · rw [h.tempRangeMin, h.tempRangeMax]
    decide

/-- A node boots with a range some Range Set message may have stored, and clamps the temperature to
it. -/
theorem Booted.tempOrdered {s : Server} (h : Booted s) (hspan : s.temp.rangeMin < s.temp.rangeMax) :
    TempOrdered s := by
  have htimed := h.timed
  obtain ⟨loaded, hloaded, rfl⟩ := h
  obtain ⟨hlow, hhigh⟩ := hloaded.tempRange_bounds
  obtain ⟨current, hpower, hcurrent⟩ := loaded.retrieveRanges.constrainStates.powerUp_temp
  have htemp : (lightDefaultStatusInit loaded).temp =
      { loaded.retrieveRanges.constrainStates.temp with
        current := current, target := current } := by
    show ({ loaded.retrieveRanges.constrainStates.powerUp.temp with
      target := loaded.retrieveRanges.constrainStates.powerUp.temp.current } : Temperature) = _
    rw [hpower]
  have hstopped : (lightDefaultStatusInit loaded).transition.timer.running = false := by
    obtain ⟨_, _, _, heq, _⟩ := lightDefaultStatusInit_eq loaded
    rw [heq]
    show loaded.transition.timer.running = false
    rw [hloaded.transition]
  have hranged : (lightDefaultStatusInit loaded).temp.Ranged := by
    rw [htemp] at hspan ⊢
    exact ⟨hlow, hspan, hhigh⟩
  have hloadedRanged : loaded.retrieveRanges.temp.Ranged := by
    rw [htemp] at hranged
    exact ⟨hranged.low, hranged.span, hranged.high⟩
  have hin : loaded.retrieveRanges.InTempRange current := by
    rcases hcurrent with rfl | rfl
    · exact inTempRange_constrainTemperature hloadedRanged _
    · exact inTempRange_constrainTemperature hloadedRanged _
  have hall : (lightDefaultStatusInit loaded).InTempRange current := by
    rw [Server.InTempRange, htemp]
    exact hin
  have hcurrent : (lightDefaultStatusInit loaded).temp.current = current := by rw [htemp]
  have htarget : (lightDefaultStatusInit loaded).temp.target = current := by rw [htemp]
  refine ⟨htimed, hranged, hcurrent ▸ hall, htarget ▸ hall, ?_,
    fun hrunning => by simp [hstopped] at hrunning⟩
  rw [Server.tempAhead_of_stopped hstopped, hcurrent]
  exact (Server.inTempRange_iff _ _).mp hall

/-- A run from a range of at least two temperatures whose steps keep the temperature in the range
and the range one of at least two temperatures never leaves the arithmetic undefined. -/
theorem always_tempDefined (linearToActual : UInt16 → UInt16) {s : Server} (h : Booted s)
    (hspan : s.temp.rangeMin < s.temp.rangeMax) {es : List Event}
    (hkeeps : Runs.Along (step linearToActual) KeepsTemp s es) :
    Runs.Always (step linearToActual) TempDefined s es :=
  Runs.Along.always_of_invariant (step linearToActual) (step_tempOrdered linearToActual)
    (fun _ hordered => hordered.defined) (h.tempOrdered hspan) hkeeps

/-- Client A takes the temperature from the top of the range to the bottom in a second. -/
def fadeWarm : Message where
  request := .lightCtlTemp
  acked := false
  ctx := { addr := 0x0100, recvDst := 0x0300, now := 10000 }
  buf := [0x20, 0x03, 0, 0, 1, 10, 0]

theorem always_tempDefined_fadeWarm :
    Runs.Always (step id) TempDefined bootState
      [.message fadeWarm, .timerExpiry 10000, .timerExpiry 10100, .timerExpiry 10200] :=
  always_tempDefined id booted_bootState (by decide) (by decide +kernel)

/-- A Range Set message is accepted with both ends the same. -/
def pointRange : Message where
  request := .lightCtlTempRange
  acked := false
  ctx := { addr := 0x0100, recvDst := 0x0300, now := 10000 }
  buf := [0xE8, 0x03, 0xE8, 0x03]

/-- After it the divisor is zero.  And with `no_transition_work` run in the middle of a fade, the
next tick steps on from the target and leaves the range. -/
theorem not_tempDefined :
    ¬ TempDefined (Runs.run (step id) bootState [.message pointRange]) ∧
      ¬ TempDefined (Runs.run (step id) bootState [.message fadeWarm, .timerExpiry 10000,
        .timerExpiry 10100, .noTransitionWork, .timerExpiry 10200]) :=
  ⟨fun h => h.span (by decide), fun h => absurd h.current (by decide +kernel)⟩

end Lighting
end ZephyrSamples
