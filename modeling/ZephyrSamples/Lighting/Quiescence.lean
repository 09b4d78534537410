import ZephyrSamples.Lighting.Accepted

/-!
# Quiescence

When the transition timer is stopped and `no_transition_work` is not queued, nothing moves the light
any more, so all three attributes should be at their targets.  `Strands` is exactly what a step does
when it breaks that: it stops the timer for attributes of its own and leaves another on its way.
-/

namespace ZephyrSamples
namespace Lighting

/-- Nothing is left to do unless the attributes are at their targets. -/
def Quiescent (s : Server) : Prop :=
  s.transition.timer.running = false → s.noTransitionQueued = false → s.AtRest

/-- What holds of the timer in every reachable state: a running timer has an expiry function and a
transition in progress, and it is periodic when there are ticks to come. -/
structure Transition.Timed (t : Transition) : Prop where
  handler : t.timer.running = true → t.timer.handler.isSome = true
  progress : t.timer.running = true → t.justStarted = true ∨ t.counter ≠ 0
  periodic : t.timer.running = true → t.counter ≠ 0 → t.timer.period ≠ 0

theorem Transition.Timed.of_stopped {t : Transition} (h : t.timer.running = false) : t.Timed where
  handler hrunning := by simp [h] at hrunning
  progress hrunning := by simp [h] at hrunning
  periodic hrunning := by simp [h] at hrunning

/-- The expiry of a Move takes its attribute to the target. -/
def Server.moveArrives (s : Server) : TtHandler → Bool
  | .levelLightness => (s.light.target.toNat : Int) =
      moveValue s.light.current s.light.rangeMin s.light.rangeMax s.light.delta
  | .levelTemp => (s.temp.target.toNat : Int) =
      moveValue s.temp.current s.temp.rangeMin s.temp.rangeMax s.temp.delta
  | _ => false

/-- The attribute of the two handlers a Move shares. -/
def TtHandler.moveScope : TtHandler → Scope
  | .levelTemp => .temp
  | _ => .light

/-- The steps that leave an attribute between its start and its target with nothing to move it on.

A message does so when `no_transition_work` is not queued and its handler, having stopped the timer,
returns: because the attributes it is about have what it asks for while another is on its way, or
because it is a Move without a transition time.  An expiry does so when it ends a Move while another
attribute is on its way. -/
def Strands (linearToActual : UInt16 → UInt16) (s : Server) : Event → Prop
  | .message m =>
    match m.accept linearToActual s with
    | none => False
    | some a => s.noTransitionQueued = false ∧
        if a.starter.scope.arrived a.state then ¬ a.starter.scope.OthersAtRest s
        else a.state.transition.type = some .move ∧ a.state.transition.tt &&& 0x3F = 0
  | .query _ _ => False
  | .timerExpiry _ =>
    s.transition.timer.running = true ∧ s.noTransitionQueued = false ∧ s.reset = true ∧
      s.transition.justStarted = false ∧ s.transition.type = some .move ∧
      match s.transition.timer.handler with
      | none => False
      | some handler => s.moveArrives handler = true ∧ ¬ handler.moveScope.OthersAtRest s
  | .noTransitionWork => False

instance instDecidableStrands (linearToActual : UInt16 → UInt16) (s : Server) :
    ∀ e, Decidable (Strands linearToActual s e)
  | .message m =>
    match h : m.accept linearToActual s with
    | none => .isFalse fun hs => by simp [Strands, h] at hs
    | some a =>
      decidable_of_iff (s.noTransitionQueued = false ∧
        if a.starter.scope.arrived a.state then ¬ a.starter.scope.OthersAtRest s
        else a.state.transition.type = some .move ∧ a.state.transition.tt &&& 0x3F = 0)
        (by simp [Strands, h])
  | .query _ _ => instDecidableFalse
  | .timerExpiry _ =>
    match h : s.transition.timer.handler with
    | none => .isFalse fun hs => by simp [Strands, h] at hs
    | some handler =>
      decidable_of_iff (s.transition.timer.running = true ∧ s.noTransitionQueued = false ∧
        s.reset = true ∧ s.transition.justStarted = false ∧ s.transition.type = some .move ∧
        s.moveArrives handler = true ∧ ¬ handler.moveScope.OthersAtRest s) (by simp [Strands, h])
  | .noTransitionWork => instDecidableFalse

/-! ## Expiries -/

/-- What a work handler is entered with: the timer runs on exactly if it is periodic. -/
structure Transition.Expired (t : Transition) : Prop where
  timed : t.Timed
  progress : t.justStarted = true ∨ t.counter ≠ 0
  running : t.counter ≠ 0 → t.timer.running = true

namespace Server

section Expiry

variable {step arrive : Server → Server} {now : Int} {s : Server}

/-- A work handler keeps the timer running or queues `no_transition_work`. -/
theorem workHandler_quiescent (hstep : ∀ s : Server, (step s).transition = s.transition)
    (harrive : ∀ s : Server, (arrive s).transition = s.transition)
    (h : s.transition.Expired) : Quiescent (workHandler step arrive now s) := by
  intro hstopped hqueued
  by_cases hfirst : s.transition.justStarted = true
  · rw [workHandler_first hfirst] at hstopped hqueued
    by_cases hcounter : s.transition.counter = 0
    · rw [firstExpiry_of_zero hcounter] at hqueued
      simp [timerStop, hcounter] at hqueued
    · rw [firstExpiry_of_ne hcounter] at hstopped
      simp [h.running hcounter] at hstopped
  · have hfirst : s.transition.justStarted = false := by simpa using hfirst
    have hcounter : s.transition.counter ≠ 0 := h.progress.resolve_left (by simp [hfirst])
    by_cases hlast : s.transition.counter - 1 = 0
    · rw [workHandler_arrive hfirst hlast] at hqueued
      simp [timerStop, harrive, setCounter, hlast] at hqueued
    · rw [workHandler_step hfirst hlast, updateLightState_transition, hstep] at hstopped
      simp [setCounter, h.running hcounter] at hstopped

theorem workHandler_timed (hstep : ∀ s : Server, (step s).transition = s.transition)
    (h : s.transition.Expired) : (workHandler step arrive now s).transition.Timed := by
  by_cases hfirst : s.transition.justStarted = true
  · rw [workHandler_first hfirst]
    by_cases hcounter : s.transition.counter = 0
    · rw [firstExpiry_of_zero hcounter]
      exact .of_stopped rfl
    · rw [firstExpiry_of_ne hcounter]
      exact {
        handler := h.timed.handler
        progress := fun _ => .inr hcounter
        periodic := h.timed.periodic }
  · have hfirst : s.transition.justStarted = false := by simpa using hfirst
    have hcounter : s.transition.counter ≠ 0 := h.progress.resolve_left (by simp [hfirst])
    by_cases hlast : s.transition.counter - 1 = 0
    · rw [workHandler_arrive hfirst hlast]
      exact .of_stopped rfl
    · rw [workHandler_step hfirst hlast, updateLightState_transition, hstep]
      exact {
        handler := h.timed.handler
        progress := fun _ => .inr hlast
        periodic := fun hrunning _ => h.timed.periodic hrunning hcounter }

theorem eq_ofInt_of_toNat_eq {target : UInt16} {n : ℤ} (h : (target.toNat : ℤ) = n) :
    UInt16.ofInt n = target := by
  rw [← h, ← UInt16.toNat_inj]
  have := toNat_ofInt_uint16 (n := target.toNat) (by omega) (by have := target.toNat_lt; omega)
  omega

/-- A Move that does not reach its target keeps the timer running; one that does stops it, and
queues `no_transition_work` only if the light has never been updated. -/
theorem levelMoveLightnessWorkHandler_quiescent (h : s.transition.Expired)
    (hfirst : s.transition.justStarted = false) :
    Quiescent s.levelMoveLightnessWorkHandler ↔
      ¬ (s.noTransitionQueued = false ∧ s.reset = true ∧ s.moveArrives .levelLightness = true ∧
        ¬ Scope.light.OthersAtRest s) := by
  have hcounter : s.transition.counter ≠ 0 := h.progress.resolve_left (by simp [hfirst])
  rw [levelMoveLightnessWorkHandler_eq]
  by_cases harrives : (s.light.target.toNat : Int) =
      moveValue s.light.current s.light.rangeMin s.light.rangeMax s.light.delta
  · have hcurrent := eq_ofInt_of_toNat_eq harrives
    rw [if_pos harrives]
    simp [Quiescent, timerStop, setCounter, movedLight, AtRest, Scope.OthersAtRest, Scope.has,
      moveArrives, harrives, hcurrent, hcounter]
  · rw [if_neg harrives]
    simp [Quiescent, movedLight, moveArrives, harrives, h.running hcounter]

theorem levelMoveTempWorkHandler_quiescent (h : s.transition.Expired)
    (hfirst : s.transition.justStarted = false) :
    Quiescent s.levelMoveTempWorkHandler ↔
      ¬ (s.noTransitionQueued = false ∧ s.reset = true ∧ s.moveArrives .levelTemp = true ∧
        ¬ Scope.temp.OthersAtRest s) := by
  have hcounter : s.transition.counter ≠ 0 := h.progress.resolve_left (by simp [hfirst])
  rw [levelMoveTempWorkHandler_eq]
  by_cases harrives : (s.temp.target.toNat : Int) =
      moveValue s.temp.current s.temp.rangeMin s.temp.rangeMax s.temp.delta
  · have hcurrent := eq_ofInt_of_toNat_eq harrives
    rw [if_pos harrives]
    simp [Quiescent, timerStop, setCounter, movedTemp, AtRest, Scope.OthersAtRest, Scope.has,
      moveArrives, harrives, hcurrent, hcounter]
  · rw [if_neg harrives]
    simp [Quiescent, movedTemp, moveArrives, harrives, h.running hcounter]

theorem levelMoveLightnessWorkHandler_timed (h : s.transition.Timed) :
    s.levelMoveLightnessWorkHandler.transition.Timed := by
  rw [levelMoveLightnessWorkHandler_eq]
  split
  · exact .of_stopped rfl
  · rw [updateLightState_transition]
    exact h

theorem levelMoveTempWorkHandler_timed (h : s.transition.Timed) :
    s.levelMoveTempWorkHandler.transition.Timed := by
  rw [levelMoveTempWorkHandler_eq]
  split
  · exact .of_stopped rfl
  · rw [updateLightState_transition]
    exact h

end Expiry

/-- The state the expiry function's work item starts from. -/
def expired (s : Server) : Server :=
  { s with transition := { s.transition with timer := { s.transition.timer with
      running := s.transition.timer.period ≠ 0 } } }

theorem expired_expired {s : Server} (h : s.transition.Timed)
    (hrunning : s.transition.timer.running = true) : s.expired.transition.Expired where
  timed :=
    { handler := fun _ => h.handler hrunning
      progress := fun _ => h.progress hrunning
      periodic := fun hperiodic _ => by simpa [expired] using hperiodic }
  progress := h.progress hrunning
  running hcounter := by simpa [expired] using h.periodic hrunning hcounter

theorem timerExpiry_eq {s : Server} {handler : TtHandler} (now : Int)
    (h : s.transition.timer.handler = some handler) :
    s.timerExpiry now = expiryWork handler now s.expired := by
  rw [timerExpiry, h]
  rfl

theorem expiryWork_timed (handler : TtHandler) (now : Int) {s : Server}
    (h : s.transition.Expired) : (expiryWork handler now s).transition.Timed := by
  have hlevel (move step arrive : Server → Server)
      (hmove : (move s).transition.Timed)
      (hstep : ∀ s : Server, (step s).transition = s.transition) :
      (levelWorkHandler move step arrive now s).transition.Timed := by
    unfold levelWorkHandler
    split
    · exact hmove
    · exact workHandler_timed hstep h
  cases handler with
  | onoff => exact workHandler_timed (fun _ => rfl) h
  | levelLightness =>
    exact hlevel _ _ _ (levelMoveLightnessWorkHandler_timed h.timed) fun _ => rfl
  | levelTemp => exact hlevel _ _ _ (levelMoveTempWorkHandler_timed h.timed) fun _ => rfl
  | lightLightnessActual => exact workHandler_timed (fun _ => rfl) h
  | lightLightnessLinear => exact workHandler_timed (fun _ => rfl) h
  | lightCtl => exact workHandler_timed (fun _ => rfl) h
  | lightCtlTemp => exact workHandler_timed (fun _ => rfl) h

/-- Only the end of a Move strands. -/
theorem expiryWork_quiescent (handler : TtHandler) (now : Int) {s : Server}
    (h : s.transition.Expired) : Quiescent (expiryWork handler now s) ↔
      ¬ (s.noTransitionQueued = false ∧ s.reset = true ∧ s.transition.justStarted = false ∧
        s.transition.type = some .move ∧ s.moveArrives handler = true ∧
        ¬ handler.moveScope.OthersAtRest s) := by
  have hplain (step arrive : Server → Server)
      (hstep : ∀ s : Server, (step s).transition = s.transition)
      (harrive : ∀ s : Server, (arrive s).transition = s.transition)
      (hhandler : s.moveArrives handler = false) :
      Quiescent (workHandler step arrive now s) ↔
        ¬ (s.noTransitionQueued = false ∧ s.reset = true ∧ s.transition.justStarted = false ∧
          s.transition.type = some .move ∧ s.moveArrives handler = true ∧
          ¬ handler.moveScope.OthersAtRest s) := by
    refine iff_of_true (workHandler_quiescent hstep harrive h) ?_
    simp [hhandler]
  have hlevel (move step arrive : Server → Server)
      (hstep : ∀ s : Server, (step s).transition = s.transition)
      (harrive : ∀ s : Server, (arrive s).transition = s.transition)
      (hmove : s.transition.justStarted = false → (Quiescent (move s) ↔
        ¬ (s.noTransitionQueued = false ∧ s.reset = true ∧ s.moveArrives handler = true ∧
          ¬ handler.moveScope.OthersAtRest s))) :
      Quiescent (levelWorkHandler move step arrive now s) ↔
        ¬ (s.noTransitionQueued = false ∧ s.reset = true ∧ s.transition.justStarted = false ∧
          s.transition.type = some .move ∧ s.moveArrives handler = true ∧
          ¬ handler.moveScope.OthersAtRest s) := by
    unfold levelWorkHandler
    by_cases hif : ¬ s.transition.justStarted ∧ s.transition.type = some .move
    · have hfirst : s.transition.justStarted = false := by simpa using hif.1
      rw [if_pos hif, hmove hfirst]
      simp [hfirst, hif.2]
    · rw [if_neg hif]
      refine iff_of_true (workHandler_quiescent hstep harrive h) ?_
      rintro ⟨_, _, hfirst, htype, _⟩
      exact hif ⟨by simp [hfirst], htype⟩
  cases handler with
  | onoff => exact hplain _ _ (fun _ => rfl) (fun _ => rfl) rfl
  | levelLightness =>
    exact hlevel _ _ _ (fun _ => rfl) (fun _ => rfl) (levelMoveLightnessWorkHandler_quiescent h)
  | levelTemp =>
    exact hlevel _ _ _ (fun _ => rfl) (fun _ => rfl) (levelMoveTempWorkHandler_quiescent h)
  | lightLightnessActual => exact hplain _ _ (fun _ => rfl) (fun _ => rfl) rfl
  | lightLightnessLinear => exact hplain _ _ (fun _ => rfl) (fun _ => rfl) rfl
  | lightCtl => exact hplain _ _ (fun _ => rfl) (fun _ => rfl) rfl
  | lightCtlTemp => exact hplain _ _ (fun _ => rfl) (fun _ => rfl) rfl

end Server

/-! ## Steps -/

theorem Server.Keeps.timed {s s' : Server} (h : s.Keeps s') (ht : s.transition.Timed) :
    s'.transition.Timed := by
  obtain ⟨_, _, _, _, _, _, _, _, _, _, _, _, rfl⟩ := h
  exact ⟨ht.handler, ht.progress, ht.periodic⟩

theorem Server.Keeps.quiescent {s s' : Server} (h : s.Keeps s') (hq : Quiescent s) :
    Quiescent s' := by
  obtain ⟨_, _, _, _, _, _, _, _, _, _, _, _, rfl⟩ := h
  exact hq

theorem Message.setRanges_cases (m : Message) (s : Server) :
    ∃ lightMin lightMax tempMin tempMax, m.setRanges s =
      { s with
        light := { s.light with rangeMin := lightMin, rangeMax := lightMax }
        temp := { s.temp with rangeMin := tempMin, rangeMax := tempMax } } := by
  unfold Message.setRanges
  split
  · exact ⟨_, _, s.temp.rangeMin, s.temp.rangeMax, rfl⟩
  · split
    · exact ⟨s.light.rangeMin, s.light.rangeMax, _, _, rfl⟩
    · exact ⟨_, _, _, _, rfl⟩

theorem quiescent_of_forgetStatus {s s' : Server} (h : s.forgetStatus = s'.forgetStatus) :
    Quiescent s ↔ Quiescent s' := by
  show Quiescent s.forgetStatus ↔ Quiescent s'.forgetStatus
  rw [h]

theorem timed_of_forgetStatus {s s' : Server} (h : s.forgetStatus = s'.forgetStatus)
    (hs' : s'.transition.Timed) : s.transition.Timed := by
  have hforget : s'.forgetStatus.transition.Timed :=
    ⟨hs'.handler, hs'.progress, hs'.periodic⟩
  rw [← h] at hforget
  exact ⟨hforget.handler, hforget.progress, hforget.periodic⟩

section Steps

variable (linearToActual : UInt16 → UInt16)

theorem Started.timed {a : Aim} {s' : Server} (h : Started a s')
    (hstopped : a.state.transition.timer.running = false) : s'.transition.Timed := by
  rcases h.timer with ⟨hrunning, hhandler, hperiod⟩ | ⟨_, htimer⟩
  · exact {
      handler := fun _ => by simp [hhandler]
      progress := fun _ => .inl h.justStarted
      periodic := fun _ => hperiod }
  · exact .of_stopped (by rw [htimer, hstopped])

theorem Started.quiescent {a : Aim} {s' : Server} (h : Started a s') : Quiescent s' := by
  intro hstopped hqueued
  rcases h.timer with ⟨hrunning, _⟩ | ⟨hqueued', _⟩
  · simp [hrunning] at hstopped
  · simp [hqueued'] at hqueued

theorem receive_timed {m : Message} {s : Server} (h : s.transition.Timed) :
    (receive linearToActual m s).transition.Timed := by
  cases haccept : m.accept linearToActual s with
  | none =>
    refine (receive_of_none haccept).timed ?_
    obtain ⟨_, _, _, _, heq⟩ := m.setRanges_cases s
    rw [heq]
    exact h
  | some a =>
    have haccepted := Message.accepted_of_accept haccept
    refine timed_of_forgetStatus (receive_of_some haccept) ?_
    cases hreturns : a.returns with
    | false => exact (a.finish_started m.ctx haccepted.counter hreturns).timed haccepted.stopped
    | true =>
      rw [a.finish_of_returns m.ctx haccepted.counter hreturns]
      exact .of_stopped haccepted.stopped

theorem receive_quiescent {m : Message} {s : Server} (hq : Quiescent s) :
    Quiescent (receive linearToActual m s) ↔ ¬ Strands linearToActual s (.message m) := by
  cases haccept : m.accept linearToActual s with
  | none =>
    refine iff_of_true ((receive_of_none haccept).quiescent ?_) (by simp [Strands, haccept])
    obtain ⟨_, _, _, _, heq⟩ := m.setRanges_cases s
    rw [heq]
    exact hq
  | some a =>
    have haccepted := Message.accepted_of_accept haccept
    rw [quiescent_of_forgetStatus (receive_of_some haccept)]
    simp only [Strands, haccept]
    by_cases harrived : a.starter.scope.arrived a.state = true
    · have hreturns : a.returns = true := by simp [Aim.returns, harrived]
      rw [a.finish_of_returns m.ctx haccepted.counter hreturns, if_pos harrived]
      simp [Quiescent, haccepted.stopped, haccepted.noTransitionQueued,
        a.starter.scope.atRest_iff, harrived, haccepted.othersAtRest]
    · rw [if_neg harrived]
      by_cases hzero : a.state.transition.type = some .move ∧ a.state.transition.tt &&& 0x3F = 0
      · have hreturns : a.returns = true := by simp [Aim.returns, hzero]
        rw [a.finish_of_returns m.ctx haccepted.counter hreturns]
        simp [Quiescent, haccepted.stopped, haccepted.noTransitionQueued,
          a.starter.scope.atRest_iff, harrived, hzero]
      · have hreturns : a.returns = false := by
          simpa [Aim.returns, harrived] using hzero
        refine iff_of_true ?_ fun h => hzero h.2
        exact (a.finish_started m.ctx haccepted.counter hreturns).quiescent

theorem step_timed (s : Server) (e : Event) (h : s.transition.Timed) :
    (step linearToActual s e).transition.Timed := by
  cases e with
  | message m => exact receive_timed linearToActual h
  | query q now => exact (q.get_keeps now s).timed h
  | timerExpiry now =>
    show (if s.transition.timer.running then s.timerExpiry now else s).transition.Timed
    split
    · rename_i hrunning
      obtain ⟨handler, hhandler⟩ := Option.isSome_iff_exists.mp (h.handler hrunning)
      rw [Server.timerExpiry_eq now hhandler]
      exact Server.expiryWork_timed handler now (Server.expired_expired h hrunning)
    · exact h
  | noTransitionWork =>
    show (if s.noTransitionQueued then _ else s).transition.Timed
    split
    · obtain ⟨last, leds, effects, heq⟩ := Server.noTransitionWorkHandler_eq
        { s with noTransitionQueued := false }
      rw [heq]
      exact h
    · exact h

/-- In a state the invariant holds of, a step ends in a quiescent state unless it strands. -/
theorem step_quiescent_iff (s : Server) (e : Event) (h : s.transition.Timed) (hq : Quiescent s) :
    Quiescent (step linearToActual s e) ↔ ¬ Strands linearToActual s e := by
  cases e with
  | message m => exact receive_quiescent linearToActual hq
  | query q now => exact iff_of_true ((q.get_keeps now s).quiescent hq) fun h => h
  | timerExpiry now =>
    show Quiescent (if s.transition.timer.running then s.timerExpiry now else s) ↔ _
    by_cases hrunning : s.transition.timer.running = true
    · obtain ⟨handler, hhandler⟩ := Option.isSome_iff_exists.mp (h.handler hrunning)
      rw [if_pos hrunning, Server.timerExpiry_eq now hhandler,
        Server.expiryWork_quiescent handler now (Server.expired_expired h hrunning)]
      simp only [Strands, hrunning, hhandler, true_and]
      rfl
    · rw [if_neg hrunning]
      exact iff_of_true hq fun h => hrunning h.1
  | noTransitionWork =>
    show Quiescent (if s.noTransitionQueued then _ else s) ↔ _
    refine iff_of_true ?_ fun h => h
    split
    · obtain ⟨last, leds, effects, heq⟩ := Server.noTransitionWorkHandler_eq
        { s with noTransitionQueued := false }
      rw [heq]
      exact fun _ _ => ⟨rfl, rfl, rfl⟩
    · exact hq

end Steps

/-! ## Runs -/

theorem Booted.timed {s : Server} (h : Booted s) : s.transition.Timed := by
  obtain ⟨loaded, hloaded, rfl⟩ := h
  obtain ⟨light, temp, duv, heq, _⟩ := lightDefaultStatusInit_eq loaded
  rw [heq]
  show loaded.transition.Timed
  rw [hloaded.transition]
  exact .of_stopped rfl

theorem Booted.atRest {s : Server} (h : Booted s) : s.AtRest := by
  obtain ⟨loaded, hloaded, rfl⟩ := h
  obtain ⟨light, temp, duv, heq, hlight, htemp, hduv, _⟩ := lightDefaultStatusInit_eq loaded
  rw [heq]
  exact ⟨hlight, htemp, hduv⟩

/-- From boot, a run stays quiescent exactly as long as no step of it strands an attribute. -/
theorem always_quiescent_iff (linearToActual : UInt16 → UInt16) {s : Server} (h : Booted s)
    (es : List Event) :
    Runs.Always (step linearToActual) Quiescent s es ↔
      Runs.Along (step linearToActual) (fun s e => ¬ Strands linearToActual s e) s es :=
  Runs.always_iff_along (step linearToActual) (step_timed linearToActual)
    (step_quiescent_iff linearToActual) h.timed (fun _ _ => h.atRest) es

/-- The state a node without stored settings boots into. -/
def bootState : Server := lightDefaultStatusInit lightDefaultVarInit

theorem booted_bootState : Booted bootState := ⟨_, loaded_lightDefaultVarInit, rfl⟩

/-- A Generic Move Set Unacknowledged with delta -1, to be made in the default transition time. -/
def moveDown : Message where
  request := .genMove
  acked := false
  ctx := { addr := 0x0100, recvDst := 0x0101, now := 10000 }
  buf := [0xFF, 0xFF, 1]

/-- The default transition time is zero, so the Move sets the target to the bottom of the range and
returns with the light at the top. -/
theorem not_always_quiescent : ¬ ∀ (linearToActual : UInt16 → UInt16) (s : Server), Booted s →
    ∀ es, Runs.Always (step linearToActual) Quiescent s es := by
  intro h
  have hrun := h id bootState booted_bootState [.message moveDown]
  have hquiescent : Quiescent (receive id moveDown bootState) := hrun.2
  have hrest := hquiescent rfl rfl
  exact absurd hrest (by decide)

/-- Switching the light off and running the work item strands nothing. -/
theorem always_quiescent_switchOff :
    Booted bootState ∧ Runs.Always (step id) Quiescent bootState
      [.message ⟨.genOnoff, true, { addr := 0x0100, recvDst := 0x0101, now := 10000 }, [0, 1]⟩,
        .noTransitionWork] := by
  refine ⟨booted_bootState, (always_quiescent_iff id booted_bootState _).mpr ?_⟩
  decide

end Lighting
end ZephyrSamples
