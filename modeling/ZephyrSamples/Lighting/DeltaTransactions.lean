import ZephyrSamples.Lighting.DeltaTarget
import ZephyrSamples.Lighting.Move
import ZephyrSamples.Lighting.StoredStates
import ZephyrSamples.Lighting.Transactions

/-!
# Transactions of Delta Sets

A Delta Set of the transaction under way is a repetition if its delta is the one the attribute moves
by, and is added to the level the transaction started from otherwise.  The field it is compared with
holds the delta of a tick once a transition is set up, and each of the four handlers remembers the
levels of the transactions it began itself.
-/

namespace ZephyrSamples
namespace Lighting

open Runs Server

/-! ## Delta Set messages -/

/-- The attribute a Delta Set is for. -/
def Message.level (m : Message) : LevelServer := if m.request = .genDeltaTemp then .temp else .light

namespace LevelServer

def deltaHandler : LevelServer → Bool → DeltaHandler
  | .light, false => genDeltaUnack
  | .light, true => genDeltaAck
  | .temp, false => genDeltaUnackTemp
  | .temp, true => genDeltaAckTemp

/-- The target a level asks for. -/
def levelTarget (l : LevelServer) (level : Int16) (s : Server) : Int :=
  match l with
  | .light => boundLightness (level.toInt + 32768) s.light.delta s.light.rangeMin s.light.rangeMax
  | .temp => (s.levelToLightCtlTemp level).toNat

def setTarget (l : LevelServer) (target : UInt16) (s : Server) : Server :=
  match l with
  | .light => s.setLightTarget target
  | .temp => s.setTempTarget target

end LevelServer

def Message.deltaHandler (m : Message) : DeltaHandler := m.level.deltaHandler m.acked

section Accept

variable {linearToActual : UInt16 → UInt16} {m : Message} {s : Server}

theorem accept_of_isDelta (hdelta : m.request.isDelta = true)
    (hlong : m.request.minLen ≤ m.buf.length) :
    m.accept linearToActual s = m.deltaHandler.accept linearToActual m.ctx m.buf s := by
  obtain ⟨request, acked, ctx, buf⟩ := m
  rw [Message.accept, if_neg (Nat.not_lt.mpr hlong)]
  cases request with
  | genDelta => cases acked <;> rfl
  | genDeltaTemp => cases acked <;> rfl
  | _ => cases hdelta

theorem receive_of_isDelta (hdelta : m.request.isDelta = true)
    (hlong : m.request.minLen ≤ m.buf.length) :
    (receive linearToActual m s).forgetStatus =
      (m.deltaHandler.setUnack linearToActual m.ctx m.buf s).forgetStatus := by
  obtain ⟨request, acked, ctx, buf⟩ := m
  rw [receive, if_neg (Nat.not_lt.mpr hlong)]
  cases acked with
  | false =>
    cases request with
    | genDelta => rfl
    | genDeltaTemp => rfl
    | _ => cases hdelta
  | true =>
    cases request with
    | genDelta => exact genDeltaAck.set_forgetStatus linearToActual ctx buf s
    | genDeltaTemp => exact genDeltaAckTemp.set_forgetStatus linearToActual ctx buf s
    | _ => cases hdelta

end Accept

/-! ## The checks of a message -/

section Inspect

variable {h : DeltaHandler} {ctx : MsgCtx} {buf : Buf} {s : Server}

/-- What the checks let through. -/
def Verdict.value {α : Type} : Verdict α → Option α
  | .fresh v _ _ _ => some v
  | _ => none

theorem isSome_optionalFields (buf : Buf) (s s' : Server) :
    (optionalFields buf s).isSome = (optionalFields buf s').isSome := by
  unfold optionalFields
  split
  · rfl
  · split <;> rfl
  · rfl

theorem DeltaHandler.inspect_repeated
    (hrepeat : s.isRepeat (pullU8 (pullLe32 buf).2).1 ctx = true)
    (hsame : h.delta s = (Int32.ofInt (pullLe32 buf).1.toNat).toInt) :
    h.inspect ctx buf s = (.repeated, s) := by
  unfold DeltaHandler.inspect
  simp [hrepeat, hsame]

theorem DeltaHandler.inspect_again
    (hrepeat : s.isRepeat (pullU8 (pullLe32 buf).2).1 ctx = true)
    (hother : h.delta s ≠ (Int32.ofInt (pullLe32 buf).1.toNat).toInt) :
    (s.optionalFields (pullU8 (pullLe32 buf).2).2 = none → h.inspect ctx buf s = (.ignored, s)) ∧
    ∀ tt delay, s.optionalFields (pullU8 (pullLe32 buf).2).2 = some (tt, delay) →
      h.inspect ctx buf s = (.fresh ((h.lastLevel s.lastLevels).toInt32 +
        Int32.ofInt (pullLe32 buf).1.toNat) (pullU8 (pullLe32 buf).2).1 tt delay, s) := by
  unfold DeltaHandler.inspect
  dsimp only
  generalize Int32.ofInt (pullLe32 buf).1.toNat = delta at hother ⊢
  refine ⟨fun hfields => ?_, fun tt delay hfields => ?_⟩
  · simp [hrepeat, hother, hfields]
  · simp [hrepeat, hother, hfields]

end Inspect

/-! ## A copy of a message -/

theorem assignTarget_effects (linearToActual : UInt16 → UInt16) (t : Target) (s : Server) :
    (s.assignTarget linearToActual t).effects = s.effects := by
  cases t with
  | onoff onoff =>
    simp only [assignTarget]
    split_ifs <;> rfl
  | deltaLevelLight level =>
    simp only [assignTarget, constrainTargetLightness2]
    split_ifs <;> rfl
  | _ => rfl

theorem timerStarts_setTarget (linearToActual : UInt16 → UInt16) (t : Target) (s : Server) :
    (s.setTarget linearToActual t).timerStarts = s.timerStarts := by
  have heffects := assignTarget_effects linearToActual t s
  unfold setTarget timerStarts
  dsimp only
  split
  · simp [saveOnFlash, heffects, Effect.isTimerStart, List.countP_append]
  · rw [heffects]

/-- The state in which the target of a Delta Set is set. -/
theorem LevelServer.deltaAim_eq (linearToActual : UInt16 → UInt16) (l : LevelServer) (acked : Bool)
    (target : Int32) (tid tt delay : UInt8) (ctx : MsgCtx) (s : Server) :
    ∃ (word : UInt16) (effects : List Effect),
      (word.toNat : ℤ) = l.levelTarget (DeltaHandler.clampLevel target) s ∧
      effects.countP Effect.isTimerStart = s.timerStarts ∧
      (l.deltaHandler acked).aim linearToActual target tid tt delay ctx s =
        { l.setTarget word (s.beginTransition .nonMove tid tt delay ctx) with
          effects := effects } := by
  let begun := s.beginTransition .nonMove tid tt delay ctx
  have hbegun : begun.timerStarts = s.timerStarts := by
    simp [begun, timerStarts, beginTransition, timerStop, setCounter, Effect.isTimerStart,
      List.countP_append]
  cases l with
  | light =>
    obtain ⟨effects, heq⟩ := Scope.setTarget_eq linearToActual
      (.deltaLevelLight (DeltaHandler.clampLevel target)) begun
    have hstarts := timerStarts_setTarget linearToActual
      (.deltaLevelLight (DeltaHandler.clampLevel target)) begun
    have hvalue := deltaLevel_eq linearToActual (DeltaHandler.clampLevel target) begun
    obtain ⟨light, temp, duv, effects', hassign, -, htemp, hduv⟩ :=
      Scope.aims_assignTarget linearToActual
        (t := .deltaLevelLight (DeltaHandler.clampLevel target))
        (show Scope.light.has .light = true from rfl) begun
    rw [heq] at hstarts
    rw [hassign] at hvalue
    refine ⟨light, effects, hvalue, hstarts.trans hbegun, ?_⟩
    have haim :
        (LevelServer.light.deltaHandler acked).aim linearToActual target tid tt delay ctx s =
        begun.setTarget linearToActual (.deltaLevelLight (DeltaHandler.clampLevel target)) := by
      cases acked <;> rfl
    rw [haim, heq, hassign, htemp rfl, hduv rfl]
    rfl
  | temp =>
    obtain ⟨effects, heq⟩ := Scope.setTarget_eq linearToActual
      (.levelTemp (DeltaHandler.clampLevel target)) begun
    have hstarts := timerStarts_setTarget linearToActual
      (.levelTemp (DeltaHandler.clampLevel target)) begun
    rw [heq] at hstarts
    refine ⟨begun.levelToLightCtlTemp (DeltaHandler.clampLevel target), effects, rfl,
      hstarts.trans hbegun, ?_⟩
    have haim : (LevelServer.temp.deltaHandler acked).aim linearToActual target tid tt delay ctx s =
        begun.setTarget linearToActual (.levelTemp (DeltaHandler.clampLevel target)) := by
      cases acked <;> rfl
    rw [haim, heq]
    rfl

theorem Scope.arrived_congr {scope : Scope} {s s' : Server} (hlight : s'.light = s.light)
    (htemp : s'.temp = s.temp) (hduv : s'.duv = s.duv) : scope.arrived s' = scope.arrived s := by
  cases scope <;> simp only [arrived, lightArrived, tempArrived, duvArrived, hlight, htemp, hduv]

theorem LevelServer.setTarget_attributes (l : LevelServer) (target : UInt16) (s : Server) :
    ((l.setTarget target s).light = s.light ∧ (l.setTarget target s).temp = s.temp ↔
      target = l.target s) ∧
    ((l.deltaHandler true).scope.arrived (l.setTarget target s) = true ↔ l.current s = target) := by
  cases l with
  | light =>
    refine ⟨⟨fun h => congrArg Lightness.target h.1, ?_⟩, ?_⟩
    · rintro rfl
      exact ⟨rfl, rfl⟩
    · simp [deltaHandler, genDeltaAck, genDelta, Scope.arrived, lightArrived, setTarget,
        setLightTarget, current]
  | temp =>
    refine ⟨⟨fun h => congrArg Temperature.target h.2, ?_⟩, ?_⟩
    · rintro rfl
      exact ⟨rfl, rfl⟩
    · simp [deltaHandler, genDeltaAckTemp, genDeltaTemp, Scope.arrived, tempArrived, setTarget,
        setTempTarget, current]

/-- The attributes and the transition are as they were, and the timer has not been started. -/
structure Undisturbed (s s' : Server) : Prop where
  light : s'.light = s.light
  temp : s'.temp = s.temp
  duv : s'.duv = s.duv
  counter : s'.transition.counter = s.transition.counter
  justStarted : s'.transition.justStarted = s.transition.justStarted
  timer : s'.transition.timer = s.transition.timer
  timerStarts : s'.timerStarts = s.timerStarts

theorem undisturbed_of_forgetStatus {s s' s'' : Server} (h : s''.forgetStatus = s'.forgetStatus) :
    Undisturbed s s'' ↔ Undisturbed s s' := by
  have hforget (t : Server) : Undisturbed s t.forgetStatus ↔ Undisturbed s t :=
    ⟨fun ⟨h₁, h₂, h₃, h₄, h₅, h₆, h₇⟩ => ⟨h₁, h₂, h₃, h₄, h₅, h₆, h₇⟩,
      fun ⟨h₁, h₂, h₃, h₄, h₅, h₆, h₇⟩ => ⟨h₁, h₂, h₃, h₄, h₅, h₆, h₇⟩⟩
  rw [← hforget s'', h, hforget]

/-- The message is told for a repetition by the delta the attribute moves by, or nothing is under
way and its target is where the attribute is and is to be. -/
def Message.Harmless (m : Message) (s : Server) : Prop :=
  m.deltaHandler.delta s = m.delta.toInt ∨
    (s.transition.counter = 0 ∧ s.transition.timer.running = false ∧
      m.level.levelTarget (DeltaHandler.clampLevel
        ((m.deltaHandler.lastLevel s.lastLevels).toInt32 + m.delta)) s = (m.level.target s).toNat ∧
      m.level.target s = m.level.current s)

section Copy

variable {linearToActual : UInt16 → UInt16} {m : Message} {s : Server}

theorem Message.deltaHandler_scope (m : Message) :
    m.deltaHandler.scope = (m.level.deltaHandler true).scope := by
  unfold Message.deltaHandler
  cases m.level <;> cases m.acked <;> rfl

theorem Message.tid_of_isDelta (hdelta : m.request.isDelta = true) :
    (pullU8 (pullLe32 m.buf).2).1 = m.tid := by
  obtain ⟨request, acked, ctx, buf⟩ := m
  rw [tid_delta]
  cases request with
  | genDelta => rfl
  | genDeltaTemp => rfl
  | _ => cases hdelta

variable (linearToActual) in
/-- What a message of the transaction under way with another delta goes on with. -/
theorem accept_again (hdelta : m.request.isDelta = true) (hlong : m.request.minLen ≤ m.buf.length)
    (hrepeat : s.isRepeat m.tid m.ctx = true)
    (hfields : (s.optionalFields (pullU8 (pullLe32 m.buf).2).2).isSome = true)
    (hother : m.deltaHandler.delta s ≠ m.delta.toInt) :
    ∃ (a : Aim) (word : UInt16) (effects : List Effect) (tt delay : UInt8),
      m.accept linearToActual s = some a ∧ a.starter = m.deltaHandler.toStarter ∧
      (word.toNat : ℤ) = m.level.levelTarget (DeltaHandler.clampLevel
        ((m.deltaHandler.lastLevel s.lastLevels).toInt32 + m.delta)) s ∧
      effects.countP Effect.isTimerStart = s.timerStarts ∧
      a.state = { m.level.setTarget word (s.beginTransition .nonMove m.tid tt delay m.ctx) with
        effects := effects } := by
  have htid := m.tid_of_isDelta hdelta
  obtain ⟨⟨tt, delay⟩, hfields⟩ := Option.isSome_iff_exists.mp hfields
  rw [← htid] at hrepeat
  have hinspect := (DeltaHandler.inspect_again hrepeat hother).2 tt delay hfields
  obtain ⟨word, effects, hword, hstarts, haim⟩ := m.level.deltaAim_eq linearToActual m.acked
    ((m.deltaHandler.lastLevel s.lastLevels).toInt32 + m.delta) m.tid tt delay m.ctx s
  refine ⟨⟨m.deltaHandler.toStarter, m.deltaHandler.aim linearToActual
    ((m.deltaHandler.lastLevel s.lastLevels).toInt32 + m.delta) m.tid tt delay m.ctx s⟩,
    word, effects, tt, delay, ?_, rfl, hword, hstarts, haim⟩
  rw [accept_of_isDelta hdelta hlong, DeltaHandler.accept, hinspect, htid]
  rfl

/-- What its transition is to go on with: the attribute's new target in a transaction begun anew. -/
structure AimedAt (m : Message) (s : Server) (word : UInt16) (a : Aim) : Prop where
  light : a.state.light = (m.level.setTarget word s).light
  temp : a.state.temp = (m.level.setTarget word s).temp
  duv : a.state.duv = s.duv
  transition : ∃ tt delay,
    a.state.transition = (s.beginTransition .nonMove m.tid tt delay m.ctx).transition
  timerStarts : a.state.timerStarts = s.timerStarts
  arrived : a.starter.scope.arrived a.state = true ↔ m.level.current s = word

variable (linearToActual) in
theorem aimedAt_again (hdelta : m.request.isDelta = true)
    (hlong : m.request.minLen ≤ m.buf.length) (hrepeat : s.isRepeat m.tid m.ctx = true)
    (hfields : (s.optionalFields (pullU8 (pullLe32 m.buf).2).2).isSome = true)
    (hother : m.deltaHandler.delta s ≠ m.delta.toInt) :
    ∃ (a : Aim) (word : UInt16), m.accept linearToActual s = some a ∧
      a.starter = m.deltaHandler.toStarter ∧ AimedAt m s word a ∧
      (word.toNat : ℤ) = m.level.levelTarget (DeltaHandler.clampLevel
        ((m.deltaHandler.lastLevel s.lastLevels).toInt32 + m.delta)) s := by
  obtain ⟨a, word, effects, tt, delay, haccept, hstarter, hword, hstarts, hstate⟩ :=
    accept_again linearToActual hdelta hlong hrepeat hfields hother
  have hlight : a.state.light = (m.level.setTarget word s).light := by
    rw [hstate]
    cases m.level <;> rfl
  have htemp : a.state.temp = (m.level.setTarget word s).temp := by
    rw [hstate]
    cases m.level <;> rfl
  have hduv : a.state.duv = s.duv := by
    rw [hstate]
    cases m.level <;> rfl
  refine ⟨a, word, haccept, hstarter, ⟨hlight, htemp, hduv, ⟨tt, delay, ?_⟩, ?_, ?_⟩, hword⟩
  · rw [hstate]
    cases m.level <;> rfl
  · rw [timerStarts, hstate]
    exact hstarts
  · rw [← (m.level.setTarget_attributes word s).2, hstarter, m.deltaHandler_scope,
      Scope.arrived_congr hlight htemp]
    rw [hduv]
    cases m.level <;> rfl

/-- An attribute on its target has its transition taken away. -/
theorem undisturbed_returns_iff {word : UInt16} {a : Aim} (h : AimedAt m s word a)
    (hcounter : a.state.transition.counter = 0) (hcurrent : m.level.current s = word) :
    Undisturbed s (a.finish m.ctx) ↔
      s.transition.counter = 0 ∧ s.transition.timer.running = false ∧
        word = m.level.target s ∧ m.level.target s = m.level.current s := by
  have hattributes := (m.level.setTarget_attributes word s).1
  have hreturns : a.returns = true := by rw [Aim.returns, h.arrived.mpr hcurrent, Bool.true_or]
  obtain ⟨tt, delay, htransition⟩ := h.transition
  rw [a.finish_of_returns m.ctx hcounter hreturns]
  constructor
  · intro hsame
    have htarget := hattributes.mp ⟨h.light ▸ hsame.light, h.temp ▸ hsame.temp⟩
    have hcounter := hsame.counter
    have htimer := congrArg Timer.running hsame.timer
    rw [htransition] at hcounter htimer
    exact ⟨hcounter.symm, htimer.symm, htarget, htarget.symm.trans hcurrent.symm⟩
  · rintro ⟨hcounter, hstopped, htarget, -⟩
    obtain ⟨hsameLight, hsameTemp⟩ := hattributes.mpr htarget
    refine ⟨h.light.trans hsameLight, h.temp.trans hsameTemp, h.duv, ?_, ?_, ?_, h.timerStarts⟩
    all_goals rw [htransition]
    · exact hcounter.symm
    · rfl
    · show ({ s.transition.timer with running := false } : Timer) = s.transition.timer
      rw [← hstopped]

/-- An attribute that is not on its target is put there, or the timer is started for it. -/
theorem disturbed_of_starts {word : UInt16} {a : Aim} (h : AimedAt m s word a)
    (hcounter : a.state.transition.counter = 0) (hstarter : a.starter = m.deltaHandler.toStarter)
    (hcurrent : m.level.current s ≠ word) : ¬ Undisturbed s (a.finish m.ctx) := by
  intro hsame
  obtain ⟨tt, delay, htransition⟩ := h.transition
  have htype : a.state.transition.type ≠ some .move := by
    rw [htransition]
    simp [beginTransition]
  have hreturns : a.returns = false := by
    rw [Aim.returns, Bool.eq_false_iff.mpr fun hput => hcurrent (h.arrived.mp hput)]
    simp [htype]
  have hstarted := a.finish_started m.ctx hcounter hreturns
  by_cases hsteps : (a.finish m.ctx).transition.counter = 0
  · -- A transition without steps puts the attribute on its target at once.
    obtain ⟨hsettled, hsettledTemp⟩ := hstarted.settled hsteps htype
    refine hcurrent ?_
    rw [hstarter, m.deltaHandler_scope] at hsettled hsettledTemp
    have hlight := h.light
    have htemp := h.temp
    cases hl : m.level with
    | light =>
      rw [hl] at hsettled hlight
      have hput := hsettled rfl
      rw [hsame.light, hlight] at hput
      exact hput
    | temp =>
      rw [hl] at hsettledTemp htemp
      have hput := hsettledTemp rfl
      rw [hsame.temp, htemp] at hput
      exact hput
  · have hmore := hstarted.timerStarts hsteps
    rw [hsame.timerStarts, h.timerStarts] at hmore
    exact lt_irrefl _ hmore

/-- It disturbs what it finds unless nothing is under way and its target is where the attribute is
and is to be. -/
theorem undisturbed_again_iff (hdelta : m.request.isDelta = true)
    (hlong : m.request.minLen ≤ m.buf.length) (hrepeat : s.isRepeat m.tid m.ctx = true)
    (hfields : (s.optionalFields (pullU8 (pullLe32 m.buf).2).2).isSome = true)
    (hother : m.deltaHandler.delta s ≠ m.delta.toInt) :
    Undisturbed s (receive linearToActual m s) ↔ m.Harmless s := by
  obtain ⟨a, word, haccept, hstarter, haimed, hword⟩ :=
    aimedAt_again linearToActual hdelta hlong hrepeat hfields hother
  have hcounter := (Message.accepted_of_accept haccept).counter
  rw [undisturbed_of_forgetStatus (receive_of_some haccept), Message.Harmless,
    or_iff_right hother, ← hword, Int.natCast_inj, UInt16.toNat_inj]
  by_cases hcurrent : m.level.current s = word
  · exact undisturbed_returns_iff haimed hcounter hcurrent
  · refine iff_of_false (disturbed_of_starts haimed hcounter hstarter hcurrent) fun h => ?_
    exact hcurrent (h.2.2.2.symm.trans h.2.2.1.symm)

/-- A message with the delta the attribute moves by is answered at most. -/
theorem receive_repeated (hdelta : m.request.isDelta = true)
    (hlong : m.request.minLen ≤ m.buf.length) (hrepeat : s.isRepeat m.tid m.ctx = true)
    (hsame : m.deltaHandler.delta s = m.delta.toInt) :
    (receive linearToActual m s).forgetStatus = s.forgetStatus := by
  rw [← m.tid_of_isDelta hdelta] at hrepeat
  rw [receive_of_isDelta hdelta hlong, DeltaHandler.setUnack,
    DeltaHandler.inspect_repeated hrepeat hsame]

theorem undisturbed_iff (hdelta : m.request.isDelta = true)
    (hlong : m.request.minLen ≤ m.buf.length) (hrepeat : s.isRepeat m.tid m.ctx = true)
    (hfields : (s.optionalFields (pullU8 (pullLe32 m.buf).2).2).isSome = true) :
    Undisturbed s (receive linearToActual m s) ↔ m.Harmless s := by
  by_cases hsame : m.deltaHandler.delta s = m.delta.toInt
  · refine iff_of_true ?_ (.inl hsame)
    rw [undisturbed_of_forgetStatus (receive_repeated hdelta hlong hrepeat hsame)]
    exact ⟨rfl, rfl, rfl, rfl, rfl, rfl, rfl⟩
  · exact undisturbed_again_iff hdelta hlong hrepeat hfields hsame

/-- The optional fields of an accepted message are all there or all missing. -/
theorem optionalFields_of_accept (hdelta : m.request.isDelta = true)
    (haccept : (m.accept linearToActual s).isSome = true) (s' : Server) :
    (s'.optionalFields (pullU8 (pullLe32 m.buf).2).2).isSome = true := by
  obtain ⟨a, haccept⟩ := Option.isSome_iff_exists.mp haccept
  rw [accept_of_isDelta hdelta (Message.accepted_of_accept haccept).long] at haccept
  obtain ⟨_, tt, delay, _, hfields, -⟩ := DeltaHandler.accept_aim haccept
  rw [isSome_optionalFields _ s' s, hfields]
  rfl

end Copy

/-- The event is no message. -/
def Silent : Event → Prop
  | .message _ => False
  | _ => True

/-- A copy of an accepted Delta Set that arrives within six seconds, with no message in between. -/
theorem copy_undisturbed_iff (linearToActual : UInt16 → UInt16) {m : Message} {s : Server}
    (hdelta : m.request.isDelta = true) (haccept : (m.accept linearToActual s).isSome = true)
    {mid : List Event} (hmid : ∀ e ∈ mid, Silent e) {now : Int} (hnow : now - m.ctx.now ≤ 6000) :
    Undisturbed (run (step linearToActual) (receive linearToActual m s) mid)
        (receive linearToActual (m.copy now)
          (run (step linearToActual) (receive linearToActual m s) mid)) ↔
      m.Harmless (run (step linearToActual) (receive linearToActual m s) mid) := by
  have hsame : Along (step linearToActual) (SameTransaction linearToActual m)
      (receive linearToActual m s) mid := by
    refine along_of_forall (step linearToActual) fun s e he => ?_
    cases e with
    | message n => exact (hmid _ he).elim
    | query q now => trivial
    | timerExpiry now => trivial
    | noTransitionWork => trivial
  have hlast := Along.invariant (step linearToActual) step_lastIs (receive_lastIs haccept) hsame
  obtain ⟨a, ha⟩ := Option.isSome_iff_exists.mp haccept
  exact undisturbed_iff (m := m.copy now) hdelta (Message.accepted_of_accept ha).long
    (hlast.isRepeat hnow) (optionalFields_of_accept hdelta haccept _)

/-! ## The levels the handlers remember -/

/-- The event is no Delta Set and no accepted message of a new transaction. -/
def Continues (linearToActual : UInt16 → UInt16) (s : Server) : Event → Prop
  | .message n => n.request.isDelta = true ∨ (n.accept linearToActual s).isSome = true →
      s.isRepeat n.tid n.ctx = true
  | _ => True

instance instDecidableContinues (linearToActual : UInt16 → UInt16) (s : Server) :
    ∀ e, Decidable (Continues linearToActual s e)
  | .message n => inferInstanceAs
      (Decidable (n.request.isDelta = true ∨ (n.accept linearToActual s).isSome = true → _))
  | .query _ _ | .timerExpiry _ | .noTransitionWork => instDecidableTrue

section Levels

variable {linearToActual : UInt16 → UInt16} {m : Message} {s : Server}

theorem finish_lastLevels {a : Aim} (haccept : m.accept linearToActual s = some a) :
    (receive linearToActual m s).lastLevels = a.state.lastLevels := by
  have haccepted := Message.accepted_of_accept haccept
  rw [lastLevels_of_forgetStatus (receive_of_some haccept)]
  cases hreturns : a.returns with
  | true => rw [a.finish_of_returns m.ctx haccepted.counter hreturns]
  | false => exact (a.finish_started m.ctx haccepted.counter hreturns).lastLevels

/-- A message of the transaction under way leaves the levels. -/
theorem receive_lastLevels (hsame : Continues linearToActual s (.message m)) :
    (receive linearToActual m s).lastLevels = s.lastLevels := by
  cases hdelta : m.request.isDelta with
  | false =>
    cases haccept : m.accept linearToActual s with
    | none => exact (receive_keepsDefaults hdelta haccept).lastLevels
    | some a =>
      -- Only a Delta Set is accepted again.
      have hrepeat := hsame (.inr (by rw [haccept]; rfl))
      rw [(Message.accepted_of_accept haccept).fresh
        (fun h => by simp [h, Request.isDelta] at hdelta)
        fun h => by simp [h, Request.isDelta] at hdelta] at hrepeat
      cases hrepeat
  | true =>
    have hrepeat := hsame (.inl hdelta)
    rcases Nat.lt_or_ge m.buf.length m.request.minLen with hshort | hlong
    · rw [receive, if_pos hshort]
    · by_cases hsent : m.deltaHandler.delta s = m.delta.toInt
      · exact lastLevels_of_forgetStatus (receive_repeated hdelta hlong hrepeat hsent)
      · by_cases hfields : (s.optionalFields (pullU8 (pullLe32 m.buf).2).2).isSome = true
        · obtain ⟨a, word, effects, tt, delay, haccept, -, -, -, hstate⟩ :=
            accept_again linearToActual hdelta hlong hrepeat hfields hsent
          rw [finish_lastLevels haccept, hstate]
          cases m.level <;> rfl
        · rw [← m.tid_of_isDelta hdelta] at hrepeat
          have hinspect := (DeltaHandler.inspect_again hrepeat hsent).1
            (Option.not_isSome_iff_eq_none.mp hfields)
          rw [lastLevels_of_forgetStatus (receive_of_isDelta hdelta hlong), DeltaHandler.setUnack,
            hinspect]

theorem step_lastLevels (s : Server) (e : Event) (hsame : Continues linearToActual s e) :
    (step linearToActual s e).lastLevels = s.lastLevels := by
  cases e with
  | message m => exact receive_lastLevels hsame
  | query q now =>
    have hreport (r : StatusReport) : (r.get now s).lastLevels = s.lastLevels := by
      obtain ⟨rt, sent, heq⟩ := r.get_eq now s
      rw [heq]
      rfl
    cases q <;> first | exact hreport _ | rfl
  | timerExpiry now =>
    show (if s.transition.timer.running then s.timerExpiry now else s).lastLevels = s.lastLevels
    split
    · obtain ⟨_, _, _, _, _, _, _, _, heq⟩ := s.advances_timerExpiry now
      rw [heq]
    · rfl
  | noTransitionWork =>
    show (if s.noTransitionQueued then _ else s).lastLevels = s.lastLevels
    split
    · obtain ⟨last, leds, effects, heq⟩ := noTransitionWorkHandler_eq
        { s with noTransitionQueued := false }
      rw [heq]
    · rfl

end Levels

/-- The two messages have the same handler. -/
def Message.SameForm (m n : Message) : Prop := n.level = m.level ∧ n.acked = m.acked

instance (m n : Message) : Decidable (m.SameForm n) := inferInstanceAs (Decidable (_ ∧ _))

/-- The checks let the message through, with a target that starts from the level. -/
def Message.StartsFrom (m : Message) (level : Int16) (s : Server) : Prop :=
  (m.deltaHandler.inspect m.ctx m.buf s).1.value = some (level.toInt32 + m.delta)

instance (m : Message) (level : Int16) (s : Server) : Decidable (m.StartsFrom level s) :=
  inferInstanceAs (Decidable (_ = _))

section Start

variable {linearToActual : UInt16 → UInt16} {m : Message} {s : Server}

theorem LevelServer.lastLevel_setLastLevel (l l' : LevelServer) (acked acked' : Bool)
    (level : Int16) (levels : LastLevels) :
    (l'.deltaHandler acked').lastLevel ((l.deltaHandler acked).setLastLevel level levels) =
      if l' = l ∧ acked' = acked then level else (l'.deltaHandler acked').lastLevel levels := by
  cases l <;> cases l' <;> cases acked <;> cases acked' <;> rfl

/-- The message that begins a transaction puts the level into the variable of its own handler. -/
theorem receive_new_lastLevels (hdelta : m.request.isDelta = true)
    (haccept : (m.accept linearToActual s).isSome = true)
    (hnew : s.isRepeat m.tid m.ctx = false) : (receive linearToActual m s).lastLevels =
      m.deltaHandler.setLastLevel (m.deltaHandler.level s) s.lastLevels := by
  obtain ⟨a, haccept⟩ := Option.isSome_iff_exists.mp haccept
  have hstatic (level : Int16) (levels : LastLevels) :
      m.deltaHandler.lastLevel (m.deltaHandler.setLastLevel level levels) = level :=
    (LevelServer.lastLevel_setLastLevel _ _ _ _ level levels).trans (if_pos ⟨rfl, rfl⟩)
  rw [finish_lastLevels haccept]
  rw [accept_of_isDelta hdelta (Message.accepted_of_accept haccept).long] at haccept
  rw [← m.tid_of_isDelta hdelta] at hnew
  obtain ⟨tt, delay, rfl⟩ := DeltaHandler.accept_new hstatic hnew haccept
  obtain ⟨word, effects, -, -, haim⟩ := m.level.deltaAim_eq linearToActual m.acked
    ((m.deltaHandler.level s).toInt32 + m.delta) (pullU8 (pullLe32 m.buf).2).1 tt delay m.ctx
    { s with lastLevels := m.deltaHandler.setLastLevel (m.deltaHandler.level s) s.lastLevels }
  refine (congrArg Server.lastLevels haim).trans ?_
  cases m.level <;> rfl

theorem toInt32_add_inj {level level' : Int16} {delta : Int32} :
    level.toInt32 + delta = level'.toInt32 + delta ↔ level = level' := by
  refine ⟨fun h => ?_, fun h => by rw [h]⟩
  have hwide := congrArg Int32.toInt ((Int32.add_left_inj delta).mp h)
  rw [Int16.toInt_toInt32, Int16.toInt_toInt32] at hwide
  exact Int16.toInt_inj.mp hwide

theorem startsFrom_iff (hrepeat : s.isRepeat m.tid m.ctx = true) (hdelta : m.request.isDelta = true)
    (hfields : (s.optionalFields (m.buf.drop 5)).isSome = true) (level : Int16) :
    m.StartsFrom level s ↔ m.deltaHandler.delta s ≠ m.delta.toInt ∧
      m.deltaHandler.lastLevel s.lastLevels = level := by
  have hdrop : (pullU8 (pullLe32 m.buf).2).2 = m.buf.drop 5 := by
    rw [pullU8_snd, pullLe32_snd, List.drop_drop]
  rw [← m.tid_of_isDelta hdelta] at hrepeat
  rw [← hdrop] at hfields
  unfold Message.StartsFrom
  by_cases hsame : m.deltaHandler.delta s = m.delta.toInt
  · rw [DeltaHandler.inspect_repeated hrepeat hsame]
    exact iff_of_false (by simp [Verdict.value]) fun h => h.1 hsame
  · obtain ⟨⟨tt, delay⟩, hfields⟩ := Option.isSome_iff_exists.mp hfields
    rw [(DeltaHandler.inspect_again hrepeat hsame).2 tt delay hfields]
    show some ((m.deltaHandler.lastLevel s.lastLevels).toInt32 + m.delta) = _ ↔ _
    rw [Option.some_inj, toInt32_add_inj]
    exact (and_iff_right hsame).symm

/-- A later message of the transaction starts from its level exactly if it is no repetition and its
handler remembers that level, because it began the transaction or by chance. -/
theorem later_startsFrom_iff (hdelta : m.request.isDelta = true)
    (haccept : (m.accept linearToActual s).isSome = true)
    (hnew : s.isRepeat m.tid m.ctx = false) {mid : List Event}
    (hmid : Along (step linearToActual) (Continues linearToActual) (receive linearToActual m s) mid)
    {n : Message} (hn : n.request.isDelta = true)
    (hrepeat : (run (step linearToActual) (receive linearToActual m s) mid).isRepeat n.tid n.ctx =
      true)
    (hfields : ((run (step linearToActual) (receive linearToActual m s) mid).optionalFields
      (n.buf.drop 5)).isSome = true) :
    n.StartsFrom (n.deltaHandler.level s)
        (run (step linearToActual) (receive linearToActual m s) mid) ↔
      n.deltaHandler.delta (run (step linearToActual) (receive linearToActual m s) mid) ≠
          n.delta.toInt ∧
        (m.SameForm n ∨ n.deltaHandler.lastLevel s.lastLevels = n.deltaHandler.level s) := by
  have hlevels := Along.invariant (I := fun s' => s'.lastLevels =
      m.deltaHandler.setLastLevel (m.deltaHandler.level s) s.lastLevels) (step linearToActual)
    (fun s' e h hsame => (step_lastLevels s' e hsame).trans h)
    (receive_new_lastLevels hdelta haccept hnew) hmid
  rw [startsFrom_iff hrepeat hn hfields, hlevels]
  refine and_congr_right fun _ => ?_
  show (n.level.deltaHandler n.acked).lastLevel
    ((m.level.deltaHandler m.acked).setLastLevel _ s.lastLevels) = _ ↔ _
  rw [LevelServer.lastLevel_setLastLevel]
  by_cases hform : n.level = m.level ∧ n.acked = m.acked
  · rw [if_pos hform]
    refine iff_of_true ?_ (.inl hform)
    rw [Message.deltaHandler, Message.deltaHandler, hform.1, hform.2]
  · rw [if_neg hform]
    exact (or_iff_right hform).symm

end Start

/-- In every state a Delta Set is accepted in: a copy of it within six seconds is harmless under
exactly the condition `Harmless`, at any point of the transition; and if the message begins a
transaction, a later Delta Set of it starts from the level the transaction started from exactly if
it is no repetition and its handler remembers that level. -/
theorem deltaSet_transaction_iff (linearToActual : UInt16 → UInt16) {m : Message} {s : Server}
    (hdelta : m.request.isDelta = true) (haccept : (m.accept linearToActual s).isSome = true) :
    (∀ mid : List Event, (∀ e ∈ mid, Silent e) → ∀ now : Int, now - m.ctx.now ≤ 6000 →
      (Undisturbed (run (step linearToActual) (receive linearToActual m s) mid)
          (receive linearToActual (m.copy now)
            (run (step linearToActual) (receive linearToActual m s) mid)) ↔
        m.Harmless (run (step linearToActual) (receive linearToActual m s) mid))) ∧
    (s.isRepeat m.tid m.ctx = false → ∀ mid : List Event,
      Along (step linearToActual) (Continues linearToActual) (receive linearToActual m s) mid →
      ∀ n : Message, n.request.isDelta = true →
      (run (step linearToActual) (receive linearToActual m s) mid).isRepeat n.tid n.ctx = true →
      ((run (step linearToActual) (receive linearToActual m s) mid).optionalFields
        (n.buf.drop 5)).isSome = true →
      (n.StartsFrom (n.deltaHandler.level s)
          (run (step linearToActual) (receive linearToActual m s) mid) ↔
        n.deltaHandler.delta (run (step linearToActual) (receive linearToActual m s) mid) ≠
            n.delta.toInt ∧
          (m.SameForm n ∨ n.deltaHandler.lastLevel s.lastLevels = n.deltaHandler.level s))) :=
  ⟨fun _ hmid _ hnow => copy_undisturbed_iff linearToActual hdelta haccept hmid hnow,
    fun hnew _ hmid _ hn hrepeat hfields =>
      later_startsFrom_iff hdelta haccept hnew hmid hn hrepeat hfields⟩

/-- A Delta Set of client A by a delta in network order. -/
def dimBy (acked : Bool) (delta optional : Buf) : Message where
  request := .genDelta
  acked := acked
  ctx := { addr := 0x0100, recvDst := 0x0300, now := 10000 }
  buf := delta ++ [1] ++ optional

/-- Down by 1000 at once, then a copy of it, or down by 2000 in the same transaction. -/
theorem deltaSet_transaction_at_once :
    Undisturbed (receive id (dimBy false [0x18, 0xFC, 0xFF, 0xFF] []) bootState)
        (receive id ((dimBy false [0x18, 0xFC, 0xFF, 0xFF] []).copy 10050)
          (receive id (dimBy false [0x18, 0xFC, 0xFF, 0xFF] []) bootState)) ∧
      (dimBy false [0x30, 0xF8, 0xFF, 0xFF] []).StartsFrom 32767
        (receive id (dimBy false [0x18, 0xFC, 0xFF, 0xFF] []) bootState) := by
  have hiff := deltaSet_transaction_iff id (m := dimBy false [0x18, 0xFC, 0xFF, 0xFF] [])
    (s := bootState) rfl (by decide)
  refine ⟨(hiff.1 [] (by simp) 10050 (by decide)).mpr (.inr (by decide +kernel)), ?_⟩
  exact (hiff.2 (by decide) [] trivial (dimBy false [0x30, 0xF8, 0xFF, 0xFF] []) rfl
    (by decide +kernel) (by decide +kernel)).mpr (by decide +kernel)

/-- Down by 1000 over a second.  After its first tick a copy restarts the transition, and an
acknowledged message of the transaction, down by 2000, starts from the level zero that its handler
has from the beginning. -/
theorem deltaSet_copy_restarts :
    let m := dimBy false [0x18, 0xFC, 0xFF, 0xFF] [0x0A, 0]
    let n := dimBy true [0x30, 0xF8, 0xFF, 0xFF] [0x0A, 0]
    let s := run (step id) (receive id m bootState) [.timerExpiry 10000, .timerExpiry 10100]
    (Booted bootState ∧ bootState.isRepeat m.tid m.ctx = false ∧
      (m.accept id bootState).isSome = true ∧ s.isRepeat n.tid n.ctx = true) ∧
      ¬ Undisturbed s (receive id (m.copy 10150) s) ∧
      ¬ n.StartsFrom (Server.levelOf bootState.light.current) s ∧
      (receive id n s).light.target = 30768 := by
  refine ⟨⟨booted_bootState, by decide +kernel⟩, fun h => ?_, by decide +kernel⟩
  exact absurd h.counter (by decide +kernel)

end Lighting
end ZephyrSamples
