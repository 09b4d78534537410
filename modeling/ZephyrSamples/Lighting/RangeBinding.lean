import ZephyrSamples.Lighting.Quiescence

/-!
# The lightness range

A handler that sets a lightness should leave a target that is zero or in the lightness range.  Most
bindings clamp; the two that do not are the OnOff binding, which restores a default or last
lightness clamped to the range of an earlier day, and the Move binding, which keeps the present
lightness when the delta is zero.
-/

namespace ZephyrSamples
namespace Lighting

/-- The handlers that set a lightness. -/
def Request.changesLightness : Request → Bool
  | .genOnoff | .genLevel | .genDelta | .genMove => true
  | .lightLightness | .lightLightnessLinear | .lightCtl => true
  | _ => false

namespace Server

/-- Off, or in the lightness range of the state. -/
def InLightRange (s : Server) (light : UInt16) : Prop :=
  light = 0 ∨ (s.light.rangeMin ≤ light ∧ light ≤ s.light.rangeMax)

instance (s : Server) (light : UInt16) : Decidable (s.InLightRange light) :=
  inferInstanceAs (Decidable (_ ∨ _))

/-- The lightness `set_target` restores on an OnOff message. -/
def restoredLightness (s : Server) : UInt16 :=
  if s.light.dflt = 0 then s.light.last else s.light.dflt

theorem inLightRange_congr {s s' : Server} (hmin : s'.light.rangeMin = s.light.rangeMin)
    (hmax : s'.light.rangeMax = s.light.rangeMax) (light : UInt16) :
    s'.InLightRange light ↔ s.InLightRange light := by
  rw [InLightRange, InLightRange, hmin, hmax]

section Clamps

variable {s : Server} (h : s.light.rangeMin ≤ s.light.rangeMax)
include h

theorem inLightRange_constrainLightness (light : UInt16) :
    s.InLightRange (s.constrainLightness light) := by
  unfold constrainLightness
  split
  · exact .inr ⟨UInt16.le_refl _, h⟩
  · rename_i hlow
    split
    · exact .inr ⟨h, UInt16.le_refl _⟩
    · rename_i hhigh
      by_cases hzero : light = 0
      · exact .inl hzero
      · have hpos : light > 0 := UInt16.pos_iff_ne_zero.mpr hzero
        right
        refine ⟨?_, UInt16.not_lt.mp hhigh⟩
        simpa [hpos] using hlow

theorem inLightRange_constrainTargetLightness2 :
    s.InLightRange s.constrainTargetLightness2.light.target := by
  unfold constrainTargetLightness2
  split
  · split
    · exact .inl rfl
    · exact .inr ⟨UInt16.le_refl _, h⟩
  · rename_i hlow
    split
    · exact .inr ⟨h, UInt16.le_refl _⟩
    · rename_i hhigh
      by_cases hzero : s.light.target = 0
      · exact .inl hzero
      · have hpos : s.light.target > 0 := UInt16.pos_iff_ne_zero.mpr hzero
        right
        refine ⟨?_, UInt16.not_lt.mp hhigh⟩
        simpa [hpos] using hlow

end Clamps

end Server

/-- What a message must meet for its target to be in the lightness range: an OnOff message that
switches on restores a lightness of the range, and a Move by zero stops at one. -/
def Message.Bound (m : Message) (s : Server) : Prop :=
  match m.request with
  | .genOnoff => (pullOnoff m.buf).1 = stateOn → s.InLightRange s.restoredLightness
  | .genMove => toS16 (pullLe16 m.buf).1 = 0 → s.InLightRange s.light.current
  | _ => True

/-! ## The target a handler sets -/

section Targets

variable {linearToActual : UInt16 → UInt16} {s : Server}

theorem setTarget_light (t : Target) :
    (s.setTarget linearToActual t).light = (s.assignTarget linearToActual t).light := by
  obtain ⟨effects, heq⟩ := Scope.setTarget_eq linearToActual t s
  rw [heq]

theorem onoff_target_iff {onoff : UInt8} (hvalid : onoff ≤ stateOn) :
    s.InLightRange (s.assignTarget linearToActual (.onoff onoff)).light.target ↔
      (onoff = stateOn → s.InLightRange s.restoredLightness) := by
  have hcases : onoff = stateOff ∨ onoff = stateOn := by
    have hle : onoff.toNat ≤ 1 := UInt8.le_iff_toNat_le.mp hvalid
    rw [← UInt8.toNat_inj, ← UInt8.toNat_inj]
    show onoff.toNat = 0 ∨ onoff.toNat = 1
    omega
  rcases hcases with rfl | rfl
  · exact iff_of_true (.inl rfl) fun h => absurd h (by decide)
  · have htarget : (s.assignTarget linearToActual (.onoff stateOn)).light.target =
        s.restoredLightness := by
      show (if s.light.dflt = 0 then s.setLightTarget s.light.last
        else s.setLightTarget s.light.dflt).light.target = s.restoredLightness
      unfold Server.restoredLightness
      split <;> rfl
    rw [htarget]
    exact ⟨fun h _ => h, fun h => h rfl⟩

theorem deltaLevel_target (linearToActual : UInt16 → UInt16)
    (h : s.light.rangeMin ≤ s.light.rangeMax) (level : Int16) :
    s.InLightRange (s.assignTarget linearToActual (.deltaLevelLight level)).light.target := by
  have hclamped := Server.inLightRange_constrainTargetLightness2
    (s := s.setLightTarget (UInt16.ofInt (level.toInt + 32768))) h
  exact hclamped

theorem moveTarget_iff (h : s.light.rangeMin ≤ s.light.rangeMax) (delta : Int16) :
    s.InLightRange (moveTarget delta s.light.current s.light.rangeMin s.light.rangeMax) ↔
      (delta = 0 → s.InLightRange s.light.current) := by
  unfold moveTarget
  split
  · rename_i hneg
    refine iff_of_true (.inr ⟨UInt16.le_refl _, h⟩) ?_
    rintro rfl
    exact absurd hneg (by decide)
  · rename_i hneg
    split
    · rename_i hpos
      refine iff_of_true (.inr ⟨h, UInt16.le_refl _⟩) ?_
      rintro rfl
      exact absurd hpos (by decide)
    · rename_i hpos
      have hzero : delta = 0 := Int16.le_antisymm (Int16.not_lt.mp hpos) (Int16.not_lt.mp hneg)
      exact ⟨fun h _ => h, fun h => h hzero⟩

end Targets

section Accept

variable {linearToActual : UInt16 → UInt16} {m : Message} {s : Server} {a : Aim}

/-- The handlers of one clamped target. -/
theorem clamped_target {α : Type} {h : SetHandler α} {ctx : MsgCtx} {buf : Buf} {t : α → Target}
    (htargets : h.targets = fun v => [t v])
    (hclamp : ∀ v (s : Server), s.light.rangeMin ≤ s.light.rangeMax →
      s.InLightRange (s.assignTarget linearToActual (t v)).light.target)
    (hrange : s.light.rangeMin ≤ s.light.rangeMax)
    (haccept : h.accept linearToActual ctx buf s = some a) :
    s.InLightRange a.state.light.target := by
  obtain ⟨_, _, tt, delay, -, rfl⟩ := SetHandler.accept_aim haccept
  have hbegun := hclamp (h.pull buf).1
    (s.beginTransition .nonMove (h.pull buf).2.1 tt delay ctx) hrange
  show s.InLightRange (h.aim linearToActual _ _ tt delay ctx s).light.target
  rw [SetHandler.aim, htargets]
  show s.InLightRange (Server.setTarget linearToActual _ _).light.target
  rw [setTarget_light]
  exact hbegun

/-- The temperature and the delta UV of a CTL message are set after its lightness and leave it
alone. -/
theorem lightCtl_target (hrange : s.light.rangeMin ≤ s.light.rangeMax)
    (v : UInt16 × UInt16 × Int16) (tid tt delay : UInt8) (ctx : MsgCtx) :
    s.InLightRange (lightCtl.aim linearToActual v tid tt delay ctx s).light.target := by
  let begun := s.beginTransition .nonMove tid tt delay ctx
  let lit := begun.setTarget linearToActual (.ctlLight v.1)
  have hrest : Scope.tempDuv.Aims lit
      ((lit.setTarget linearToActual (.ctlTemp v.2.1)).setTarget linearToActual
        (.ctlDeltaUv v.2.2)) :=
    (Scope.aims_setTarget linearToActual rfl lit).trans
      (Scope.aims_setTarget linearToActual rfl _)
  have hlit : s.InLightRange lit.light.target := by
    show s.InLightRange (Server.setTarget linearToActual _ _).light.target
    rw [setTarget_light]
    exact Server.inLightRange_constrainLightness (s := begun) hrange _
  obtain ⟨light, _, _, _, heq, hlight, _⟩ := hrest
  have htarget : (lightCtl.aim linearToActual v tid tt delay ctx s).light.target =
      lit.light.target := by
    rw [← hlight rfl]
    exact congrArg (fun s => s.light.target) heq
  rw [htarget]
  exact hlit

theorem accept_target_iff (hrange : s.light.rangeMin ≤ s.light.rangeMax)
    (hchanges : m.request.changesLightness = true)
    (haccept : m.accept linearToActual s = some a) :
    s.InLightRange a.state.light.target ↔ m.Bound s := by
  obtain ⟨request, acked, ctx, buf⟩ := m
  unfold Message.accept at haccept
  split at haccept
  · cases haccept
  · cases request with
    | genOnoff =>
      obtain ⟨hvalid, _, tt, delay, -, rfl⟩ := SetHandler.accept_aim haccept
      show s.InLightRange (Server.setTarget linearToActual _ _).light.target ↔ _
      rw [setTarget_light]
      exact onoff_target_iff (s := s.beginTransition .nonMove _ tt delay ctx)
        (of_decide_eq_true hvalid)
    | genLevel =>
      refine iff_of_true (clamped_target (t := fun level => .levelLight (toS16 level)) rfl ?_ hrange
        haccept) trivial
      exact fun level s h => Server.inLightRange_constrainLightness h _
    | genDelta =>
      obtain ⟨target, tt, delay, lastLevels, -, rfl⟩ := DeltaHandler.accept_aim haccept
      refine iff_of_true ?_ trivial
      have hlevel := deltaLevel_target linearToActual
        (s := ({ s with lastLevels := lastLevels } : Server).beginTransition .nonMove
          (pullU8 (pullLe32 buf).2).1 tt delay ctx) hrange (DeltaHandler.clampLevel target)
      show s.InLightRange (DeltaHandler.aim _ linearToActual target _ tt delay ctx _).light.target
      rw [DeltaHandler.aim, setTarget_light]
      cases acked <;> exact hlevel
    | genMove =>
      obtain ⟨_, tt, delay, -, rfl⟩ := MoveHandler.accept_aim haccept
      show s.InLightRange (genMove.aim linearToActual _ _ tt delay ctx s).light.target ↔ _
      rw [MoveHandler.aim, setTarget_light]
      exact moveTarget_iff hrange _
    | lightLightness =>
      refine iff_of_true (clamped_target (t := Target.actual) rfl ?_ hrange haccept) trivial
      exact fun level s h => Server.inLightRange_constrainLightness h _
    | lightLightnessLinear =>
      refine iff_of_true (clamped_target (t := Target.linear) rfl ?_ hrange haccept) trivial
      exact fun level s h => Server.inLightRange_constrainLightness h _
    | lightCtl =>
      obtain ⟨_, _, tt, delay, -, rfl⟩ := SetHandler.accept_aim haccept
      exact iff_of_true (lightCtl_target hrange _ _ _ _ _) trivial
    | _ => cases hchanges

end Accept

/-! ## Runs -/

/-- The lightness range is not empty. -/
def LightRanged (s : Server) : Prop := s.light.rangeMin ≤ s.light.rangeMax

theorem Server.Keeps.lightRange {s s' : Server} (h : s.Keeps s') :
    s'.light.rangeMin = s.light.rangeMin ∧ s'.light.rangeMax = s.light.rangeMax := by
  obtain ⟨_, _, _, _, _, _, _, _, _, _, _, _, rfl⟩ := h
  exact ⟨rfl, rfl⟩

/-- A message leaves the lightness range or sets one that is not empty and does not start at
zero. -/
theorem Message.setRanges_lightRange (m : Message) (s : Server) :
    ((m.setRanges s).light.rangeMin = s.light.rangeMin ∧
      (m.setRanges s).light.rangeMax = s.light.rangeMax) ∨
      (0 < (m.setRanges s).light.rangeMin ∧
        (m.setRanges s).light.rangeMin ≤ (m.setRanges s).light.rangeMax) := by
  unfold Message.setRanges
  split
  · rename_i hsets
    simp only [Message.setsLightRange, Bool.and_eq_true, decide_eq_true_eq] at hsets
    exact .inr ⟨hsets.1.2, hsets.2⟩
  · split
    · exact .inl ⟨rfl, rfl⟩
    · exact .inl ⟨rfl, rfl⟩

section Steps

variable (linearToActual : UInt16 → UInt16)

theorem receive_lightTarget {m : Message} {s : Server} {a : Aim}
    (haccept : m.accept linearToActual s = some a) :
    (receive linearToActual m s).light.target = a.state.light.target ∧
      (receive linearToActual m s).light.rangeMin = s.light.rangeMin ∧
      (receive linearToActual m s).light.rangeMax = s.light.rangeMax := by
  have haccepted := Message.accepted_of_accept haccept
  have hforget := congrArg Server.light (receive_of_some haccept)
  have hlight : (receive linearToActual m s).light = (a.finish m.ctx).light := hforget
  have hrange : a.state.light.rangeMin = s.light.rangeMin ∧
      a.state.light.rangeMax = s.light.rangeMax := by
    obtain ⟨_, _, _, _, _, _, _, _, _, _, heq⟩ := haccepted.state_eq
    rw [heq]
    exact ⟨rfl, rfl⟩
  rw [hlight]
  cases hreturns : a.returns with
  | true =>
    rw [a.finish_of_returns m.ctx haccepted.counter hreturns]
    exact ⟨rfl, hrange⟩
  | false =>
    have hstarted := a.finish_started m.ctx haccepted.counter hreturns
    exact ⟨hstarted.lightTarget, hstarted.lightRangeMin.trans hrange.1,
      hstarted.lightRangeMax.trans hrange.2⟩

theorem step_lightRange (s : Server) (e : Event) :
    ((step linearToActual s e).light.rangeMin = s.light.rangeMin ∧
      (step linearToActual s e).light.rangeMax = s.light.rangeMax) ∨
      (0 < (step linearToActual s e).light.rangeMin ∧
        (step linearToActual s e).light.rangeMin ≤ (step linearToActual s e).light.rangeMax) := by
  cases e with
  | message m =>
    cases haccept : m.accept linearToActual s with
    | none =>
      obtain ⟨hmin, hmax⟩ := (receive_of_none haccept).lightRange
      have hranges := m.setRanges_lightRange s
      rw [← hmin, ← hmax] at hranges
      exact hranges
    | some a => exact .inl (receive_lightTarget linearToActual haccept).2
  | query q now => exact .inl (q.get_keeps now s).lightRange
  | timerExpiry now =>
    left
    unfold step
    dsimp only
    split
    · obtain ⟨_, _, _, _, _, _, _, _, heq⟩ := s.advances_timerExpiry now
      rw [heq]
      exact ⟨rfl, rfl⟩
    · exact ⟨rfl, rfl⟩
  | noTransitionWork =>
    left
    unfold step
    dsimp only
    split
    · obtain ⟨last, leds, effects, heq⟩ := Server.noTransitionWorkHandler_eq
        { s with noTransitionQueued := false }
      rw [heq]
      exact ⟨rfl, rfl⟩
    · exact ⟨rfl, rfl⟩

theorem step_lightRanged (s : Server) (e : Event) (h : LightRanged s) :
    LightRanged (step linearToActual s e) := by
  rcases step_lightRange linearToActual s e with ⟨hmin, hmax⟩ | ⟨_, hle⟩
  · rw [LightRanged, hmin, hmax]
    exact h
  · exact hle

/-- A node boots with a lightness range that is not empty and does not start at zero. -/
theorem Booted.lightRange {s : Server} (h : Booted s) :
    0 < s.light.rangeMin ∧ s.light.rangeMin ≤ s.light.rangeMax := by
  obtain ⟨loaded, hloaded, rfl⟩ := h
  obtain ⟨light, temp, duv, heq, _, _, _, hmin, hmax, _⟩ := lightDefaultStatusInit_eq loaded
  rw [heq]
  show 0 < light.rangeMin ∧ light.rangeMin ≤ light.rangeMax
  rw [hmin, hmax, Server.retrieveRanges]
  dsimp only
  split
  · rename_i hrange
    exact hloaded.lightRange hrange
  · rw [hloaded.lightRangeMin, hloaded.lightRangeMax]
    decide

theorem Booted.lightRanged {s : Server} (h : Booted s) : LightRanged s := h.lightRange.2

/-- In no reachable state does the lightness range start at zero. -/
theorem lightRangeMin_pos {s₀ : Server} (hboot : Booted s₀) (es : List Event) :
    0 < (Runs.run (step linearToActual) s₀ es).light.rangeMin := by
  refine Runs.run_invariant (I := fun s : Server => 0 < s.light.rangeMin) (step linearToActual)
    (fun s e h => ?_) hboot.lightRange.1 es
  rcases step_lightRange linearToActual s e with ⟨hmin, _⟩ | ⟨hpos, _⟩
  · rw [hmin]
    exact h
  · exact hpos

/-- In every reachable state, an accepted message that sets a lightness leaves a target that is zero
or in the range exactly if it is bound in that state. -/
theorem target_inLightRange_iff {s₀ : Server} (hboot : Booted s₀) (es : List Event) {m : Message}
    (hchanges : m.request.changesLightness = true)
    (haccept : (m.accept linearToActual (Runs.run (step linearToActual) s₀ es)).isSome = true) :
    (receive linearToActual m (Runs.run (step linearToActual) s₀ es)).InLightRange
      (receive linearToActual m (Runs.run (step linearToActual) s₀ es)).light.target ↔
      m.Bound (Runs.run (step linearToActual) s₀ es) := by
  have hranged : LightRanged (Runs.run (step linearToActual) s₀ es) :=
    Runs.run_invariant (step linearToActual) (step_lightRanged linearToActual) hboot.lightRanged es
  obtain ⟨a, haccept⟩ := Option.isSome_iff_exists.mp haccept
  obtain ⟨htarget, hmin, hmax⟩ := receive_lightTarget linearToActual haccept
  rw [Server.inLightRange_congr hmin hmax, htarget]
  exact accept_target_iff hranged hchanges haccept

end Steps

/-- A message of client A that sets the lightness range to 100 up to 200. -/
def narrowRange : Message where
  request := .lightLightnessRange
  acked := false
  ctx := { addr := 0x0100, recvDst := 0x0300, now := 9000 }
  buf := [100, 0, 200, 0]

/-- A message of client A that switches the light on. -/
def switchOnA : Message where
  request := .genOnoff
  acked := false
  ctx := { addr := 0x0100, recvDst := 0x0300, now := 10000 }
  buf := [1, 1]

/-- A lightness set after the range is clamped to it. -/
theorem target_inLightRange_lightness :
    (receive id ⟨.lightLightness, false, switchOnA.ctx, [7, 0, 1]⟩
      (Runs.run (step id) bootState [.message narrowRange])).InLightRange
      (receive id ⟨.lightLightness, false, switchOnA.ctx, [7, 0, 1]⟩
        (Runs.run (step id) bootState [.message narrowRange])).light.target :=
  (target_inLightRange_iff id booted_bootState [.message narrowRange] rfl (by decide)).mpr trivial

/-- The default lightness is not clamped to the new range when it is restored. -/
theorem target_not_inLightRange :
    ¬ (receive id switchOnA (Runs.run (step id) bootState [.message narrowRange])).InLightRange
      (receive id switchOnA
        (Runs.run (step id) bootState [.message narrowRange])).light.target := by
  decide

end Lighting
end ZephyrSamples
