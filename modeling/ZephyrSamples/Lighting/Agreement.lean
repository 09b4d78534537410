import ZephyrSamples.Lighting.Frames

/-!
# Acknowledged and unacknowledged handlers

An acknowledged handler is its unacknowledged twin with calls to the `_get` handler in between.
Such a call changes the remaining time and sends a response, and nothing the twins do afterwards
depends on either, so they agree up to `Server.forgetStatus`.
-/

namespace ZephyrSamples
namespace Lighting

/-! ## The shared bodies -/

theorem StatusReport.get_forgetStatus (r : StatusReport) (now : Int) (s : Server) :
    (r.get now s).forgetStatus = s.forgetStatus := by
  obtain ⟨rt, sent, heq⟩ := r.get_eq now s
  rw [heq, Server.forgetStatus_withStatus]

/-- A response sent before the publication changes neither the publication nor the start. -/
theorem startHandler_publish_get (r : StatusReport) (handler : TtHandler) (ctx : MsgCtx)
    (s : Server) :
    ((r.publish ctx (r.get ctx.now s)).startHandler handler).forgetStatus =
      ((r.publish ctx s).startHandler handler).forgetStatus := by
  obtain ⟨published, hpublish⟩ := r.publish_eq ctx s
  obtain ⟨rt, sent, hget⟩ := r.get_eq ctx.now s
  obtain ⟨rt₁, h₁⟩ := hpublish rt sent
  obtain ⟨rt₂, h₂⟩ := hpublish s.transition.rt s.sent
  rw [← s.withStatus_self] at h₂
  rw [hget, h₁, h₂, Server.startHandler_withStatus, Server.startHandler_withStatus]
  rfl

namespace Starter

variable (h : Starter)

theorem go_forgetStatus (ctx : MsgCtx) (s : Server) :
    (h.go ctx s).forgetStatus = (h.goUnack ctx s).forgetStatus := by
  by_cases harrived : h.scope.arrived s = true
  · rw [go, goUnack, if_pos harrived, if_pos harrived]
    exact h.status.get_forgetStatus ctx.now s
  · rw [go, goUnack, if_neg harrived, if_neg harrived]
    exact startHandler_publish_get h.status h.timer ctx _

theorem move_forgetStatus (ctx : MsgCtx) (s : Server) :
    (h.move ctx s).forgetStatus = (h.moveUnack ctx s).forgetStatus := by
  by_cases harrived : h.scope.arrived s = true
  · rw [move, moveUnack, if_pos harrived, if_pos harrived]
    exact h.status.get_forgetStatus ctx.now s
  · rw [move, moveUnack, if_neg harrived, if_neg harrived]
    by_cases hcounter : (s.setTransitionValues h.binding).transition.counter = 0
    · simp only [if_pos hcounter]
    · simp only [if_neg hcounter]
      exact startHandler_publish_get h.status h.timer ctx _

end Starter

section Bodies

variable (linearToActual : UInt16 → UInt16) (ctx : MsgCtx) (buf : Buf) (s : Server)

theorem SetHandler.set_forgetStatus {α : Type} (h : SetHandler α) :
    (h.set linearToActual ctx buf s).forgetStatus =
      (h.setUnack linearToActual ctx buf s).forgetStatus := by
  unfold SetHandler.set SetHandler.setUnack
  cases h.inspect ctx buf s with
  | ignored => rfl
  | repeated => exact h.status.get_forgetStatus ctx.now s
  | fresh v tid tt delay => exact h.go_forgetStatus ctx _

theorem MoveHandler.set_forgetStatus (h : MoveHandler) :
    (h.set linearToActual ctx buf s).forgetStatus =
      (h.setUnack linearToActual ctx buf s).forgetStatus := by
  unfold MoveHandler.set MoveHandler.setUnack
  cases MoveHandler.inspect ctx buf s with
  | ignored => rfl
  | repeated => exact h.status.get_forgetStatus ctx.now s
  | fresh delta tid tt delay => exact h.move_forgetStatus ctx _

/-- The two forms of one Delta Set body agree.  The handlers of the source do not: each keeps the
level it starts from in a static variable of its own. -/
theorem DeltaHandler.set_forgetStatus (h : DeltaHandler) :
    (h.set linearToActual ctx buf s).forgetStatus =
      (h.setUnack linearToActual ctx buf s).forgetStatus := by
  unfold DeltaHandler.set DeltaHandler.setUnack
  obtain ⟨verdict, s'⟩ := h.inspect ctx buf s
  cases verdict with
  | ignored => rfl
  | repeated => exact h.status.get_forgetStatus ctx.now s'
  | fresh target tid tt delay => exact h.go_forgetStatus ctx _

end Bodies

/-! ## The handlers of stored states -/

section Stored

variable (ctx : MsgCtx) (buf : Buf) (s : Server)

theorem genDefTransTimeSet_forgetStatus : (genDefTransTimeSet ctx buf s).forgetStatus =
    (genDefTransTimeSetUnack ctx buf s).forgetStatus := by
  unfold genDefTransTimeSet genDefTransTimeSetUnack
  dsimp only
  split
  · rfl
  · split
    · unfold Server.genDefTransTimePublish Server.publish
      split <;> rfl
    · rfl

theorem genOnpowerupSet_forgetStatus : (genOnpowerupSet ctx buf s).forgetStatus =
    (genOnpowerupSetUnack ctx buf s).forgetStatus := by
  unfold genOnpowerupSet genOnpowerupSetUnack
  dsimp only
  split
  · rfl
  · split
    · unfold Server.genOnpowerupPublish Server.publish
      split <;> rfl
    · rfl

theorem lightLightnessDefaultSet_forgetStatus :
    (lightLightnessDefaultSet ctx buf s).forgetStatus =
      (lightLightnessDefaultSetUnack ctx buf s).forgetStatus := by
  unfold lightLightnessDefaultSet lightLightnessDefaultSetUnack
  dsimp only
  split
  · unfold Server.lightLightnessDefaultPublish Server.publish
    split <;> rfl
  · rfl

/-- The `_get` handler clears the status code, which the handler has just cleared itself. -/
theorem lightLightnessRangeSet_forgetStatus :
    (lightLightnessRangeSet ctx buf s).forgetStatus =
      (lightLightnessRangeSetUnack ctx buf s).forgetStatus := by
  unfold lightLightnessRangeSet lightLightnessRangeSetUnack
  dsimp only
  split
  · rfl
  · split
    · split
      · unfold Server.lightLightnessRangePublish Server.publish
        split <;> rfl
      · rfl
    · rfl

theorem lightCtlDefaultSet_forgetStatus : (lightCtlDefaultSet ctx buf s).forgetStatus =
    (lightCtlDefaultSetUnack ctx buf s).forgetStatus := by
  unfold lightCtlDefaultSet lightCtlDefaultSetUnack
  dsimp only
  split
  · rfl
  · split
    · unfold Server.lightCtlDefaultPublish Server.publish
      split <;> rfl
    · rfl

theorem lightCtlTempRangeSet_forgetStatus : (lightCtlTempRangeSet ctx buf s).forgetStatus =
    (lightCtlTempRangeSetUnack ctx buf s).forgetStatus := by
  unfold lightCtlTempRangeSet lightCtlTempRangeSetUnack
  dsimp only
  split
  · rfl
  · split
    · split
      · unfold Server.lightCtlTempRangePublish Server.publish
        split <;> rfl
      · rfl
    · rfl

end Stored

/-! ## The pairs -/

/-- The pairs of handlers that share all their variables. -/
inductive AckPair where
  | onoff
  | level
  | move
  | lightness
  | lightnessLinear
  | lightnessDefault
  | lightnessRange
  | ctl
  | ctlDefault
  | ctlTempRange
  | ctlTemp
  | tempLevel
  | tempMove

namespace AckPair

variable (linearToActual : UInt16 → UInt16)

def set : AckPair → MsgCtx → Buf → Server → Server
  | onoff => genOnoffSet linearToActual
  | level => genLevelSet linearToActual
  | move => genMoveSet linearToActual
  | lightness => lightLightnessSet linearToActual
  | lightnessLinear => lightLightnessLinearSet linearToActual
  | lightnessDefault => lightLightnessDefaultSet
  | lightnessRange => lightLightnessRangeSet
  | ctl => lightCtlSet linearToActual
  | ctlDefault => lightCtlDefaultSet
  | ctlTempRange => lightCtlTempRangeSet
  | ctlTemp => lightCtlTempSet linearToActual
  | tempLevel => genLevelSetTemp linearToActual
  | tempMove => genMoveSetTemp linearToActual

def setUnack : AckPair → MsgCtx → Buf → Server → Server
  | onoff => genOnoffSetUnack linearToActual
  | level => genLevelSetUnack linearToActual
  | move => genMoveSetUnack linearToActual
  | lightness => lightLightnessSetUnack linearToActual
  | lightnessLinear => lightLightnessLinearSetUnack linearToActual
  | lightnessDefault => lightLightnessDefaultSetUnack
  | lightnessRange => lightLightnessRangeSetUnack
  | ctl => lightCtlSetUnack linearToActual
  | ctlDefault => lightCtlDefaultSetUnack
  | ctlTempRange => lightCtlTempRangeSetUnack
  | ctlTemp => lightCtlTempSetUnack linearToActual
  | tempLevel => genLevelSetUnackTemp linearToActual
  | tempMove => genMoveSetUnackTemp linearToActual

/-- From every state, the two handlers of a pair leave states that differ in the remaining time and
in the responses sent, and in nothing else: the timer commands and the requests to save are among
what is compared. -/
theorem set_agrees_setUnack (p : AckPair) (ctx : MsgCtx) (buf : Buf) (s : Server) :
    (p.set linearToActual ctx buf s).forgetStatus =
      (p.setUnack linearToActual ctx buf s).forgetStatus := by
  cases p with
  | onoff => exact genOnoff.set_forgetStatus linearToActual ctx buf s
  | level => exact genLevel.set_forgetStatus linearToActual ctx buf s
  | move => exact genMove.set_forgetStatus linearToActual ctx buf s
  | lightness => exact lightLightness.set_forgetStatus linearToActual ctx buf s
  | lightnessLinear => exact lightLightnessLinear.set_forgetStatus linearToActual ctx buf s
  | lightnessDefault => exact lightLightnessDefaultSet_forgetStatus ctx buf s
  | lightnessRange => exact lightLightnessRangeSet_forgetStatus ctx buf s
  | ctl => exact lightCtl.set_forgetStatus linearToActual ctx buf s
  | ctlDefault => exact lightCtlDefaultSet_forgetStatus ctx buf s
  | ctlTempRange => exact lightCtlTempRangeSet_forgetStatus ctx buf s
  | ctlTemp => exact lightCtlTemp.set_forgetStatus linearToActual ctx buf s
  | tempLevel => exact genLevelTemp.set_forgetStatus linearToActual ctx buf s
  | tempMove => exact genMoveTemp.set_forgetStatus linearToActual ctx buf s

end AckPair

end Lighting
end ZephyrSamples
