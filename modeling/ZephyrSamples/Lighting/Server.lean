import ZephyrSamples.Lib.Runs
import ZephyrSamples.Lighting.Handlers

/-!
# The lighting server as a transition system

The messages the access layer hands to the handlers, the expiries of the transition timer and the
runs of `no_transition_work` are the events of one step function.  A run starts from what
`light_default_status_init` makes of the settings.
-/

namespace ZephyrSamples
namespace Lighting

/-- The messages that set something, up to the acknowledged and unacknowledged opcodes. -/
inductive Request where
  | genOnoff
  | genLevel
  | genDelta
  | genMove
  | genDefTransTime
  | genOnpowerup
  | lightLightness
  | lightLightnessLinear
  | lightLightnessDefault
  | lightLightnessRange
  | lightCtl
  | lightCtlDefault
  | lightCtlTempRange
  | lightCtlTemp
  | genLevelTemp
  | genDeltaTemp
  | genMoveTemp
  deriving DecidableEq

/-- The messages that ask for a status. -/
inductive Query where
  | genOnoff
  | genLevel
  | genDefTransTime
  | genOnpowerup
  | lightLightness
  | lightLightnessLinear
  | lightLightnessLast
  | lightLightnessDefault
  | lightLightnessRange
  | lightCtl
  | lightCtlDefault
  | lightCtlTempRange
  | lightCtlTemp
  | genLevelTemp
  deriving DecidableEq

/-- The length below which the access layer drops a message, from the opcode tables. -/
def Request.minLen : Request → Nat
  | .genOnoff => 2
  | .genLevel => 3
  | .genDelta => 5
  | .genMove => 3
  | .genDefTransTime => 1
  | .genOnpowerup => 1
  | .lightLightness => 3
  | .lightLightnessLinear => 3
  | .lightLightnessDefault => 2
  | .lightLightnessRange => 4
  | .lightCtl => 7
  | .lightCtlDefault => 6
  | .lightCtlTempRange => 4
  | .lightCtlTemp => 5
  | .genLevelTemp => 3
  | .genDeltaTemp => 5
  | .genMoveTemp => 3

structure Message where
  request : Request
  acked : Bool
  ctx : MsgCtx
  buf : Buf
  deriving DecidableEq

section Server

variable (linearToActual : UInt16 → UInt16)

/-- The handler of an unacknowledged message. -/
def Request.setUnack : Request → MsgCtx → Buf → Server → Server
  | .genOnoff => genOnoffSetUnack linearToActual
  | .genLevel => genLevelSetUnack linearToActual
  | .genDelta => genDeltaSetUnack linearToActual
  | .genMove => genMoveSetUnack linearToActual
  | .genDefTransTime => genDefTransTimeSetUnack
  | .genOnpowerup => genOnpowerupSetUnack
  | .lightLightness => lightLightnessSetUnack linearToActual
  | .lightLightnessLinear => lightLightnessLinearSetUnack linearToActual
  | .lightLightnessDefault => lightLightnessDefaultSetUnack
  | .lightLightnessRange => lightLightnessRangeSetUnack
  | .lightCtl => lightCtlSetUnack linearToActual
  | .lightCtlDefault => lightCtlDefaultSetUnack
  | .lightCtlTempRange => lightCtlTempRangeSetUnack
  | .lightCtlTemp => lightCtlTempSetUnack linearToActual
  | .genLevelTemp => genLevelSetUnackTemp linearToActual
  | .genDeltaTemp => genDeltaSetUnackTemp linearToActual
  | .genMoveTemp => genMoveSetUnackTemp linearToActual

/-- The handler of an acknowledged message. -/
def Request.set : Request → MsgCtx → Buf → Server → Server
  | .genOnoff => genOnoffSet linearToActual
  | .genLevel => genLevelSet linearToActual
  | .genDelta => genDeltaSet linearToActual
  | .genMove => genMoveSet linearToActual
  | .genDefTransTime => genDefTransTimeSet
  | .genOnpowerup => genOnpowerupSet
  | .lightLightness => lightLightnessSet linearToActual
  | .lightLightnessLinear => lightLightnessLinearSet linearToActual
  | .lightLightnessDefault => lightLightnessDefaultSet
  | .lightLightnessRange => lightLightnessRangeSet
  | .lightCtl => lightCtlSet linearToActual
  | .lightCtlDefault => lightCtlDefaultSet
  | .lightCtlTempRange => lightCtlTempRangeSet
  | .lightCtlTemp => lightCtlTempSet linearToActual
  | .genLevelTemp => genLevelSetTemp linearToActual
  | .genDeltaTemp => genDeltaSetTemp linearToActual
  | .genMoveTemp => genMoveSetTemp linearToActual

def Query.get : Query → Int → Server → Server
  | .genOnoff => genOnoffGet
  | .genLevel => genLevelGet
  | .genDefTransTime => fun _ s => s.genDefTransTimeGet
  | .genOnpowerup => fun _ s => s.genOnpowerupGet
  | .lightLightness => lightLightnessGet
  | .lightLightnessLinear => lightLightnessLinearGet
  | .lightLightnessLast => fun _ s => s.lightLightnessLastGet
  | .lightLightnessDefault => fun _ s => s.lightLightnessDefaultGet
  | .lightLightnessRange => fun _ s => s.lightLightnessRangeGet
  | .lightCtl => lightCtlGet
  | .lightCtlDefault => fun _ s => s.lightCtlDefaultGet
  | .lightCtlTempRange => fun _ s => s.lightCtlTempRangeGet
  | .lightCtlTemp => lightCtlTempGet
  | .genLevelTemp => genLevelGetTemp

/-- The access layer drops a message shorter than its opcode asks for. -/
def receive (m : Message) (s : Server) : Server :=
  if m.buf.length < m.request.minLen then s
  else if m.acked then m.request.set linearToActual m.ctx m.buf s
  else m.request.setUnack linearToActual m.ctx m.buf s

inductive Event where
  | message (m : Message)
  | query (q : Query) (now : Int)
  | timerExpiry (now : Int)
  | noTransitionWork

/-- A timer that is stopped does not expire, and the work queue runs what is queued.  Its mark is
cleared before the work item runs. -/
def step (s : Server) : Event → Server
  | .message m => receive linearToActual m s
  | .query q now => q.get now s
  | .timerExpiry now => if s.transition.timer.running then s.timerExpiry now else s
  | .noTransitionWork =>
    if s.noTransitionQueued then { s with noTransitionQueued := false }.noTransitionWorkHandler
    else s

end Server

/-! ## Boot -/

/-- `light_default_var_init` on the zeroed variables. -/
def lightDefaultVarInit : Server where
  light :=
    { rangeMin := lightnessMin, rangeMax := lightnessMax, last := lightnessMax,
      dflt := lightnessMax, target := lightnessMax }
  temp := { rangeMin := tempMin, rangeMax := tempMax, dflt := tempMax, target := tempMax }
  duv := { dflt := deltaUvDef, target := deltaUvDef }
  onpowerup := stateDefault
  tt := 0

namespace Server

/-- The ranges `light_default_status_init` unpacks. -/
def retrieveRanges (s : Server) : Server :=
  { s with
    light :=
      if s.light.range ≠ 0 then
        { s.light with
          rangeMax := (s.light.range >>> 16).toUInt16, rangeMin := s.light.range.toUInt16 }
      else s.light
    temp :=
      if s.temp.range ≠ 0 then
        { s.temp with
          rangeMax := (s.temp.range >>> 16).toUInt16, rangeMin := s.temp.range.toUInt16 }
      else s.temp }

/-- The constraints `light_default_status_init` puts on what was loaded. -/
def constrainStates (s : Server) : Server :=
  { s with
    light := { s.light with
      last := s.constrainLightness s.light.last
      dflt := s.constrainLightness s.light.dflt
      target := s.constrainLightness s.light.target }
    temp := { s.temp with
      dflt := s.constrainTemperature s.temp.dflt
      target := s.constrainTemperature s.temp.target } }

/-- The `switch` on `onpowerup`. -/
def powerUp (s : Server) : Server :=
  let s := { s with
    temp := { s.temp with current := s.temp.dflt }
    duv := { s.duv with current := s.duv.dflt } }
  if s.onpowerup = stateOff then { s with light := { s.light with current := 0 } }
  else if s.onpowerup = stateDefault then
    { s with light := { s.light with
        current := if s.light.dflt = 0 then s.light.last else s.light.dflt } }
  else if s.onpowerup = stateRestore then
    { s with
      light := { s.light with current := s.light.target }
      temp := { s.temp with current := s.temp.target }
      duv := { s.duv with current := s.duv.target } }
  else s

end Server

def lightDefaultStatusInit (s : Server) : Server :=
  let s := s.retrieveRanges.constrainStates.powerUp
  { s with
    light := { s.light with target := s.light.current }
    temp := { s.temp with target := s.temp.current }
    duv := { s.duv with target := s.duv.current } }

/-- Nothing but the attributes is initialised, all three start at their targets, and the ranges are
those unpacked. -/
theorem lightDefaultStatusInit_eq (s : Server) : ∃ light temp duv,
    lightDefaultStatusInit s = { s with light := light, temp := temp, duv := duv } ∧
      light.current = light.target ∧ temp.current = temp.target ∧ duv.current = duv.target ∧
      light.rangeMin = s.retrieveRanges.light.rangeMin ∧
      light.rangeMax = s.retrieveRanges.light.rangeMax ∧
      temp.rangeMin = s.retrieveRanges.temp.rangeMin ∧
      temp.rangeMax = s.retrieveRanges.temp.rangeMax := by
  have hpower (s : Server) : ∃ light temp duv, s.powerUp =
      { s with
        light := { s.light with current := light }
        temp := { s.temp with current := temp }
        duv := { s.duv with current := duv } } := by
    unfold Server.powerUp
    dsimp only
    split
    · exact ⟨_, _, _, rfl⟩
    · split
      · exact ⟨_, _, _, rfl⟩
      · split
        · exact ⟨_, _, _, rfl⟩
        · exact ⟨s.light.current, _, _, rfl⟩
  obtain ⟨light, temp, duv, heq⟩ := hpower s.retrieveRanges.constrainStates
  unfold lightDefaultStatusInit
  rw [heq]
  exact ⟨_, _, _, rfl, rfl, rfl, rfl, rfl, rfl, rfl, rfl⟩

/-- A state `settings_load` can leave: the fields that are stored hold anything, a stored range is
one a Range Set message accepted, and the others are as `light_default_var_init` left them. -/
structure Loaded (s : Server) : Prop where
  lightRangeMin : s.light.rangeMin = lightnessMin
  lightRangeMax : s.light.rangeMax = lightnessMax
  lightRange : s.light.range ≠ 0 →
    0 < s.light.range.toUInt16 ∧ s.light.range.toUInt16 ≤ (s.light.range >>> 16).toUInt16
  tempRangeMin : s.temp.rangeMin = tempMin
  tempRangeMax : s.temp.rangeMax = tempMax
  tempRange : s.temp.range ≠ 0 →
    tempMin ≤ s.temp.range.toUInt16 ∧ s.temp.range.toUInt16 ≤ (s.temp.range >>> 16).toUInt16 ∧
      (s.temp.range >>> 16).toUInt16 ≤ tempMax
  transition : s.transition = {}
  reset : s.reset = false
  noTransitionQueued : s.noTransitionQueued = false

/-- The states a run starts from. -/
def Booted (s : Server) : Prop := ∃ loaded, Loaded loaded ∧ s = lightDefaultStatusInit loaded

theorem loaded_lightDefaultVarInit : Loaded lightDefaultVarInit where
  lightRangeMin := rfl
  lightRangeMax := rfl
  lightRange h := absurd rfl h
  tempRangeMin := rfl
  tempRangeMax := rfl
  tempRange h := absurd rfl h
  transition := rfl
  reset := rfl
  noTransitionQueued := rfl

end Lighting
end ZephyrSamples
