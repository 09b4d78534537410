import ZephyrSamples.Lighting.StateBinding

/-!
# Transitions

`transition.c`, with `update_light_state` of `main.c` and `no_transition_work_handler.c`, which it
calls into.  The seven work handlers and the seven start handlers of the source differ in the
attributes they move and in the expiry function they install, so each is one definition applied to
those.
-/

namespace ZephyrSamples
namespace Lighting

open Binary32

namespace Transition

def calculateRt (now : Int) (t : Transition) : Transition :=
  if t.type = some .move then { t with rt := unknownValue }
  else if t.justStarted then { t with rt := t.tt }
  else
    let remainder := Int.bmod ((t.totalDuration.toNat : Int) - (now - t.startTimestamp)) (2 ^ 32)
    let (resolution, steps) : Int × Int :=
      if remainder > 620000 then (3, remainder / 600000)
      else if remainder > 62000 then (2, remainder / 10000)
      else if remainder > 6200 then (1, remainder / 1000)
      else if remainder > 0 then (0, remainder / 100)
      else (0, 0)
    { t with rt := (UInt8.ofInt resolution <<< 6) ||| UInt8.ofInt steps }

/-- The length in milliseconds of the steps the resolution bits name. -/
def stepResolution (resolution : UInt8) : UInt32 :=
  if resolution = 0 then 100
  else if resolution = 1 then 1000
  else if resolution = 2 then 10000
  else 600000

/-- `set_transition_counter`, with `none` for its `false`. -/
def setTransitionCounter (t : Transition) : Option Transition :=
  let resolution := t.tt >>> 6
  let stepsMultiplier := t.tt &&& 0x3F
  if stepsMultiplier = 0 then none
  else
    let totalDuration := stepsMultiplier.toUInt32 * stepResolution resolution
    let counter := UInt32.ofInt (trunc (rnd (rnd totalDuration.toNat / 100)))
    some { t with
      totalDuration := totalDuration
      counter :=
        if counter > deviceSpecificResolution then deviceSpecificResolution else counter }

end Transition

/-- `((float) (current - target) / counter)` converted to `int`. -/
def transitionDelta (current target : Int) (counter : UInt32) : Int :=
  trunc (rnd (rnd (current - target : Int) / rnd counter.toNat))

namespace Server

def setLightDelta (s : Server) : Server :=
  { s with light := { s.light with
      delta := transitionDelta s.light.current.toNat s.light.target.toNat s.transition.counter } }

def setTempDelta (s : Server) : Server :=
  { s with temp := { s.temp with
      delta := transitionDelta s.temp.current.toNat s.temp.target.toNat s.transition.counter } }

def setDuvDelta (s : Server) : Server :=
  { s with duv := { s.duv with
      delta := transitionDelta s.duv.current.toInt s.duv.target.toInt s.transition.counter } }

def setTransitionValues (type : StateBinding) (s : Server) : Server :=
  match s.transition.setTransitionCounter with
  | none => s
  | some t =>
    if t.type = some .move then
      { s with transition := { t with quoTt := t.totalDuration } }
    else
      let s := { s with transition := { t with quoTt := t.totalDuration / t.counter } }
      match type with
      | .onoff | .levelLight | .actual | .linear => s.setLightDelta
      | .ctlLight => s.setLightDelta.setTempDelta.setDuvDelta
      | .levelTemp => s.setTempDelta
      | .ctlTemp => s.setTempDelta.setDuvDelta
      | _ => s

/-! ## The light and its work items -/

/-- The power of `update_led_gpio`, in percent. -/
def ledPower (s : Server) : Int := trunc (rnd (100 * rnd (rnd s.light.current.toNat / 65535)))

/-- The colour of `update_led_gpio`, in percent, or `none` where the division is by zero. -/
def ledColor (s : Server) : Option Int :=
  if s.tempSpan = 0 then none
  else some (trunc (rnd (100 *
    rnd (rnd ((s.temp.current.toNat : Int) - s.temp.rangeMin.toNat : Int) / rnd s.tempSpan))))

def updateLedGpio (s : Server) : Server :=
  { s with leds :=
    { led0 := s.light.current
      led2 := UInt8.ofInt s.ledPower < 50
      led3 := s.ledColor.map fun color => UInt8.ofInt color < 50 } }

def updateLightState (s : Server) : Server :=
  let s := s.updateLedGpio
  if s.transition.counter = 0 || s.reset = false then
    { s with reset := true }.submitNoTransitionWork
  else s

/-- `no_transition_work_handler` on a provisioned node. -/
def noTransitionWorkHandler (s : Server) : Server :=
  let readjust := ¬ s.AtRest
  let s := { s with
    light := { s.light with current := s.light.target }
    temp := { s.temp with current := s.temp.target }
    duv := { s.duv with current := s.duv.target } }
  let s :=
    if s.light.current ≠ 0 then
      { s with light := { s.light with last := s.light.current } }.saveOnFlash .lightnessLastState
    else s
  let s := if readjust then s.updateLedGpio else s
  { s with effects := s.effects ++ [.startUnsolicitedPublishTimer 5000] }

/-! ## Expiry of the transition timer -/

def lightToTarget (s : Server) : Server :=
  { s with light := { s.light with current := s.light.target } }

def tempToTarget (s : Server) : Server :=
  { s with temp := { s.temp with current := s.temp.target } }

def duvToTarget (s : Server) : Server :=
  { s with duv := { s.duv with current := s.duv.target } }

def stepLight (s : Server) : Server :=
  { s with light := { s.light with
      current := UInt16.ofInt ((s.light.current.toNat : Int) - s.light.delta) } }

def stepTemp (s : Server) : Server :=
  { s with temp := { s.temp with
      current := UInt16.ofInt ((s.temp.current.toNat : Int) - s.temp.delta) } }

def stepDuv (s : Server) : Server :=
  { s with duv := { s.duv with current := Int16.ofInt (s.duv.current.toInt - s.duv.delta) } }

/-- Where one expiry of a Move takes an attribute: on by `delta`, from the top of the word when it
goes down from zero, and into the range. -/
def moveValue (current rangeMin rangeMax : UInt16) (delta : Int) : Int :=
  let value : Int :=
    if current ≠ 0 then (current.toNat : Int) + delta
    else if delta < 0 then 65535 + delta
    else if delta > 0 then delta
    else 0
  if value > rangeMax.toNat then rangeMax.toNat
  else if value < rangeMin.toNat then rangeMin.toNat
  else value

def setCounter (counter : UInt32) (s : Server) : Server :=
  { s with transition := { s.transition with counter := counter } }

def levelMoveLightnessWorkHandler (s : Server) : Server :=
  let light := moveValue s.light.current s.light.rangeMin s.light.rangeMax s.light.delta
  let s := { s with light := { s.light with current := UInt16.ofInt light } }.updateLightState
  if (s.light.target.toNat : Int) = light then (s.setCounter 0).timerStop else s

def levelMoveTempWorkHandler (s : Server) : Server :=
  let temp := moveValue s.temp.current s.temp.rangeMin s.temp.rangeMax s.temp.delta
  let s := { s with temp := { s.temp with current := UInt16.ofInt temp } }.updateLightState
  if (s.temp.target.toNat : Int) = temp then (s.setCounter 0).timerStop else s

/-- The first expiry after a message only starts the clock. -/
def firstExpiry (now : Int) (s : Server) : Server :=
  let s := { s with transition := { s.transition with justStarted := false } }
  if s.transition.counter = 0 then s.updateLightState.timerStop
  else { s with transition := { s.transition with startTimestamp := now } }

/-- The body the work handlers share: `step` moves the attributes on, `arrive` puts them on their
targets. -/
def workHandler (step arrive : Server → Server) (now : Int) (s : Server) : Server :=
  if s.transition.justStarted then s.firstExpiry now
  else
    let s := s.setCounter (s.transition.counter - 1)
    if s.transition.counter ≠ 0 then (step s).updateLightState
    else (arrive s).updateLightState.timerStop

/-- The body of the two level handlers, which a Move shares. -/
def levelWorkHandler (move step arrive : Server → Server) (now : Int) (s : Server) : Server :=
  if ¬ s.transition.justStarted ∧ s.transition.type = some .move then move s
  else workHandler step arrive now s

def onoffWorkHandler := workHandler stepLight lightToTarget

def levelLightnessWorkHandler :=
  levelWorkHandler levelMoveLightnessWorkHandler stepLight lightToTarget

def levelTempWorkHandler := levelWorkHandler levelMoveTempWorkHandler stepTemp tempToTarget

def lightLightnessActualWorkHandler := workHandler stepLight lightToTarget

def lightLightnessLinearWorkHandler := workHandler stepLight lightToTarget

def lightCtlWorkHandler :=
  workHandler (fun s => s.stepLight.stepTemp.stepDuv)
    (fun s => s.lightToTarget.tempToTarget.duvToTarget)

def lightCtlTempWorkHandler :=
  workHandler (fun s => s.stepTemp.stepDuv) (fun s => s.tempToTarget.duvToTarget)

/-- The work item an expiry function submits. -/
def expiryWork : TtHandler → Int → Server → Server
  | .onoff => onoffWorkHandler
  | .levelLightness => levelLightnessWorkHandler
  | .levelTemp => levelTempWorkHandler
  | .lightLightnessActual => lightLightnessActualWorkHandler
  | .lightLightnessLinear => lightLightnessLinearWorkHandler
  | .lightCtl => lightCtlWorkHandler
  | .lightCtlTemp => lightCtlTempWorkHandler

/-- An expiry of the running timer: the kernel keeps a periodic timer running, the expiry function
submits its work item and the work item runs. -/
def timerExpiry (now : Int) (s : Server) : Server :=
  match s.transition.timer.handler with
  | none => s
  | some handler =>
    let running := s.transition.timer.period ≠ 0
    expiryWork handler now { s with
      transition := { s.transition with
        timer := { s.transition.timer with running := running } } }

/-! ## Start of a transition -/

/-- The body the start handlers share. -/
def startHandler (handler : TtHandler) (s : Server) : Server :=
  if s.transition.counter = 0 ∧ s.transition.delay = 0 then s.updateLightState
  else s.timerStart handler (s.transition.delay.toNat * 5) s.transition.quoTt.toNat

def onoffHandler := startHandler .onoff
def levelLightnessHandler := startHandler .levelLightness
def levelTempHandler := startHandler .levelTemp
def lightLightnessActualHandler := startHandler .lightLightnessActual
def lightLightnessLinearHandler := startHandler .lightLightnessLinear
def lightCtlHandler := startHandler .lightCtl
def lightCtlTempHandler := startHandler .lightCtlTemp

end Server
end Lighting
end ZephyrSamples
