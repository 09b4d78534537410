import ZephyrSamples.Lighting.State

/-!
# State bindings

`state_binding.c`: the conversions between the model states, the range constraints, `set_target`,
`get_current` and `get_target`.  `linear_to_actual` runs a Newton iteration in mixed precision; it
is a parameter, an arbitrary function from a linear to an actual lightness.
-/

namespace ZephyrSamples
namespace Lighting

open Binary32

/-- `enum state_binding`. -/
inductive StateBinding where
  | onoff
  | levelLight
  | deltaLevelLight
  | moveLight
  | actual
  | linear
  | ctlLight
  | levelTemp
  | moveTemp
  | ctlTemp
  | ctlDeltaUv
  deriving DecidableEq

/-- The smallest integer not below `num`, for the non-negative arguments it is called with. -/
def ceiling (num : ℚ) : Int := if num = trunc num then trunc num else trunc num + 1

def actualToLinear (val : UInt16) : UInt16 :=
  let tmp := rnd (rnd val.toNat / 65535)
  UInt16.ofInt (ceiling (rnd (rnd (65535 * tmp) * tmp)))

namespace Server

def constrainLightness (s : Server) (light : UInt16) : UInt16 :=
  if light > 0 && light < s.light.rangeMin then s.light.rangeMin
  else if light > s.light.rangeMax then s.light.rangeMax
  else light

def constrainTargetLightness2 (s : Server) : Server :=
  if s.light.target > 0 && s.light.target < s.light.rangeMin then
    if s.light.delta < 0 then { s with light := { s.light with target := 0 } }
    else { s with light := { s.light with target := s.light.rangeMin } }
  else if s.light.target > s.light.rangeMax then
    { s with light := { s.light with target := s.light.rangeMax } }
  else s

def constrainTemperature (s : Server) (temp : UInt16) : UInt16 :=
  if temp < s.temp.rangeMin then s.temp.rangeMin
  else if temp > s.temp.rangeMax then s.temp.rangeMax
  else temp

/-- `temp->range_max - temp->range_min`, the divisor of the two colour conversions. -/
def tempSpan (s : Server) : Int := (s.temp.rangeMax.toNat : Int) - s.temp.rangeMin.toNat

/-- The level of a temperature before its conversion to `s16_t`, or `none` where the division is
by zero.  The product is an `int` and wraps. -/
def tempLevel (s : Server) (temp : UInt16) : Option ℚ :=
  let tmp := rnd (Int.bmod (((temp.toNat : Int) - s.temp.rangeMin.toNat) * 65535) (2 ^ 32))
  if s.tempSpan = 0 then none
  else some (rnd (rnd (tmp / rnd s.tempSpan) + (-32768)))

def lightCtlTempToLevel (s : Server) (temp : UInt16) : Option Int16 :=
  (s.tempLevel temp).map fun level => Int16.ofInt (trunc level)

def levelToLightCtlTemp (s : Server) (level : Int16) : UInt16 :=
  let diff := rnd (rnd s.tempSpan / 65535)
  let tmp := UInt16.ofInt (trunc (rnd (rnd (level.toInt + 32768 : Int) * diff)))
  s.temp.rangeMin + tmp

end Server

/-- The argument of `set_target`: the binding and what its pointer points to. -/
inductive Target where
  | onoff (onoff : UInt8)
  | levelLight (level : Int16)
  | deltaLevelLight (level : Int16)
  | moveLight (target : UInt16)
  | actual (actual : UInt16)
  | linear (linear : UInt16)
  | ctlLight (lightness : UInt16)
  | levelTemp (level : Int16)
  | moveTemp (target : UInt16)
  | ctlTemp (temp : UInt16)
  | ctlDeltaUv (deltaUv : Int16)
  deriving DecidableEq

namespace Server

def setLightTarget (target : UInt16) (s : Server) : Server :=
  { s with light := { s.light with target := target } }

def setTempTarget (target : UInt16) (s : Server) : Server :=
  { s with temp := { s.temp with target := target } }

def setDuvTarget (target : Int16) (s : Server) : Server :=
  { s with duv := { s.duv with target := target } }

/-- The `switch` of `set_target`. -/
def assignTarget (linearToActual : UInt16 → UInt16) : Target → Server → Server
  | .onoff onoff, s =>
    if onoff = stateOff then s.setLightTarget 0
    else if onoff = stateOn then
      if s.light.dflt = 0 then s.setLightTarget s.light.last else s.setLightTarget s.light.dflt
    else s
  | .levelLight level, s =>
    s.setLightTarget (s.constrainLightness (UInt16.ofInt (level.toInt + 32768)))
  | .deltaLevelLight level, s =>
    (s.setLightTarget (UInt16.ofInt (level.toInt + 32768))).constrainTargetLightness2
  | .moveLight target, s => s.setLightTarget target
  | .actual actual, s => s.setLightTarget (s.constrainLightness actual)
  | .linear linear, s => s.setLightTarget (s.constrainLightness (linearToActual linear))
  | .ctlLight lightness, s => s.setLightTarget (s.constrainLightness lightness)
  | .levelTemp level, s => s.setTempTarget (s.levelToLightCtlTemp level)
  | .moveTemp target, s => s.setTempTarget target
  | .ctlTemp temp, s => s.setTempTarget (s.constrainTemperature temp)
  | .ctlDeltaUv deltaUv, s => s.setDuvTarget deltaUv

def setTarget (linearToActual : UInt16 → UInt16) (t : Target) (s : Server) : Server :=
  let s := s.assignTarget linearToActual t
  if s.onpowerup = stateRestore then s.saveOnFlash .lastTargetStates else s

/-- `(s16_t) (value + INT16_MIN)`, the level of a lightness. -/
def levelOf (lightness : UInt16) : Int16 := Int16.ofInt ((lightness.toNat : Int) - 32768)

def getCurrent (s : Server) : StateBinding → Option Int
  | .onoff => if s.light.current ≠ 0 then some 1 else if s.light.target ≠ 0 then some 1 else some 0
  | .levelLight => some (levelOf s.light.current).toInt
  | .actual => some s.light.current.toNat
  | .linear => some (actualToLinear s.light.current).toNat
  | .ctlLight => some s.light.current.toNat
  | .levelTemp => (s.lightCtlTempToLevel s.temp.current).map Int16.toInt
  | .ctlTemp => some s.temp.current.toNat
  | .ctlDeltaUv => some s.duv.current.toInt
  | .deltaLevelLight | .moveLight | .moveTemp => some 0

def getTarget (s : Server) : StateBinding → Option Int
  | .onoff => if s.light.target ≠ 0 then some 1 else some 0
  | .levelLight => some (levelOf s.light.target).toInt
  | .actual => some s.light.target.toNat
  | .linear => some (actualToLinear s.light.target).toNat
  | .ctlLight => some s.light.target.toNat
  | .levelTemp => (s.lightCtlTempToLevel s.temp.target).map Int16.toInt
  | .ctlTemp => some s.temp.target.toNat
  | .ctlDeltaUv => some s.duv.target.toInt
  | .deltaLevelLight | .moveLight | .moveTemp => some 0

end Server
end Lighting
end ZephyrSamples
