import ZephyrSamples.Lighting.Transition

/-!
# Message handlers

The server handlers of `device_composition.c`.  The handlers that start a transition are copies of
three bodies, one for a Set, one for a Delta Set and one for a Move Set, each in an acknowledged and
an unacknowledged form.  A body is written once here, over a record of what its copies put in, and
every handler of the source is that body applied to its own record.
-/

namespace ZephyrSamples
namespace Lighting

/-! ## Statuses -/

/-- What the `_get` handler and the `_publish` function of a status report: the opcode, the values
added for the present state and again for the target state, and the test by which the `_get` handler
leaves the target out. -/
structure StatusReport where
  op : StatusOp
  bindings : List StateBinding
  arrived : Server → Bool

namespace StatusReport

variable (r : StatusReport)

def get (now : Int) (s : Server) : Server :=
  let present := r.bindings.map s.getCurrent
  if r.arrived s then { s with sent := s.sent ++ [⟨r.op, present⟩] }
  else if s.transition.counter ≠ 0 then
    let s := { s with transition := s.transition.calculateRt now }
    { s with sent := s.sent ++
      [⟨r.op, present ++ r.bindings.map s.getTarget ++ [some (s.transition.rt.toNat : Int)]⟩] }
  else { s with sent := s.sent ++ [⟨r.op, present⟩] }

/-- Unlike `get`, a publication does not look whether the transition has arrived. -/
def publish (ctx : MsgCtx) (s : Server) : Server :=
  let present := r.bindings.map s.getCurrent
  if ctx.pubAssigned = false then s
  else if s.transition.counter ≠ 0 then
    let s := { s with transition := s.transition.calculateRt ctx.now }
    { s with published := s.published ++
      [⟨r.op, present ++ r.bindings.map s.getTarget ++ [some (s.transition.rt.toNat : Int)]⟩] }
  else { s with published := s.published ++ [⟨r.op, present⟩] }

end StatusReport

namespace Server

def lightArrived (s : Server) : Bool := s.light.current = s.light.target
def tempArrived (s : Server) : Bool := s.temp.current = s.temp.target
def duvArrived (s : Server) : Bool := s.duv.current = s.duv.target

end Server

def genOnoffStatus : StatusReport := ⟨.genOnoff, [.onoff], Server.lightArrived⟩
def genLevelStatus : StatusReport := ⟨.genLevel, [.levelLight], Server.lightArrived⟩
def lightLightnessStatus : StatusReport := ⟨.lightLightness, [.actual], Server.lightArrived⟩
def lightLightnessLinearStatus : StatusReport :=
  ⟨.lightLightnessLinear, [.linear], Server.lightArrived⟩
def lightCtlStatus : StatusReport :=
  ⟨.lightCtl, [.ctlLight, .ctlTemp], fun s => s.lightArrived && s.tempArrived⟩
def lightCtlTempStatus : StatusReport :=
  ⟨.lightCtlTemp, [.ctlTemp, .ctlDeltaUv], fun s => s.tempArrived && s.duvArrived⟩
def genLevelStatusTemp : StatusReport := ⟨.genLevel, [.levelTemp], Server.tempArrived⟩

def genOnoffGet := genOnoffStatus.get
def genLevelGet := genLevelStatus.get
def lightLightnessGet := lightLightnessStatus.get
def lightLightnessLinearGet := lightLightnessLinearStatus.get
def lightCtlGet := lightCtlStatus.get
def lightCtlTempGet := lightCtlTempStatus.get
def genLevelGetTemp := genLevelStatusTemp.get

namespace Server

/-- A response or a publication of plain values. -/
def send (op : StatusOp) (values : List Int) (s : Server) : Server :=
  { s with sent := s.sent ++ [⟨op, values.map some⟩] }

def publish (op : StatusOp) (values : List Int) (ctx : MsgCtx) (s : Server) : Server :=
  if ctx.pubAssigned = false then s
  else { s with published := s.published ++ [⟨op, values.map some⟩] }

/-! ## The checks and the preamble of a transition -/

/-- The message repeats the last transaction accepted, at most six seconds ago. -/
def isRepeat (tid : UInt8) (ctx : MsgCtx) (s : Server) : Bool :=
  s.lastTid = tid && s.lastSrcAddr = ctx.addr && s.lastDstAddr = ctx.recvDst &&
    ctx.now - s.lastMsgTimestamp ≤ 6000

/-- The transition time and delay at the end of a message, or `none` where the handler returns. -/
def optionalFields (buf : Buf) (s : Server) : Option (UInt8 × UInt8) :=
  match buf with
  | [] => some (s.tt, 0)
  | [tt, delay] => if tt &&& 0x3F = 0x3F then none else some (tt, delay)
  | _ => none

/-- What every accepted message does before it sets a target. -/
def beginTransition (type : TransitionType) (tid tt delay : UInt8) (ctx : MsgCtx) (s : Server) :
    Server :=
  let s := (s.setCounter 0).timerStop
  { s with
    lastTid := tid
    lastSrcAddr := ctx.addr
    lastDstAddr := ctx.recvDst
    lastMsgTimestamp := ctx.now
    transition := { s.transition with tt := tt, delay := delay, type := some type } }

def setJustStarted (s : Server) : Server :=
  { s with transition := { s.transition with justStarted := true } }

end Server

/-- What the checks at the head of a Set or Move handler make of a message. -/
inductive Verdict (α : Type) where
  | ignored
  | repeated
  | fresh (v : α) (tid tt delay : UInt8)

/-- The three attributes of the light. -/
inductive Attribute where
  | light
  | temp
  | duv
  deriving DecidableEq

def Target.attribute : Target → Attribute
  | .onoff _ | .levelLight _ | .deltaLevelLight _ | .moveLight _ => .light
  | .actual _ | .linear _ | .ctlLight _ => .light
  | .levelTemp _ | .moveTemp _ | .ctlTemp _ => .temp
  | .ctlDeltaUv _ => .duv

/-- The attributes a handler is about. -/
inductive Scope where
  | light
  | temp
  | tempDuv
  | lightTempDuv
  deriving DecidableEq

namespace Scope

/-- The test a handler makes before it starts a transition, negated. -/
def arrived : Scope → Server → Bool
  | .light, s => s.lightArrived
  | .temp, s => s.tempArrived
  | .tempDuv, s => s.tempArrived && s.duvArrived
  | .lightTempDuv, s => s.lightArrived && s.tempArrived && s.duvArrived

/-- The assignments of an instantaneous transition. -/
def settle : Scope → Server → Server
  | .light, s => s.lightToTarget
  | .temp, s => s.tempToTarget
  | .tempDuv, s => s.tempToTarget.duvToTarget
  | .lightTempDuv, s => s.lightToTarget.tempToTarget.duvToTarget

def has : Scope → Attribute → Bool
  | .light, .light => true
  | .temp, .temp => true
  | .tempDuv, .temp | .tempDuv, .duv => true
  | .lightTempDuv, _ => true
  | _, _ => false

end Scope

/-- What the handlers that start a transition put into the end they share: the attributes they move,
the binding they set the transition up for, the status that reports it and the expiry function that
carries it out. -/
structure Starter where
  scope : Scope
  binding : StateBinding
  status : StatusReport
  timer : TtHandler

namespace Starter

variable (h : Starter)

/-- A Set or Delta Set handler once the targets are set, unacknowledged and acknowledged. -/
def goUnack (ctx : MsgCtx) (s : Server) : Server :=
  if h.scope.arrived s then s
  else
    let s := s.setTransitionValues h.binding
    let s := if s.transition.counter = 0 then h.scope.settle s else s
    let s := s.setJustStarted
    let s := h.status.publish ctx s
    s.startHandler h.timer

def go (ctx : MsgCtx) (s : Server) : Server :=
  if h.scope.arrived s then h.status.get ctx.now s
  else
    let s := s.setTransitionValues h.binding
    let s := if s.transition.counter = 0 then h.scope.settle s else s
    let s := s.setJustStarted
    let s := h.status.get ctx.now s
    let s := h.status.publish ctx s
    s.startHandler h.timer

/-- A Move Set handler once the target is set.  Without a transition time it returns. -/
def moveUnack (ctx : MsgCtx) (s : Server) : Server :=
  if h.scope.arrived s then s
  else
    let s := s.setTransitionValues h.binding
    if s.transition.counter = 0 then s
    else
      let s := s.setJustStarted
      let s := h.status.publish ctx s
      s.startHandler h.timer

def move (ctx : MsgCtx) (s : Server) : Server :=
  if h.scope.arrived s then h.status.get ctx.now s
  else
    let s := s.setTransitionValues h.binding
    if s.transition.counter = 0 then s
    else
      let s := s.setJustStarted
      let s := h.status.get ctx.now s
      let s := h.status.publish ctx s
      s.startHandler h.timer

end Starter

/-- What a Set handler adds to the body it shares with the others: how it reads its fields and which
targets it sets. -/
structure SetHandler (α : Type) extends Starter where
  pull : Buf → α × UInt8 × Buf
  valid : α → Bool := fun _ => true
  targets : α → List Target
  covered : ∀ v, ∀ t ∈ targets v, scope.has t.attribute = true

namespace SetHandler

variable {α : Type} (h : SetHandler α) (linearToActual : UInt16 → UInt16)

def inspect (ctx : MsgCtx) (buf : Buf) (s : Server) : Verdict α :=
  let (v, tid, buf) := h.pull buf
  if !h.valid v then .ignored
  else if s.isRepeat tid ctx then .repeated
  else
    match s.optionalFields buf with
    | none => .ignored
    | some (tt, delay) => .fresh v tid tt delay

/-- The state in which the targets of an accepted message are set. -/
def aim (v : α) (tid tt delay : UInt8) (ctx : MsgCtx) (s : Server) : Server :=
  (h.targets v).foldl (fun s t => s.setTarget linearToActual t)
    (s.beginTransition .nonMove tid tt delay ctx)

def setUnack (ctx : MsgCtx) (buf : Buf) (s : Server) : Server :=
  match h.inspect ctx buf s with
  | .ignored => s
  | .repeated => s
  | .fresh v tid tt delay => h.goUnack ctx (h.aim linearToActual v tid tt delay ctx s)

def set (ctx : MsgCtx) (buf : Buf) (s : Server) : Server :=
  match h.inspect ctx buf s with
  | .ignored => s
  | .repeated => h.status.get ctx.now s
  | .fresh v tid tt delay => h.go ctx (h.aim linearToActual v tid tt delay ctx s)

end SetHandler

/-- What a Move Set handler adds to its body: `setDelta` stores the delta, `target` is the end of
the range the attribute moves to. -/
structure MoveHandler extends Starter where
  setDelta : Int → Server → Server
  target : Int16 → Server → Target
  covered : ∀ delta s, scope.has (target delta s).attribute = true

namespace MoveHandler

def inspect (ctx : MsgCtx) (buf : Buf) (s : Server) : Verdict Int16 :=
  let (delta, buf) := pullLe16 buf
  let (tid, buf) := pullU8 buf
  if s.isRepeat tid ctx then .repeated
  else
    match s.optionalFields buf with
    | none => .ignored
    | some (tt, delay) => .fresh (toS16 delta) tid tt delay

variable (h : MoveHandler) (linearToActual : UInt16 → UInt16)

def aim (delta : Int16) (tid tt delay : UInt8) (ctx : MsgCtx) (s : Server) : Server :=
  let s := h.setDelta delta.toInt (s.beginTransition .move tid tt delay ctx)
  s.setTarget linearToActual (h.target delta s)

def setUnack (ctx : MsgCtx) (buf : Buf) (s : Server) : Server :=
  match inspect ctx buf s with
  | .ignored => s
  | .repeated => s
  | .fresh delta tid tt delay => h.moveUnack ctx (h.aim linearToActual delta tid tt delay ctx s)

def set (ctx : MsgCtx) (buf : Buf) (s : Server) : Server :=
  match inspect ctx buf s with
  | .ignored => s
  | .repeated => h.status.get ctx.now s
  | .fresh delta tid tt delay => h.move ctx (h.aim linearToActual delta tid tt delay ctx s)

end MoveHandler

/-- What a Delta Set handler adds to its body.  `lastLevel` and `setLastLevel` are the handler's own
static variable, `delta` the field it compares a repeated delta with. -/
structure DeltaHandler extends Starter where
  lastLevel : LastLevels → Int16
  setLastLevel : Int16 → LastLevels → LastLevels
  delta : Server → Int
  level : Server → Int16
  target : Int16 → Target
  covered : ∀ level, scope.has (target level).attribute = true

namespace DeltaHandler

variable (h : DeltaHandler) (linearToActual : UInt16 → UInt16)

/-- A Delta Set of the last transaction is a repetition only if it carries the `delta` of the
transition under way; otherwise it starts again from the level the transaction started from. -/
def inspect (ctx : MsgCtx) (buf : Buf) (s : Server) : Verdict Int32 × Server :=
  let (delta, buf) := pullLe32 buf
  let delta := Int32.ofInt delta.toNat
  let (tid, buf) := pullU8 buf
  if s.isRepeat tid ctx && h.delta s = delta.toInt then (.repeated, s)
  else
    let s :=
      if s.isRepeat tid ctx then s
      else { s with lastLevels := h.setLastLevel (h.level s) s.lastLevels }
    let target := (h.lastLevel s.lastLevels).toInt32 + delta
    match s.optionalFields buf with
    | none => (.ignored, s)
    | some (tt, delay) => (.fresh target tid tt delay, s)

/-- The clamp of the target to a level. -/
def clampLevel (target : Int32) : Int16 :=
  if target.toInt < -32768 then -32768
  else if target.toInt > 32767 then 32767
  else Int16.ofInt target.toInt

def aim (target : Int32) (tid tt delay : UInt8) (ctx : MsgCtx) (s : Server) : Server :=
  (s.beginTransition .nonMove tid tt delay ctx).setTarget linearToActual
    (h.target (clampLevel target))

def setUnack (ctx : MsgCtx) (buf : Buf) (s : Server) : Server :=
  match h.inspect ctx buf s with
  | (.ignored, s) => s
  | (.repeated, s) => s
  | (.fresh target tid tt delay, s) =>
    h.goUnack ctx (h.aim linearToActual target tid tt delay ctx s)

def set (ctx : MsgCtx) (buf : Buf) (s : Server) : Server :=
  match h.inspect ctx buf s with
  | (.ignored, s) => s
  | (.repeated, s) => h.status.get ctx.now s
  | (.fresh target tid tt delay, s) => h.go ctx (h.aim linearToActual target tid tt delay ctx s)

end DeltaHandler

/-! ## The handlers that start a transition -/

/-- Two mandatory fields in the order of the buffer: a byte, then the transaction identifier. -/
def pullOnoff (buf : Buf) : UInt8 × UInt8 × Buf :=
  let (onoff, buf) := pullU8 buf
  let (tid, buf) := pullU8 buf
  (onoff, tid, buf)

def pullWord (buf : Buf) : UInt16 × UInt8 × Buf :=
  let (word, buf) := pullLe16 buf
  let (tid, buf) := pullU8 buf
  (word, tid, buf)

def pullCtl (buf : Buf) : (UInt16 × UInt16 × Int16) × UInt8 × Buf :=
  let (lightness, buf) := pullLe16 buf
  let (temp, buf) := pullLe16 buf
  let (deltaUv, buf) := pullLe16 buf
  let (tid, buf) := pullU8 buf
  ((lightness, temp, toS16 deltaUv), tid, buf)

def pullCtlTemp (buf : Buf) : (UInt16 × Int16) × UInt8 × Buf :=
  let (temp, buf) := pullLe16 buf
  let (deltaUv, buf) := pullLe16 buf
  let (tid, buf) := pullU8 buf
  ((temp, toS16 deltaUv), tid, buf)

def tempInRange (temp : UInt16) : Bool := !(temp < tempMin || temp > tempMax)

section Handlers

variable (linearToActual : UInt16 → UInt16)

def genOnoff : SetHandler UInt8 where
  pull := pullOnoff
  valid onoff := onoff ≤ stateOn
  targets onoff := [.onoff onoff]
  scope := .light
  covered := by simp [Target.attribute, Scope.has]
  binding := .onoff
  status := genOnoffStatus
  timer := .onoff

def genOnoffSetUnack := genOnoff.setUnack linearToActual
def genOnoffSet := genOnoff.set linearToActual

def genLevel : SetHandler UInt16 where
  pull := pullWord
  targets level := [.levelLight (toS16 level)]
  scope := .light
  covered := by simp [Target.attribute, Scope.has]
  binding := .levelLight
  status := genLevelStatus
  timer := .levelLightness

def genLevelSetUnack := genLevel.setUnack linearToActual
def genLevelSet := genLevel.set linearToActual

/-- The two light Delta Set handlers differ in the static variable they keep the level in. -/
def genDelta (lastLevel : LastLevels → Int16) (setLastLevel : Int16 → LastLevels → LastLevels) :
    DeltaHandler where
  lastLevel := lastLevel
  setLastLevel := setLastLevel
  delta s := s.light.delta
  level s := Server.levelOf s.light.current
  target := .deltaLevelLight
  scope := .light
  covered _ := rfl
  binding := .levelLight
  status := genLevelStatus
  timer := .levelLightness

def genDeltaUnack : DeltaHandler :=
  genDelta LastLevels.genDeltaSetUnack fun level l => { l with genDeltaSetUnack := level }

def genDeltaAck : DeltaHandler :=
  genDelta LastLevels.genDeltaSet fun level l => { l with genDeltaSet := level }

def genDeltaSetUnack := genDeltaUnack.setUnack linearToActual
def genDeltaSet := genDeltaAck.set linearToActual

/-- The end of the range a Move goes to; it stays where it is when the delta is zero. -/
def moveTarget (delta : Int16) (current rangeMin rangeMax : UInt16) : UInt16 :=
  if delta < 0 then rangeMin else if delta > 0 then rangeMax else current

def genMove : MoveHandler where
  setDelta delta s := { s with light := { s.light with delta := delta } }
  target delta s :=
    .moveLight (moveTarget delta s.light.current s.light.rangeMin s.light.rangeMax)
  scope := .light
  covered _ _ := rfl
  binding := .moveLight
  status := genLevelStatus
  timer := .levelLightness

def genMoveSetUnack := genMove.setUnack linearToActual
def genMoveSet := genMove.set linearToActual

def lightLightness : SetHandler UInt16 where
  pull := pullWord
  targets actual := [.actual actual]
  scope := .light
  covered := by simp [Target.attribute, Scope.has]
  binding := .actual
  status := lightLightnessStatus
  timer := .lightLightnessActual

def lightLightnessSetUnack := lightLightness.setUnack linearToActual
def lightLightnessSet := lightLightness.set linearToActual

def lightLightnessLinear : SetHandler UInt16 where
  pull := pullWord
  targets linear := [.linear linear]
  scope := .light
  covered := by simp [Target.attribute, Scope.has]
  binding := .linear
  status := lightLightnessLinearStatus
  timer := .lightLightnessLinear

def lightLightnessLinearSetUnack := lightLightnessLinear.setUnack linearToActual
def lightLightnessLinearSet := lightLightnessLinear.set linearToActual

def lightCtl : SetHandler (UInt16 × UInt16 × Int16) where
  pull := pullCtl
  valid v := tempInRange v.2.1
  targets v := [.ctlLight v.1, .ctlTemp v.2.1, .ctlDeltaUv v.2.2]
  scope := .lightTempDuv
  covered := by simp [Scope.has]
  binding := .ctlLight
  status := lightCtlStatus
  timer := .lightCtl

def lightCtlSetUnack := lightCtl.setUnack linearToActual
def lightCtlSet := lightCtl.set linearToActual

def lightCtlTemp : SetHandler (UInt16 × Int16) where
  pull := pullCtlTemp
  valid v := tempInRange v.1
  targets v := [.ctlTemp v.1, .ctlDeltaUv v.2]
  scope := .tempDuv
  covered := by simp [Target.attribute, Scope.has]
  binding := .ctlTemp
  status := lightCtlTempStatus
  timer := .lightCtlTemp

def lightCtlTempSetUnack := lightCtlTemp.setUnack linearToActual
def lightCtlTempSet := lightCtlTemp.set linearToActual

def genLevelTemp : SetHandler UInt16 where
  pull := pullWord
  targets level := [.levelTemp (toS16 level)]
  scope := .temp
  covered := by simp [Target.attribute, Scope.has]
  binding := .levelTemp
  status := genLevelStatusTemp
  timer := .levelTemp

def genLevelSetUnackTemp := genLevelTemp.setUnack linearToActual
def genLevelSetTemp := genLevelTemp.set linearToActual

/-- The two temperature Delta Set handlers.  In C the level is undefined when the range is a single
temperature; the value kept then is immaterial. -/
def genDeltaTemp (lastLevel : LastLevels → Int16)
    (setLastLevel : Int16 → LastLevels → LastLevels) : DeltaHandler where
  lastLevel := lastLevel
  setLastLevel := setLastLevel
  delta s := s.temp.delta
  level s := (s.lightCtlTempToLevel s.temp.current).getD 0
  target := .levelTemp
  scope := .temp
  covered _ := rfl
  binding := .levelTemp
  status := genLevelStatusTemp
  timer := .levelTemp

def genDeltaUnackTemp : DeltaHandler :=
  genDeltaTemp LastLevels.genDeltaSetUnackTemp fun level l =>
    { l with genDeltaSetUnackTemp := level }

def genDeltaAckTemp : DeltaHandler :=
  genDeltaTemp LastLevels.genDeltaSetTemp fun level l => { l with genDeltaSetTemp := level }

def genDeltaSetUnackTemp := genDeltaUnackTemp.setUnack linearToActual
def genDeltaSetTemp := genDeltaAckTemp.set linearToActual

def genMoveTemp : MoveHandler where
  setDelta delta s := { s with temp := { s.temp with delta := delta } }
  target delta s :=
    .moveTemp (moveTarget delta s.temp.current s.temp.rangeMin s.temp.rangeMax)
  scope := .temp
  covered _ _ := rfl
  binding := .moveTemp
  status := genLevelStatusTemp
  timer := .levelTemp

def genMoveSetUnackTemp := genMoveTemp.setUnack linearToActual
def genMoveSetTemp := genMoveTemp.set linearToActual

end Handlers

/-! ## The handlers of stored states -/

namespace Server

def genDefTransTimeGet (s : Server) : Server := s.send .genDefTransTime [s.tt.toNat]

def genDefTransTimePublish (ctx : MsgCtx) (s : Server) : Server :=
  s.publish .genDefTransTime [s.tt.toNat] ctx

def genOnpowerupGet (s : Server) : Server := s.send .genOnpowerup [s.onpowerup.toNat]

def genOnpowerupPublish (ctx : MsgCtx) (s : Server) : Server :=
  s.publish .genOnpowerup [s.onpowerup.toNat] ctx

def lightLightnessLastGet (s : Server) : Server := s.send .lightLightnessLast [s.light.last.toNat]

def lightLightnessDefaultGet (s : Server) : Server :=
  s.send .lightLightnessDefault [s.light.dflt.toNat]

def lightLightnessDefaultPublish (ctx : MsgCtx) (s : Server) : Server :=
  s.publish .lightLightnessDefault [s.light.dflt.toNat] ctx

def lightLightnessRangeGet (s : Server) : Server :=
  let s := { s with light := { s.light with statusCode := rangeSuccessfullyUpdated } }
  s.send .lightLightnessRange
    [s.light.statusCode.toNat, s.light.rangeMin.toNat, s.light.rangeMax.toNat]

def lightLightnessRangePublish (ctx : MsgCtx) (s : Server) : Server :=
  s.publish .lightLightnessRange
    [s.light.statusCode.toNat, s.light.rangeMin.toNat, s.light.rangeMax.toNat] ctx

def lightCtlDefaultGet (s : Server) : Server :=
  s.send .lightCtlDefault [s.light.dflt.toNat, s.temp.dflt.toNat, s.duv.dflt.toInt]

def lightCtlDefaultPublish (ctx : MsgCtx) (s : Server) : Server :=
  s.publish .lightCtlDefault [s.light.dflt.toNat, s.temp.dflt.toNat, s.duv.dflt.toInt] ctx

def lightCtlTempRangeGet (s : Server) : Server :=
  let s := { s with temp := { s.temp with statusCode := rangeSuccessfullyUpdated } }
  s.send .lightCtlTempRange
    [s.temp.statusCode.toNat, s.temp.rangeMin.toNat, s.temp.rangeMax.toNat]

def lightCtlTempRangePublish (ctx : MsgCtx) (s : Server) : Server :=
  s.publish .lightCtlTempRange
    [s.temp.statusCode.toNat, s.temp.rangeMin.toNat, s.temp.rangeMax.toNat] ctx

end Server

def genDefTransTimeSetUnack (ctx : MsgCtx) (buf : Buf) (s : Server) : Server :=
  let (tt, _) := pullU8 buf
  if tt &&& 0x3F = 0x3F then s
  else if s.tt ≠ tt then
    ({ s with tt := tt }.genDefTransTimePublish ctx).saveOnFlash .genDefTransTimeState
  else s

def genDefTransTimeSet (ctx : MsgCtx) (buf : Buf) (s : Server) : Server :=
  let (tt, _) := pullU8 buf
  if tt &&& 0x3F = 0x3F then s
  else if s.tt ≠ tt then
    ({ s with tt := tt }.genDefTransTimeGet.genDefTransTimePublish ctx).saveOnFlash
      .genDefTransTimeState
  else s.genDefTransTimeGet

def genOnpowerupSetUnack (ctx : MsgCtx) (buf : Buf) (s : Server) : Server :=
  let (onpowerup, _) := pullU8 buf
  if onpowerup > stateRestore then s
  else if s.onpowerup ≠ onpowerup then
    ({ s with onpowerup := onpowerup }.genOnpowerupPublish ctx).saveOnFlash .genOnpowerupState
  else s

def genOnpowerupSet (ctx : MsgCtx) (buf : Buf) (s : Server) : Server :=
  let (onpowerup, _) := pullU8 buf
  if onpowerup > stateRestore then s
  else if s.onpowerup ≠ onpowerup then
    ({ s with onpowerup := onpowerup }.genOnpowerupGet.genOnpowerupPublish ctx).saveOnFlash
      .genOnpowerupState
  else s.genOnpowerupGet

def lightLightnessDefaultSetUnack (ctx : MsgCtx) (buf : Buf) (s : Server) : Server :=
  let (lightness, _) := pullLe16 buf
  let lightness := s.constrainLightness lightness
  if s.light.dflt ≠ lightness then
    ({ s with light := { s.light with dflt := lightness } }.lightLightnessDefaultPublish
      ctx).saveOnFlash .defStates
  else s

def lightLightnessDefaultSet (ctx : MsgCtx) (buf : Buf) (s : Server) : Server :=
  let (lightness, _) := pullLe16 buf
  let lightness := s.constrainLightness lightness
  if s.light.dflt ≠ lightness then
    ({ s with light := { s.light with dflt := lightness } }
      |>.lightLightnessDefaultGet.lightLightnessDefaultPublish ctx).saveOnFlash .defStates
  else s.lightLightnessDefaultGet

def lightLightnessRangeSetUnack (ctx : MsgCtx) (buf : Buf) (s : Server) : Server :=
  let (min, buf) := pullLe16 buf
  let (max, _) := pullLe16 buf
  if min = 0 || max = 0 then s
  else if min ≤ max then
    let s := { s with light := { s.light with statusCode := rangeSuccessfullyUpdated } }
    if s.light.rangeMin ≠ min || s.light.rangeMax ≠ max then
      ({ s with light := { s.light with rangeMin := min, rangeMax := max } }
        |>.lightLightnessRangePublish ctx).saveOnFlash .lightnessRange
    else s
  else { s with light := { s.light with statusCode := cannotSetRangeMax } }

def lightLightnessRangeSet (ctx : MsgCtx) (buf : Buf) (s : Server) : Server :=
  let (min, buf) := pullLe16 buf
  let (max, _) := pullLe16 buf
  if min = 0 || max = 0 then s
  else if min ≤ max then
    let s := { s with light := { s.light with statusCode := rangeSuccessfullyUpdated } }
    if s.light.rangeMin ≠ min || s.light.rangeMax ≠ max then
      ({ s with light := { s.light with
        rangeMin := min, rangeMax := max } }.lightLightnessRangeGet.lightLightnessRangePublish
          ctx).saveOnFlash .lightnessRange
    else s.lightLightnessRangeGet
  else { s with light := { s.light with statusCode := cannotSetRangeMax } }

def lightCtlDefaultSetUnack (ctx : MsgCtx) (buf : Buf) (s : Server) : Server :=
  let (lightness, buf) := pullLe16 buf
  let (temp, buf) := pullLe16 buf
  let (deltaUv, _) := pullLe16 buf
  if temp < tempMin || temp > tempMax then s
  else
    let lightness := s.constrainLightness lightness
    let temp := s.constrainTemperature temp
    if s.light.dflt ≠ lightness || s.temp.dflt ≠ temp || s.duv.dflt ≠ toS16 deltaUv then
      ({ s with
        light := { s.light with dflt := lightness }
        temp := { s.temp with dflt := temp }
        duv := { s.duv with dflt := toS16 deltaUv } }.lightCtlDefaultPublish ctx).saveOnFlash
          .defStates
    else s

def lightCtlDefaultSet (ctx : MsgCtx) (buf : Buf) (s : Server) : Server :=
  let (lightness, buf) := pullLe16 buf
  let (temp, buf) := pullLe16 buf
  let (deltaUv, _) := pullLe16 buf
  if temp < tempMin || temp > tempMax then s
  else
    let lightness := s.constrainLightness lightness
    let temp := s.constrainTemperature temp
    if s.light.dflt ≠ lightness || s.temp.dflt ≠ temp || s.duv.dflt ≠ toS16 deltaUv then
      ({ s with
        light := { s.light with dflt := lightness }
        temp := { s.temp with dflt := temp }
        duv := { s.duv with dflt := toS16 deltaUv } }.lightCtlDefaultGet.lightCtlDefaultPublish
          ctx).saveOnFlash .defStates
    else s.lightCtlDefaultGet

def lightCtlTempRangeSetUnack (ctx : MsgCtx) (buf : Buf) (s : Server) : Server :=
  let (min, buf) := pullLe16 buf
  let (max, _) := pullLe16 buf
  if min < tempMin || min > tempMax || max < tempMin || max > tempMax then s
  else if min ≤ max then
    let s := { s with temp := { s.temp with statusCode := rangeSuccessfullyUpdated } }
    if s.temp.rangeMin ≠ min || s.temp.rangeMax ≠ max then
      ({ s with temp := { s.temp with rangeMin := min, rangeMax := max } }.lightCtlTempRangePublish
        ctx).saveOnFlash .temperatureRange
    else s
  else { s with temp := { s.temp with statusCode := cannotSetRangeMax } }

def lightCtlTempRangeSet (ctx : MsgCtx) (buf : Buf) (s : Server) : Server :=
  let (min, buf) := pullLe16 buf
  let (max, _) := pullLe16 buf
  if min < tempMin || min > tempMax || max < tempMin || max > tempMax then s
  else if min ≤ max then
    let s := { s with temp := { s.temp with statusCode := rangeSuccessfullyUpdated } }
    if s.temp.rangeMin ≠ min || s.temp.rangeMax ≠ max then
      ({ s with temp := { s.temp with
        rangeMin := min, rangeMax := max } }.lightCtlTempRangeGet.lightCtlTempRangePublish
          ctx).saveOnFlash .temperatureRange
    else s.lightCtlTempRangeGet
  else { s with temp := { s.temp with statusCode := cannotSetRangeMax } }

end Lighting
end ZephyrSamples
