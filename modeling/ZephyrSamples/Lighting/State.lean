import ZephyrSamples.Lib.Binary32

/-!
# The state of the lighting server

`device_composition.h`, `transition.h` and the file-scope variables of `main.c` and
`no_transition_work_handler.c` that the message handlers, the transition timer and the work queue
share.  Integer fields keep the width they have in C; `int delta` and the `s64_t` timestamps are
integers, and nothing in the sample comes near their bounds.
-/

namespace ZephyrSamples
namespace Lighting

def stateOff : UInt8 := 0x00
def stateOn : UInt8 := 0x01
def stateDefault : UInt8 := 0x01
def stateRestore : UInt8 := 0x02

def lightnessMin : UInt16 := 0x0001
def lightnessMax : UInt16 := 0xFFFF
def tempMin : UInt16 := 0x0320
def tempMax : UInt16 := 0x4E20
def deltaUvDef : Int16 := 0x0000

def rangeSuccessfullyUpdated : UInt8 := 0x00
def cannotSetRangeMax : UInt8 := 0x02

def unknownValue : UInt8 := 0x3F
def deviceSpecificResolution : UInt32 := 10

/-- `struct lightness`.  The C field `def` is `dflt` here. -/
structure Lightness where
  current : UInt16 := 0
  target : UInt16 := 0
  dflt : UInt16 := 0
  last : UInt16 := 0
  statusCode : UInt8 := 0
  rangeMin : UInt16 := 0
  rangeMax : UInt16 := 0
  range : UInt32 := 0
  delta : Int := 0
  deriving DecidableEq

/-- `struct temperature`. -/
structure Temperature where
  current : UInt16 := 0
  target : UInt16 := 0
  dflt : UInt16 := 0
  statusCode : UInt8 := 0
  rangeMin : UInt16 := 0
  rangeMax : UInt16 := 0
  range : UInt32 := 0
  delta : Int := 0
  deriving DecidableEq

/-- `struct delta_uv`. -/
structure DeltaUv where
  current : Int16 := 0
  target : Int16 := 0
  dflt : Int16 := 0
  delta : Int := 0
  deriving DecidableEq

/-- `enum transition_types`.  The field is zero, neither of the two, until the first message. -/
inductive TransitionType where
  | move
  | nonMove
  deriving DecidableEq

/-- The expiry functions `k_timer_init` installs on the transition timer. -/
inductive TtHandler where
  | onoff
  | levelLightness
  | levelTemp
  | lightLightnessActual
  | lightLightnessLinear
  | lightCtl
  | lightCtlTemp
  deriving DecidableEq

/-- The kernel timer of a transition.  A timer whose period is zero expires once. -/
structure Timer where
  handler : Option TtHandler := none
  running : Bool := false
  duration : Nat := 0
  period : Nat := 0
  deriving DecidableEq

/-- `struct transition`. -/
structure Transition where
  justStarted : Bool := false
  type : Option TransitionType := none
  tt : UInt8 := 0
  rt : UInt8 := 0
  delay : UInt8 := 0
  quoTt : UInt32 := 0
  counter : UInt32 := 0
  totalDuration : UInt32 := 0
  startTimestamp : Int := 0
  timer : Timer := {}
  deriving DecidableEq

/-- `enum ps_variables_id`. -/
inductive PsVariable where
  | resetCounter
  | genDefTransTimeState
  | genOnpowerupState
  | defStates
  | lightnessLastState
  | lastTargetStates
  | lightnessRange
  | temperatureRange
  deriving DecidableEq

/-- The opcodes of the status messages. -/
inductive StatusOp where
  | genOnoff
  | genLevel
  | genDefTransTime
  | genOnpowerup
  | lightLightness
  | lightLightnessLinear
  | lightLightnessLast
  | lightLightnessDefault
  | lightLightnessRange
  | lightCtl
  | lightCtlDefault
  | lightCtlTempRange
  | lightCtlTemp
  deriving DecidableEq

/-- A status message: its opcode and the values added to the buffer, in order.  A value is `none`
where C leaves the conversion that computes it undefined. -/
structure Status where
  op : StatusOp
  fields : List (Option Int)
  deriving DecidableEq

/-- What a handler asks of the kernel and of the storage module. -/
inductive Effect where
  | timerStop
  | timerStart (handler : TtHandler) (duration period : Nat)
  | saveOnFlash (id : PsVariable)
  | submitNoTransitionWork
  | startUnsolicitedPublishTimer (duration : Nat)
  deriving DecidableEq

/-- The levels `update_led_gpio` drives on the LED pins.  `led3` is `none` where the colour it
depends on is undefined. -/
structure Leds where
  led0 : UInt16 := 0
  led2 : Bool := false
  led3 : Option Bool := some false
  deriving DecidableEq

/-- The `static s16_t last_level` of the four Delta Set handlers. -/
structure LastLevels where
  genDeltaSetUnack : Int16 := 0
  genDeltaSet : Int16 := 0
  genDeltaSetUnackTemp : Int16 := 0
  genDeltaSetTemp : Int16 := 0
  deriving DecidableEq

/-- `struct light_ctl_state` with the static variables around it.  `reset` is the flag of `main.c`,
`noTransitionQueued` the pending mark of `no_transition_work`, and the three lists record, oldest
first, the requests made to the kernel and the storage, the status responses and the
publications. -/
structure Server where
  light : Lightness := {}
  temp : Temperature := {}
  duv : DeltaUv := {}
  onpowerup : UInt8 := 0
  tt : UInt8 := 0
  lastTid : UInt8 := 0
  lastSrcAddr : UInt16 := 0
  lastDstAddr : UInt16 := 0
  lastMsgTimestamp : Int := 0
  transition : Transition := {}
  lastLevels : LastLevels := {}
  resetCounter : UInt8 := 0
  reset : Bool := false
  noTransitionQueued : Bool := false
  leds : Leds := {}
  effects : List Effect := []
  sent : List Status := []
  published : List Status := []

/-- The message context a handler reads: the addresses, the uptime when it runs, and whether the
publication address of its model is assigned. -/
structure MsgCtx where
  addr : UInt16
  recvDst : UInt16
  now : Int
  pubAssigned : Bool := false
  deriving DecidableEq

/-- The payload of an access message, in network order of its bytes. -/
abbrev Buf := List UInt8

/-- `net_buf_simple_pull_u8`.  The access layer hands a handler at least the bytes it pulls without
looking at the length, so the value at the end of the buffer is never read. -/
def pullU8 : Buf → UInt8 × Buf
  | [] => (0, [])
  | b :: buf => (b, buf)

def pullLe16 (buf : Buf) : UInt16 × Buf :=
  let (lo, buf) := pullU8 buf
  let (hi, buf) := pullU8 buf
  (UInt16.ofNat (lo.toNat + 256 * hi.toNat), buf)

def pullLe32 (buf : Buf) : UInt32 × Buf :=
  let (lo, buf) := pullLe16 buf
  let (hi, buf) := pullLe16 buf
  (UInt32.ofNat (lo.toNat + 65536 * hi.toNat), buf)

/-- A 16-bit word read as `s16_t`. -/
def toS16 (w : UInt16) : Int16 := Int16.ofInt w.toNat

namespace Server

/-- `save_on_flash`, as far as the handlers are concerned: the request. -/
def saveOnFlash (id : PsVariable) (s : Server) : Server :=
  { s with effects := s.effects ++ [.saveOnFlash id] }

/-- `k_timer_stop(&ctl->transition->timer)`. -/
def timerStop (s : Server) : Server :=
  { s with
    transition := { s.transition with timer := { s.transition.timer with running := false } }
    effects := s.effects ++ [.timerStop] }

/-- `k_timer_init` with an expiry function, then `k_timer_start`. -/
def timerStart (handler : TtHandler) (duration period : Nat) (s : Server) : Server :=
  { s with
    transition := { s.transition with
      timer :=
        { handler := some handler, running := true, duration := duration, period := period } }
    effects := s.effects ++ [.timerStart handler duration period] }

/-- `k_work_submit(&no_transition_work)`: a pending item stays pending. -/
def submitNoTransitionWork (s : Server) : Server :=
  { s with noTransitionQueued := true, effects := s.effects ++ [.submitNoTransitionWork] }

/-- All three attributes are at their targets. -/
def AtRest (s : Server) : Prop :=
  s.light.current = s.light.target ∧ s.temp.current = s.temp.target ∧
    s.duv.current = s.duv.target

instance (s : Server) : Decidable s.AtRest :=
  inferInstanceAs (Decidable (_ ∧ _ ∧ _))

end Server
end Lighting
end ZephyrSamples
