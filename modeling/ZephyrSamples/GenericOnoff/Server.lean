import Mathlib.Data.List.Basic

/-!
# The Generic OnOff servers

`gen_onoff_set` and `gen_onoff_set_unack` of the mesh onoff sample and of the mesh badge, each with
the state of its model.  Both end in the same code: the value published last is remembered, and a
status is published when the value is a different one and a publish address is assigned.  What is
printed is left out, but for the badge's word that a message was already received.
-/

namespace ZephyrSamples
namespace GenericOnoff

abbrev Byte := UInt8

/-- `BT_MESH_ADDR_UNASSIGNED` -/
def unassigned : UInt16 := 0

/-- A Generic OnOff Set or Set Unacknowledged message: its payload, the address in its context, and
the uptime in milliseconds at which it is handled. -/
structure SetMsg where
  onoff : Byte
  tid : Byte
  addr : UInt16
  now : Int
  deriving DecidableEq

/-- The end of `gen_onoff_set_unack`: `previous` after it, and the status it publishes. -/
def publishOnChange (previous current : Byte) (pubAddr : UInt16) : Byte × Option Byte :=
  if previous ≠ current ∧ pubAddr ≠ unassigned then (current, some current) else (previous, none)

namespace App

/-- `struct onoff_state` of the mesh onoff sample, without its LED. -/
structure OnoffState where
  current : Byte := 0
  previous : Byte := 0
  deriving DecidableEq

/-- `gen_onoff_set_unack`: the state after it and the status it publishes.  The result of
`gpio_pin_set` is not looked at. -/
def genOnoffSetUnack (pubAddr : UInt16) (msg : SetMsg) (s : OnoffState) :
    OnoffState × Option Byte :=
  let (previous, published) := publishOnChange s.previous msg.onoff pubAddr
  ({ current := msg.onoff, previous }, published)

/-- `gen_onoff_get`: the status sent in reply. -/
def genOnoffGet (s : OnoffState) : Byte := s.current

/-- `gen_onoff_set`: the state after it, the status it publishes and the one it replies with. -/
def genOnoffSet (pubAddr : UInt16) (msg : SetMsg) (s : OnoffState) :
    OnoffState × Option Byte × Byte :=
  let (s, published) := genOnoffSetUnack pubAddr msg s
  (s, published, genOnoffGet s)

end App

namespace Badge

/-- `STATE_ON` -/
def stateOn : Byte := 1

/-- `K_SECONDS(6)`, in milliseconds. -/
def window : Int := 6000

/-- `struct led_onoff_state` of the mesh badge, without its LED. -/
structure LedOnoffState where
  current : Byte := 0
  previous : Byte := 0
  lastTid : Byte := 0
  lastTxAddr : UInt16 := 0
  lastMsgTimestamp : Int := 0
  deriving DecidableEq

/-- What `gen_onoff_set_unack` leaves: the state, whether it prints that the message was already
received, and the status it publishes. -/
structure Handled where
  state : LedOnoffState
  already : Bool
  published : Option Byte

/-- The message has the source and the `tid` of the last one, and that was not long ago. -/
def isLast (msg : SetMsg) (s : LedOnoffState) : Bool :=
  s.lastTid = msg.tid && s.lastTxAddr = msg.addr && msg.now - s.lastMsgTimestamp ≤ window

/-- `gen_onoff_set_unack`, where `ledOk` is whether `set_led_state` returns 0. -/
def genOnoffSetUnack (pubAddr : UInt16) (ledOk : Bool) (msg : SetMsg) (s : LedOnoffState) :
    Handled :=
  if stateOn < msg.onoff then { state := s, already := false, published := none }
  else
    -- a message that was already received is handled like any other
    let already := isLast msg s
    let s :=
      { s with
        current := msg.onoff
        lastTid := msg.tid
        lastTxAddr := msg.addr
        lastMsgTimestamp := msg.now }
    if ledOk then
      let (previous, published) := publishOnChange s.previous s.current pubAddr
      { state := { s with previous }, already, published }
    else { state := s, already, published := none }

/-- `gen_onoff_get`: the status sent in reply. -/
def genOnoffGet (s : LedOnoffState) : Byte := s.current

/-- `gen_onoff_set`: what `gen_onoff_set_unack` leaves, and the status sent in reply. -/
def genOnoffSet (pubAddr : UInt16) (ledOk : Bool) (msg : SetMsg) (s : LedOnoffState) :
    Handled × Byte :=
  let handled := genOnoffSetUnack pubAddr ledOk msg s
  (handled, genOnoffGet handled.state)

theorem current_of_valid {msg : SetMsg} (h : msg.onoff ≤ stateOn) (pubAddr : UInt16) (ledOk : Bool)
    (s : LedOnoffState) : (genOnoffSetUnack pubAddr ledOk msg s).state.current = msg.onoff := by
  have hvalid : ¬ stateOn < msg.onoff := UInt8.not_lt.mpr h
  rw [genOnoffSetUnack, if_neg hvalid]
  cases ledOk <;> rfl

end Badge

end GenericOnoff
end ZephyrSamples
