import ZephyrSamples.GenericOnoff.Server
import ZephyrSamples.Lib.Runs

/-!
# Retransmissions to the mesh badge

A client may send a message again, and copies of several messages may arrive in any order.  The
badge's server sees that a message is a copy of the last one, and prints it, but then handles the
copy like a new message.  So its state is the value of the message that arrived last, and that is
the value of the last new message exactly as long as copies carry that value too.
-/

namespace ZephyrSamples
namespace GenericOnoff
namespace Badge

open Runs

/-- A message of a client: the `seq`-th that it sends, with a valid state. -/
structure Message where
  addr : UInt16
  seq : Nat
  tid : Byte
  onoff : Byte
  acked : Bool
  valid : onoff ≤ stateOn
  deriving DecidableEq

/-- A message or a copy of it arrives: when, under which publish address, and whether the LED can
then be set. -/
structure Delivery where
  msg : Message
  now : Int
  pubAddr : UInt16 := unassigned
  ledOk : Bool := true

/-- The server, with the messages that have arrived and the value of the last of them that was
new. -/
structure Run where
  state : LedOnoffState := {}
  arrived : List Message := []
  latest : Byte := 0

def Delivery.setMsg (d : Delivery) : SetMsg :=
  { onoff := d.msg.onoff, tid := d.msg.tid, addr := d.msg.addr, now := d.now }

/-- The handler that a message goes to. -/
def Delivery.handle (d : Delivery) (s : LedOnoffState) : Handled :=
  if d.msg.acked then (genOnoffSet d.pubAddr d.ledOk d.setMsg s).1
  else genOnoffSetUnack d.pubAddr d.ledOk d.setMsg s

def deliver (r : Run) (d : Delivery) : Run :=
  { state := (d.handle r.state).state
    arrived := d.msg :: r.arrived
    latest := if d.msg ∈ r.arrived then r.latest else d.msg.onoff }

/-- The state is the value of the last new message. -/
def Sound (r : Run) : Prop := r.state.current = r.latest

/-- A copy carries the value of the last new message. -/
def CopiesAgree (r : Run) (d : Delivery) : Prop := d.msg ∈ r.arrived → d.msg.onoff = r.latest

theorem current_handle (d : Delivery) (s : LedOnoffState) :
    (d.handle s).state.current = d.msg.onoff := by
  have hvalid : d.setMsg.onoff ≤ stateOn := d.msg.valid
  have hset := current_of_valid hvalid d.pubAddr d.ledOk s
  unfold Delivery.handle
  split
  · exact hset
  · exact hset

theorem sound_deliver_iff (r : Run) (d : Delivery) : Sound (deliver r d) ↔ CopiesAgree r d := by
  show (d.handle r.state).state.current = (if d.msg ∈ r.arrived then r.latest else d.msg.onoff) ↔ _
  rw [current_handle]
  by_cases hcopy : d.msg ∈ r.arrived
  · rw [if_pos hcopy]
    exact ⟨fun h _ => h, fun h => h hcopy⟩
  · rw [if_neg hcopy]
    exact iff_of_true rfl fun h => absurd h hcopy

/-- After every delivery the state is the value of the last new message, exactly when every copy
that arrives carries that value. -/
theorem sound_iff_copiesAgree (ds : List Delivery) :
    Always deliver Sound {} ds ↔ Along deliver CopiesAgree {} ds := by
  rw [always_iff_along_next, along_congr deliver sound_deliver_iff]
  exact and_iff_right rfl

/-- What the clients keep to: time goes on, each new message has a new `tid`, and what is sent again
is sent unchanged within six seconds. -/
structure Disciplined (ds : List Delivery) : Prop where
  times : ds.Pairwise fun d e => d.now ≤ e.now
  tids : ds.Pairwise fun d e =>
    d.msg.addr = e.msg.addr → (d.msg.tid = e.msg.tid ↔ d.msg = e.msg)
  copies : ds.Pairwise fun d e => d.msg = e.msg → e.now - d.now ≤ window

/-- One client sets the state on, then another sets it off, and a copy of the first message comes
late. -/
def lateCopy : List Delivery :=
  let on : Message := ⟨0x0001, 0, 7, 1, false, by decide⟩
  let off : Message := ⟨0x0002, 0, 9, 0, false, by decide⟩
  [{ msg := on, now := 1000 }, { msg := off, now := 2000 }, { msg := on, now := 3000 }]

theorem late_copy_changes_state : Disciplined lateCopy ∧ ¬ Always deliver Sound {} lateCopy := by
  refine ⟨⟨by decide, by decide, by decide⟩, fun h => ?_⟩
  have hlast : (1 : Byte) = 0 := Always.last deliver h
  exact absurd hlast (by decide)

end Badge
end GenericOnoff
end ZephyrSamples
