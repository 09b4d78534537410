import ZephyrSamples.Lib.Runs

/-!
# SLIP on the serial line

The receiver and the encoder of the `wpan_serial` sample: `slip_process_byte`, `interrupt_handler`
and `slip_buffer` of `main.c`.
-/

namespace ZephyrSamples
namespace WpanSerial

def slipEnd : UInt8 := 0o300
def slipEsc : UInt8 := 0o333
def slipEscEnd : UInt8 := 0o334
def slipEscEsc : UInt8 := 0o335

/-- `enum slip_state`. -/
inductive SlipState where
  | garbage
  | ok
  | esc
  deriving DecidableEq

/-- A packet, by the bytes in the last fragment of its buffer. -/
abbrev Pkt := List UInt8

/-- `slip_state`, `pkt_curr` and what was put on `rx_queue`, oldest first. -/
structure Receiver where
  slipState : SlipState := .ok
  pktCurr : Option Pkt := none
  rxQueue : List Pkt := []
  deriving DecidableEq

namespace Receiver

/-- The part of `slip_process_byte` after its `switch`.  `alloc` tells whether
`net_pkt_rx_alloc_with_buffer` finds a packet, and `capacity` is the size of its buffer. -/
def addByte (capacity : Nat) (alloc : Bool) (c : UInt8) (d : Receiver) : Receiver :=
  match d.pktCurr.or (if alloc then some [] else none) with
  | none => d
  | some pkt =>
    if capacity - pkt.length = 0 then { d with pktCurr := none }
    else { d with pktCurr := some (pkt ++ [c]) }

/-- The result is true where the C function returns 1. -/
def slipProcessByte (capacity : Nat) (alloc : Bool) (c : UInt8) (d : Receiver) :
    Bool × Receiver :=
  match d.slipState with
  | .garbage => (false, if c = slipEnd then { d with slipState := .ok } else d)
  | .esc =>
    if c = slipEscEnd then (false, { d with slipState := .ok }.addByte capacity alloc slipEnd)
    else if c = slipEscEsc then
      (false, { d with slipState := .ok }.addByte capacity alloc slipEsc)
    else (false, { d with slipState := .garbage })
  | .ok =>
    if c = slipEsc then (false, { d with slipState := .esc })
    else if c = slipEnd then (true, d)
    else (false, d.addByte capacity alloc c)

end Receiver

/-- A byte `uart_fifo_read` returns, and what an allocation made for it would come to. -/
structure Read where
  byte : UInt8
  alloc : Bool := true
  deriving DecidableEq

namespace Receiver

/-- The body of the inner loop of `interrupt_handler`. -/
def receive (capacity : Nat) (d : Receiver) (r : Read) : Receiver :=
  match d.slipProcessByte capacity r.alloc r.byte with
  | (false, d) => d
  | (true, d) =>
    match d.pktCurr with
    | none => d
    | some pkt => { d with pktCurr := none, rxQueue := d.rxQueue ++ [pkt] }

/-- `interrupt_handler`.  A turn of its outer loop finds nothing to read (`none`), or reads bytes
until `uart_fifo_read` returns 0. -/
def interruptHandler (capacity : Nat) (d : Receiver) (turns : List (Option (List Read))) :
    Receiver :=
  turns.foldl (fun d turn =>
    match turn with
    | none => d
    | some reads => reads.foldl (receive capacity) d) d

end Receiver

/-- The loop of `slip_buffer`: what it writes to `sbuf` for the bytes left in `buf`, the final
`SLIP_END` included. -/
def slipBuffer : List UInt8 → List UInt8
  | [] => [slipEnd]
  | byte :: buf =>
    (if byte = slipEnd then [slipEsc, slipEscEnd]
      else if byte = slipEsc then [slipEsc, slipEscEsc]
      else [byte]) ++ slipBuffer buf

/-! ## Interrupts -/

/-- The bytes read in a number of interrupts. -/
def reads (irqs : List (List (Option (List Read)))) : List Read :=
  irqs.flatMap fun turns => turns.flatMap fun turn => turn.getD []

/-- Where one interrupt ends and the next begins makes no difference. -/
theorem foldl_interruptHandler (capacity : Nat) (d : Receiver)
    (irqs : List (List (Option (List Read)))) :
    irqs.foldl (Receiver.interruptHandler capacity) d =
      Runs.run (Receiver.receive capacity) d (reads irqs) := by
  have hturns (turns : List (Option (List Read))) (d : Receiver) :
      d.interruptHandler capacity turns =
        Runs.run (Receiver.receive capacity) d (turns.flatMap fun turn => turn.getD []) := by
    induction turns generalizing d with
    | nil => rfl
    | cons turn turns ih =>
      rw [List.flatMap_cons, Runs.run_append, ← ih]
      cases turn <;> rfl
  induction irqs generalizing d with
  | nil => rfl
  | cons turns irqs ih =>
    show irqs.foldl (Receiver.interruptHandler capacity) (d.interruptHandler capacity turns) =
      Runs.run (Receiver.receive capacity) d
        ((turns.flatMap fun turn => turn.getD []) ++ reads irqs)
    rw [ih, hturns, Runs.run_append]

end WpanSerial
end ZephyrSamples
