import ZephyrSamples.Lib.Segments
import ZephyrSamples.WpanSerial.Slip

/-!
# What the receiver makes of a segment

`unescape` is the SLIP decoding of a segment, and `receive_segment` the lemma the theorems rest on:
fed with a segment and its `SLIP_END`, the receiver stores the decoded bytes one after the other,
and hands over what it holds when the segment is whole.
-/

namespace ZephyrSamples
namespace WpanSerial

open Runs

/-! ## SLIP decoding -/

/-- How a segment ends: with its last byte, at an escape of another byte, or within an escape. -/
inductive Ending where
  | whole
  | badEscape
  | openEscape
  deriving DecidableEq

/-- The decoded bytes of a segment, up to the first escape that is none. -/
def unescape : List UInt8 → Pkt × Ending
  | [] => ([], .whole)
  | c :: seg =>
    if c = slipEsc then
      match seg with
      | [] => ([], .openEscape)
      | e :: seg =>
        if e = slipEscEnd then (slipEnd :: (unescape seg).1, (unescape seg).2)
        else if e = slipEscEsc then (slipEsc :: (unescape seg).1, (unescape seg).2)
        else ([], .badEscape)
    else (c :: (unescape seg).1, (unescape seg).2)

theorem unescape_escEnd (seg : List UInt8) : unescape (slipEsc :: slipEscEnd :: seg) =
    (slipEnd :: (unescape seg).1, (unescape seg).2) := rfl

theorem unescape_escEsc (seg : List UInt8) : unescape (slipEsc :: slipEscEsc :: seg) =
    (slipEsc :: (unescape seg).1, (unescape seg).2) := rfl

theorem unescape_byte {c : UInt8} (hesc : c ≠ slipEsc) (seg : List UInt8) :
    unescape (c :: seg) = (c :: (unescape seg).1, (unescape seg).2) := by
  rw [unescape.eq_def]
  exact if_neg hesc

/-- The packet a segment stands for, if it is well formed, not empty and fits. -/
def deliverable (capacity : Nat) (seg : List UInt8) : Option Pkt :=
  let (pkt, ending) := unescape seg
  if ending = .whole ∧ pkt ≠ [] ∧ pkt.length ≤ capacity then some pkt else none

/-- The packets of a stream: those of its terminated segments, in order. -/
def packets (capacity : Nat) (stream : List UInt8) : List Pkt :=
  (segments slipEnd stream).filterMap (deliverable capacity)

/-! ## The packet under way -/

/-- The bytes read when every allocation succeeds. -/
def allocating (bytes : List UInt8) : List Read := bytes.map fun c => { byte := c }

/-- The packet under way after another byte: a byte that finds no room drops it. -/
def append (capacity : Nat) (pkt : Option Pkt) (c : UInt8) : Option Pkt :=
  if capacity - (pkt.getD []).length = 0 then none else some (pkt.getD [] ++ [c])

/-- A packet under way holds a byte and no more than its buffer has room for. -/
def Held (capacity : Nat) (pkt : Option Pkt) : Prop :=
  pkt ≠ some [] ∧ (pkt.getD []).length ≤ capacity

theorem held_none (capacity : Nat) : Held capacity none := ⟨nofun, Nat.zero_le _⟩

section

variable {capacity : Nat} {pkt : Option Pkt}

theorem Held.append (h : Held capacity pkt) (c : UInt8) :
    Held capacity (append capacity pkt c) := by
  unfold WpanSerial.append
  split
  · exact held_none capacity
  · refine ⟨fun heq => ?_, ?_⟩
    · exact List.append_ne_nil_of_right_ne_nil _ (List.cons_ne_nil _ _) (Option.some.inj heq)
    · have := h.2
      simp only [Option.getD_some, List.length_append, List.length_singleton]
      omega

theorem Held.foldl (h : Held capacity pkt) (bytes : List UInt8) :
    Held capacity (bytes.foldl (WpanSerial.append capacity) pkt) := by
  induction bytes generalizing pkt with
  | nil => exact h
  | cons c bytes ih => exact ih (h.append c)

theorem Held.eq_of_getD (h : Held capacity pkt) {bytes : Pkt} (hbytes : pkt.getD [] = bytes) :
    pkt = if bytes ≠ [] then some bytes else none := by
  subst hbytes
  cases pkt with
  | none => rfl
  | some pkt =>
    have hne : pkt ≠ [] := fun hnil => h.1 (congrArg some hnil)
    exact (if_pos hne).symm

/-- The bytes held are counted modulo the capacity and one: the byte too many empties the packet. -/
theorem Held.length_foldl (h : Held capacity pkt) (bytes : List UInt8) :
    ((bytes.foldl (WpanSerial.append capacity) pkt).getD []).length =
      ((pkt.getD []).length + bytes.length) % (capacity + 1) := by
  induction bytes generalizing pkt with
  | nil => exact (Nat.mod_eq_of_lt (Nat.lt_succ_of_le h.2)).symm
  | cons c bytes ih =>
    rw [List.foldl_cons, ih (h.append c), List.length_cons]
    have hroom := h.2
    unfold WpanSerial.append
    split
    case isTrue hfull =>
      have hlen : (pkt.getD []).length = capacity := by omega
      rw [hlen, show capacity + (bytes.length + 1) = bytes.length + (capacity + 1) by omega,
        Nat.add_mod_right]
      simp
    case isFalse =>
      simp only [Option.getD_some, List.length_append, List.length_singleton]
      congr 1
      omega

theorem foldl_append_of_le {bytes : List UInt8}
    (h : (pkt.getD []).length + bytes.length ≤ capacity) :
    (bytes.foldl (append capacity) pkt).getD [] = pkt.getD [] ++ bytes := by
  induction bytes generalizing pkt with
  | nil => exact (List.append_nil _).symm
  | cons c bytes ih =>
    rw [List.length_cons] at h
    have hroom : append capacity pkt c = some (pkt.getD [] ++ [c]) := if_neg (by omega)
    rw [List.foldl_cons, ih, hroom]
    · simp
    · rw [hroom, Option.getD_some, List.length_append, List.length_singleton]
      omega

end

/-! ## One segment -/

section

variable (capacity : Nat) (pkt : Option Pkt) (queue : List Pkt)

theorem addByte_eq (state : SlipState) (c : UInt8) :
    (⟨state, pkt, queue⟩ : Receiver).addByte capacity true c =
      ⟨state, append capacity pkt c, queue⟩ := by
  have hroom (held : Pkt) :
      (if capacity - held.length = 0 then (⟨state, none, queue⟩ : Receiver)
        else ⟨state, some (held ++ [c]), queue⟩) =
      ⟨state, if capacity - held.length = 0 then none else some (held ++ [c]), queue⟩ := by
    split <;> rfl
  cases pkt with
  | none => exact hroom []
  | some held => exact hroom held

theorem receive_byte {c : UInt8} (hesc : c ≠ slipEsc) (hend : c ≠ slipEnd) :
    Receiver.receive capacity ⟨.ok, pkt, queue⟩ { byte := c } =
      ⟨.ok, append capacity pkt c, queue⟩ := by
  unfold Receiver.receive Receiver.slipProcessByte
  dsimp only
  rw [if_neg hesc, if_neg hend]
  exact addByte_eq capacity pkt queue .ok c

theorem receive_escEnd :
    Receiver.receive capacity ⟨.esc, pkt, queue⟩ { byte := slipEscEnd } =
      ⟨.ok, append capacity pkt slipEnd, queue⟩ :=
  addByte_eq capacity pkt queue .ok slipEnd

theorem receive_escEsc :
    Receiver.receive capacity ⟨.esc, pkt, queue⟩ { byte := slipEscEsc } =
      ⟨.ok, append capacity pkt slipEsc, queue⟩ :=
  addByte_eq capacity pkt queue .ok slipEsc

theorem receive_badEscape {c : UInt8} (hend : c ≠ slipEscEnd) (hesc : c ≠ slipEscEsc) :
    Receiver.receive capacity ⟨.esc, pkt, queue⟩ { byte := c } = ⟨.garbage, pkt, queue⟩ := by
  unfold Receiver.receive Receiver.slipProcessByte
  dsimp only
  rw [if_neg hend, if_neg hesc]

/-- Garbage is skipped up to the next `SLIP_END`. -/
theorem receive_garbage {seg : List UInt8} (hseg : slipEnd ∉ seg) :
    run (Receiver.receive capacity) ⟨.garbage, pkt, queue⟩ (allocating seg) =
      ⟨.garbage, pkt, queue⟩ := by
  induction seg with
  | nil => rfl
  | cons c seg ih =>
    have hc : c ≠ slipEnd := fun h => hseg (h ▸ List.mem_cons_self)
    have hskip : Receiver.receive capacity ⟨.garbage, pkt, queue⟩ { byte := c } =
        ⟨.garbage, pkt, queue⟩ := by
      unfold Receiver.receive Receiver.slipProcessByte
      dsimp only
      rw [if_neg hc]
    show run _ (Receiver.receive capacity ⟨.garbage, pkt, queue⟩ { byte := c }) _ = _
    rw [hskip]
    exact ih fun h => hseg (List.mem_cons_of_mem c h)

/-- The state a segment leaves the receiver in, before its `SLIP_END`. -/
def Ending.state : Ending → SlipState
  | .whole => .ok
  | .badEscape => .garbage
  | .openEscape => .esc

theorem receive_unescape {seg : List UInt8} (hseg : slipEnd ∉ seg) :
    run (Receiver.receive capacity) ⟨.ok, pkt, queue⟩ (allocating seg) =
      ⟨(unescape seg).2.state, (unescape seg).1.foldl (append capacity) pkt, queue⟩ := by
  fun_induction unescape seg generalizing pkt with
  | case1 => rfl
  | case2 => rfl
  | case3 seg ih =>
    show run _ (Receiver.receive capacity ⟨.esc, pkt, queue⟩ { byte := slipEscEnd }) _ = _
    rw [receive_escEnd]
    exact ih _ fun h => hseg (List.mem_cons_of_mem _ (List.mem_cons_of_mem _ h))
  | case4 seg _ ih =>
    show run _ (Receiver.receive capacity ⟨.esc, pkt, queue⟩ { byte := slipEscEsc }) _ = _
    rw [receive_escEsc]
    exact ih _ fun h => hseg (List.mem_cons_of_mem _ (List.mem_cons_of_mem _ h))
  | case5 c seg hend hesc =>
    show run _ (Receiver.receive capacity ⟨.esc, pkt, queue⟩ { byte := c }) _ = _
    rw [receive_badEscape capacity pkt queue hend hesc]
    exact receive_garbage capacity pkt queue fun h =>
      hseg (List.mem_cons_of_mem _ (List.mem_cons_of_mem _ h))
  | case6 c seg hesc ih =>
    have hend : c ≠ slipEnd := fun h => hseg (h ▸ List.mem_cons_self)
    show run _ (Receiver.receive capacity ⟨.ok, pkt, queue⟩ { byte := c }) _ = _
    rw [receive_byte capacity pkt queue hesc hend]
    exact ih _ fun h => hseg (List.mem_cons_of_mem _ h)

/-- A `SLIP_END` hands over the packet held, if the segment before it was whole. -/
theorem receive_slipEnd (ending : Ending) :
    Receiver.receive capacity ⟨ending.state, pkt, queue⟩ { byte := slipEnd } =
      match ending with
      | .whole => ⟨.ok, none, queue ++ pkt.toList⟩
      | .badEscape => ⟨.ok, pkt, queue⟩
      | .openEscape => ⟨.garbage, pkt, queue⟩ := by
  cases ending with
  | whole =>
    cases pkt with
    | none => exact congrArg (Receiver.mk .ok none) (List.append_nil queue).symm
    | some pkt => rfl
  | badEscape => rfl
  | openEscape => rfl

/-- A segment with its `SLIP_END`, from the start of a segment. -/
theorem receive_segment {seg : List UInt8} (hseg : slipEnd ∉ seg) :
    run (Receiver.receive capacity) ⟨.ok, pkt, queue⟩ (allocating (seg ++ [slipEnd])) =
      match (unescape seg).2 with
      | .whole => ⟨.ok, none, queue ++ ((unescape seg).1.foldl (append capacity) pkt).toList⟩
      | .badEscape => ⟨.ok, (unescape seg).1.foldl (append capacity) pkt, queue⟩
      | .openEscape => ⟨.garbage, (unescape seg).1.foldl (append capacity) pkt, queue⟩ := by
  rw [allocating, List.map_append, run_append]
  show Receiver.receive capacity (run _ _ (allocating seg)) { byte := slipEnd } = _
  rw [receive_unescape capacity pkt queue hseg, receive_slipEnd]

theorem receive_segment_of_garbage {seg : List UInt8} (hseg : slipEnd ∉ seg) :
    run (Receiver.receive capacity) ⟨.garbage, pkt, queue⟩ (allocating (seg ++ [slipEnd])) =
      ⟨.ok, pkt, queue⟩ := by
  rw [allocating, List.map_append, run_append]
  show Receiver.receive capacity (run _ _ (allocating seg)) { byte := slipEnd } = _
  rw [receive_garbage capacity pkt queue hseg]
  rfl

end

end WpanSerial
end ZephyrSamples
