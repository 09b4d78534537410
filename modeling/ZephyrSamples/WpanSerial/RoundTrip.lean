import ZephyrSamples.WpanSerial.Framing

/-!
# Encoding and decoding

The receiver undoes `slip_buffer`: what it queues for the encodings of a list of byte strings are
the strings that are not empty.
-/

namespace ZephyrSamples
namespace WpanSerial

open Runs

/-- What `slip_buffer` writes before the `SLIP_END`. -/
def escape : List UInt8 → List UInt8
  | [] => []
  | byte :: buf =>
    (if byte = slipEnd then [slipEsc, slipEscEnd]
      else if byte = slipEsc then [slipEsc, slipEscEsc]
      else [byte]) ++ escape buf

theorem slipBuffer_eq (buf : List UInt8) : slipBuffer buf = escape buf ++ [slipEnd] := by
  induction buf with
  | nil => rfl
  | cons byte buf ih => rw [slipBuffer, escape, ih, List.append_assoc]

theorem slipEnd_notMem_escape (buf : List UInt8) : slipEnd ∉ escape buf := by
  induction buf with
  | nil => exact List.not_mem_nil
  | cons byte buf ih =>
    rw [escape, List.mem_append, not_or]
    refine ⟨?_, ih⟩
    split
    · decide
    · split
      · decide
      · intro h
        exact absurd (List.mem_singleton.mp h).symm ‹_›

theorem length_escape_le (buf : List UInt8) : (escape buf).length ≤ 2 * buf.length := by
  induction buf with
  | nil => exact Nat.le_refl 0
  | cons byte buf ih =>
    have hbyte : (if byte = slipEnd then [slipEsc, slipEscEnd]
        else if byte = slipEsc then [slipEsc, slipEscEsc] else [byte]).length ≤ 2 := by
      split
      · exact Nat.le_refl 2
      · split
        · exact Nat.le_refl 2
        · exact Nat.le_succ 1
    rw [escape, List.length_append, List.length_cons]
    omega

theorem unescape_escape (buf : List UInt8) : unescape (escape buf) = (buf, .whole) := by
  induction buf with
  | nil => rfl
  | cons byte buf ih =>
    by_cases hend : byte = slipEnd
    · subst hend
      show unescape (slipEsc :: slipEscEnd :: escape buf) = _
      rw [unescape_escEnd, ih]
    · by_cases hesc : byte = slipEsc
      · subst hesc
        show unescape (slipEsc :: slipEscEsc :: escape buf) = _
        rw [unescape_escEsc, ih]
      · have hescape : escape (byte :: buf) = byte :: escape buf := by
          rw [escape, if_neg hend, if_neg hesc]
          rfl
        rw [hescape, unescape_byte hesc, ih]

theorem receive_slipBuffer {capacity : Nat} {buf : List UInt8} (hfit : buf.length ≤ capacity)
    (queue : List Pkt) :
    run (Receiver.receive capacity) ⟨.ok, none, queue⟩ (allocating (slipBuffer buf)) =
      ⟨.ok, none, queue ++ [buf].filter (· ≠ [])⟩ := by
  have hheld : (buf.foldl (append capacity) none).getD [] = buf :=
    foldl_append_of_le (by simpa using hfit)
  have hpkt := ((held_none capacity).foldl buf).eq_of_getD hheld
  rw [slipBuffer_eq, receive_segment capacity none queue (slipEnd_notMem_escape buf),
    unescape_escape]
  dsimp only
  rw [hpkt]
  cases buf <;> rfl

theorem receive_slipBuffers {capacity : Nat} {strings : List (List UInt8)}
    (hfit : ∀ buf ∈ strings, buf.length ≤ capacity) (queue : List Pkt) :
    run (Receiver.receive capacity) ⟨.ok, none, queue⟩
        (allocating (strings.flatMap slipBuffer)) =
      ⟨.ok, none, queue ++ strings.filter (· ≠ [])⟩ := by
  induction strings generalizing queue with
  | nil => exact congrArg (Receiver.mk .ok none) (List.append_nil queue).symm
  | cons buf strings ih =>
    have hfirst := hfit buf List.mem_cons_self
    have hrest : ∀ buf ∈ strings, buf.length ≤ capacity :=
      fun buf h => hfit buf (List.mem_cons_of_mem _ h)
    rw [List.flatMap_cons, allocating, List.map_append, run_append]
    show run _ (run _ _ (allocating (slipBuffer buf))) (allocating (strings.flatMap slipBuffer)) = _
    rw [receive_slipBuffer hfirst, ih hrest, List.append_assoc, ← List.filter_append]
    rfl

/-- The encodings of strings that fit, however their bytes are spread over interrupts, queue the
strings that are not empty, and leave the receiver at the start of a segment.  An encoding takes
at most one byte and two for each byte of the string, and has its only `SLIP_END` at its end. -/
theorem slipBuffer_roundTrip {capacity : Nat} (strings : List (List UInt8))
    (hfit : ∀ buf ∈ strings, buf.length ≤ capacity) {irqs : List (List (Option (List Read)))}
    (hirqs : reads irqs = allocating (strings.flatMap slipBuffer)) (queue : List Pkt) :
    irqs.foldl (Receiver.interruptHandler capacity) ⟨.ok, none, queue⟩ =
        ⟨.ok, none, queue ++ strings.filter (· ≠ [])⟩ ∧
      ∀ buf, (slipBuffer buf).length ≤ 1 + 2 * buf.length ∧
        ∃ body, slipBuffer buf = body ++ [slipEnd] ∧ slipEnd ∉ body := by
  constructor
  · rw [foldl_interruptHandler, hirqs, receive_slipBuffers hfit]
  · intro buf
    constructor
    · have hlen := length_escape_le buf
      rw [slipBuffer_eq, List.length_append, List.length_singleton]
      omega
    · exact ⟨escape buf, slipBuffer_eq buf, slipEnd_notMem_escape buf⟩

/-- An empty string and one with both special bytes, read in three turns of two interrupts. -/
theorem slipBuffer_roundTrip_special :
    ([[some (allocating [0x41, slipEsc]), none], [some (allocating [slipEscEnd]),
        some (allocating [slipEnd, slipEnd, slipEsc, slipEscEsc, slipEnd])]].foldl
        (Receiver.interruptHandler 2) ⟨.ok, none, []⟩ =
      ⟨.ok, none, [[0x41, slipEnd], [], [slipEsc]].filter (· ≠ [])⟩) ∧
      ∀ buf, (slipBuffer buf).length ≤ 1 + 2 * buf.length ∧
        ∃ body, slipBuffer buf = body ++ [slipEnd] ∧ slipEnd ∉ body :=
  slipBuffer_roundTrip [[0x41, slipEnd], [], [slipEsc]] (by decide) (by decide) []

end WpanSerial
end ZephyrSamples
