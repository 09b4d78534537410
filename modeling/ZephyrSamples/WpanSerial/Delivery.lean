import ZephyrSamples.WpanSerial.Framing

/-!
# Which streams are delivered segment by segment

After a bad escape or an overflow the receiver keeps what it holds, and after an open escape it
skips the segment that follows.  `Leftover` is what it carries from one segment into the next, and
the file ends with the exact condition on a stream under which the packets delivered are those of
its segments all along.
-/

namespace ZephyrSamples
namespace WpanSerial

open Runs

/-- What is left of the segments before: the number of bytes held, and whether the next segment is
skipped. -/
structure Leftover where
  skip : Bool := false
  held : Nat := 0
  deriving DecidableEq

namespace Leftover

/-- What is left after another segment. -/
def advance (capacity : Nat) (l : Leftover) (seg : List UInt8) : Leftover :=
  if l.skip then { l with skip := false }
  else
    let (pkt, ending) := unescape seg
    let held := (l.held + pkt.length) % (capacity + 1)
    match ending with
    | .whole => {}
    | .badEscape => { held := held }
    | .openEscape => { skip := true, held := held }

/-- The segment is delivered as it should be: a skipped one stands for no packet, a whole one that
fits finds nothing held, and one that does not fit ends with an overflow. -/
def Clean (capacity : Nat) (l : Leftover) (seg : List UInt8) : Prop :=
  if l.skip then deliverable capacity seg = none
  else if (unescape seg).2 ≠ .whole then True
  else if (unescape seg).1.length ≤ capacity then l.held = 0
  else (l.held + (unescape seg).1.length) % (capacity + 1) = 0

instance (capacity : Nat) (l : Leftover) (seg : List UInt8) : Decidable (l.Clean capacity seg) :=
  inferInstanceAs (Decidable (ite _ (_ = _) (ite _ True (ite _ (_ = _) (_ = _)))))

end Leftover

/-- What a receiver carries into the next segment. -/
def Receiver.leftover (d : Receiver) : Leftover :=
  { skip := d.slipState = .garbage, held := (d.pktCurr.getD []).length }

/-- The states between two segments. -/
structure Receiver.Between (capacity : Nat) (d : Receiver) : Prop where
  slipState : d.slipState ≠ .esc
  held : Held capacity d.pktCurr

variable {capacity : Nat}

theorem deliverable_of_whole {seg : List UInt8} (h : (unescape seg).2 = .whole) :
    deliverable capacity seg =
      if (unescape seg).1 ≠ [] ∧ (unescape seg).1.length ≤ capacity then some (unescape seg).1
      else none := by
  unfold deliverable
  dsimp only
  rw [h]
  simp only [true_and]

theorem deliverable_of_not_whole {seg : List UInt8} (h : (unescape seg).2 ≠ .whole) :
    deliverable capacity seg = none :=
  if_neg fun hdeliver => h hdeliver.1

/-- A whole segment is delivered as itself exactly when it is clean. -/
theorem foldl_append_eq_deliverable_iff {pkt : Option Pkt} (hheld : Held capacity pkt)
    (bytes : Pkt) :
    bytes.foldl (append capacity) pkt =
        (if bytes ≠ [] ∧ bytes.length ≤ capacity then some bytes else none) ↔
      if bytes.length ≤ capacity then (pkt.getD []).length = 0
      else ((pkt.getD []).length + bytes.length) % (capacity + 1) = 0 := by
  have hlength := hheld.length_foldl bytes
  have hpkt := hheld.foldl bytes
  by_cases hfit : bytes.length ≤ capacity
  · rw [if_pos hfit]
    simp only [hfit, and_true]
    constructor
    · intro h
      -- the bytes held would be counted modulo the capacity and one
      have hsame : (if bytes ≠ [] then some bytes else none).getD [] = bytes := by
        cases bytes <;> rfl
      rw [h, hsame] at hlength
      have hle := hheld.2
      by_contra hne
      rcases Nat.lt_or_ge ((pkt.getD []).length + bytes.length) (capacity + 1) with hlt | hge
      · rw [Nat.mod_eq_of_lt hlt] at hlength
        omega
      · rw [Nat.mod_eq_sub_mod hge, Nat.mod_eq_of_lt (by omega)] at hlength
        omega
    · intro h
      have hbytes : (bytes.foldl (append capacity) pkt).getD [] = bytes := by
        rw [foldl_append_of_le (by omega), List.length_eq_zero_iff.mp h]
        rfl
      exact hpkt.eq_of_getD hbytes
  · rw [if_neg hfit, if_neg fun h => hfit h.2, ← hlength, List.length_eq_zero_iff]
    constructor
    · intro h
      rw [h]
      rfl
    · intro h
      exact hpkt.eq_of_getD h

/-- One segment: it is delivered as itself exactly when it is clean, and the receiver is again
between two segments, with what is left. -/
theorem receive_segment_iff {d : Receiver} (hd : d.Between capacity) {seg : List UInt8}
    (hseg : slipEnd ∉ seg) :
    let d' := run (Receiver.receive capacity) d (allocating (seg ++ [slipEnd]))
    (d'.rxQueue = d.rxQueue ++ (deliverable capacity seg).toList ↔
        d.leftover.Clean capacity seg) ∧
      d'.Between capacity ∧ d'.leftover = d.leftover.advance capacity seg := by
  obtain ⟨state, pkt, queue⟩ := d
  have hheld : Held capacity pkt := hd.held
  have hinj {a b : Option Pkt} : a.toList = b.toList ↔ a = b := by
    cases a <;> cases b <;> simp
  have hkeep : queue = queue ++ (deliverable capacity seg).toList ↔
      deliverable capacity seg = none := by
    rw [List.self_eq_append_right, Option.toList_eq_nil_iff]
  cases state with
  | esc => exact absurd rfl hd.slipState
  | garbage =>
    rw [receive_segment_of_garbage capacity pkt queue hseg]
    exact ⟨hkeep, ⟨nofun, hheld⟩, rfl⟩
  | ok =>
    rw [receive_segment capacity pkt queue hseg]
    have hskip : ¬(Receiver.mk .ok pkt queue).leftover.skip = true := nofun
    have hcount := hheld.length_foldl (unescape seg).1
    unfold Leftover.Clean Leftover.advance
    rw [if_neg hskip, if_neg hskip]
    dsimp only
    cases hending : (unescape seg).2 with
    | whole =>
      refine ⟨?_, ⟨nofun, held_none capacity⟩, rfl⟩
      rw [if_neg (not_not_intro rfl), deliverable_of_whole hending, List.append_cancel_left_eq]
      exact hinj.trans (foldl_append_eq_deliverable_iff hheld _)
    | badEscape | openEscape =>
      have hnone : deliverable capacity seg = none :=
        deliverable_of_not_whole (by rw [hending]; decide)
      refine ⟨?_, ⟨nofun, hheld.foldl _⟩, ?_⟩
      · rw [if_pos nofun]
        exact iff_of_true (hkeep.mpr hnone) trivial
      · exact congrArg (Leftover.mk _) hcount

/-! ## Whole streams -/

theorem packets_of_notMem {tail : List UInt8} (h : slipEnd ∉ tail) :
    packets capacity tail = [] := by
  rw [packets, segments_of_notMem h]
  rfl

theorem packets_append_cons {seg : List UInt8} (h : slipEnd ∉ seg) (rest : List UInt8) :
    packets capacity (seg ++ slipEnd :: rest) =
      (deliverable capacity seg).toList ++ packets capacity rest := by
  rw [packets, segments_append_cons h, List.filterMap_cons, packets]
  cases deliverable capacity seg <;> rfl

theorem rxQueue_of_notMem {d : Receiver} (hd : d.Between capacity) {tail : List UInt8}
    (h : slipEnd ∉ tail) :
    (run (Receiver.receive capacity) d (allocating tail)).rxQueue = d.rxQueue := by
  obtain ⟨state, pkt, queue⟩ := d
  cases state with
  | esc => exact absurd rfl hd.slipState
  | garbage => rw [receive_garbage capacity pkt queue h]
  | ok => rw [receive_unescape capacity pkt queue h]

/-- From a state between two segments, the packets queued are those of the segments all along if
and only if every segment is clean. -/
theorem rxQueue_iff {d : Receiver} (hd : d.Between capacity) (stream : List UInt8) :
    (∀ pre, pre <+: stream →
        (run (Receiver.receive capacity) d (allocating pre)).rxQueue =
          d.rxQueue ++ packets capacity pre) ↔
      Along (Leftover.advance capacity) (Leftover.Clean capacity) d.leftover
        (segments slipEnd stream) := by
  induction stream using segments_induction slipEnd generalizing d with
  | htail tail htail =>
    rw [segments_of_notMem htail]
    refine iff_of_true (fun pre hpre => ?_) trivial
    have hpre' : slipEnd ∉ pre := fun h => htail (hpre.subset h)
    rw [rxQueue_of_notMem hd hpre', packets_of_notMem hpre', List.append_nil]
  | hsegment seg rest hseg ih =>
    obtain ⟨hclean, hbetween, hleftover⟩ := receive_segment_iff hd hseg
    rw [segments_append_cons hseg]
    show _ ↔ Leftover.Clean capacity d.leftover seg ∧
      Along _ _ (Leftover.advance capacity d.leftover seg) (segments slipEnd rest)
    rw [← hclean, ← hleftover, ← ih hbetween]
    have hrun (pre : List UInt8) :
        run (Receiver.receive capacity) d (allocating (seg ++ slipEnd :: pre)) =
          run (Receiver.receive capacity)
            (run (Receiver.receive capacity) d (allocating (seg ++ [slipEnd])))
            (allocating pre) := by
      rw [← run_append, allocating, allocating, allocating, ← List.map_append, List.append_assoc]
      rfl
    constructor
    · intro h
      have hfirst := h (seg ++ [slipEnd]) (List.prefix_append_right_inj _ |>.mpr ⟨rest, rfl⟩)
      rw [packets_append_cons hseg, packets_of_notMem List.not_mem_nil, List.append_nil] at hfirst
      refine ⟨hfirst, fun pre hpre => ?_⟩
      have hlater := h (seg ++ slipEnd :: pre)
        ((List.prefix_append_right_inj _).mpr (List.cons_prefix_cons.mpr ⟨rfl, hpre⟩))
      rw [hrun, packets_append_cons hseg, ← List.append_assoc, ← hfirst] at hlater
      exact hlater
    · rintro ⟨hfirst, hlater⟩ pre hpre
      rcases prefix_segment_cases hpre with hin | ⟨pre', rfl, hpre'⟩
      · have hnot : slipEnd ∉ pre := fun h => hseg (hin.subset h)
        rw [rxQueue_of_notMem hd hnot, packets_of_notMem hnot, List.append_nil]
      · rw [hrun, hlater pre' hpre', packets_append_cons hseg, ← List.append_assoc, ← hfirst]

/-- However the bytes of the stream and of its prefixes are spread over interrupts, the packets
queued are those of the terminated segments. -/
def DeliversSegments (capacity : Nat) (stream : List UInt8) : Prop :=
  ∀ pre, pre <+: stream → ∀ irqs, reads irqs = allocating pre →
    (irqs.foldl (Receiver.interruptHandler capacity) {}).rxQueue = packets capacity pre

/-- A stream is delivered segment by segment if and only if each of its terminated segments is
clean after those before it. -/
theorem deliversSegments_iff (capacity : Nat) (stream : List UInt8) :
    DeliversSegments capacity stream ↔
      Along (Leftover.advance capacity) (Leftover.Clean capacity) {}
        (segments slipEnd stream) := by
  have hstart : Receiver.Between capacity {} := ⟨nofun, held_none capacity⟩
  rw [show ({} : Leftover) = Receiver.leftover {} from rfl, ← rxQueue_iff hstart]
  constructor
  · intro h pre hpre
    have hirq := h pre hpre [[some (allocating pre)]] (by simp [reads])
    rwa [foldl_interruptHandler, show reads [[some (allocating pre)]] = allocating pre by
      simp [reads]] at hirq
  · intro h pre hpre irqs hirqs
    rw [foldl_interruptHandler, hirqs]
    exact h pre hpre

/-- After a bad escape the bytes before it are delivered with those of the next segment. -/
theorem not_deliversSegments :
    ¬DeliversSegments 128 [0x41, slipEsc, 0x00, slipEnd, 0x42, slipEnd] := by
  intro h
  have hirq := h _ List.prefix_rfl
    [[some (allocating [0x41, slipEsc, 0x00, slipEnd, 0x42, slipEnd])]] rfl
  exact absurd hirq (by decide)

end WpanSerial
end ZephyrSamples
