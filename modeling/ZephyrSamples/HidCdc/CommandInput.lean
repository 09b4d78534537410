import Mathlib.Data.List.TakeWhile
import ZephyrSamples.Lib.LineReader

/-!
# Command input over the two serial ports

`cdc_mouse_int_handler` and `cdc_kbd_int_handler` collect what `uart_fifo_read` gives them and look
for a carriage return at the end of each chunk.  Which streams they turn into one event per line,
however the chunks fall, is read off the lines: hardly any with more than one line.
-/

namespace ZephyrSamples
namespace HidCdc

open LineReader

abbrev Byte := UInt8

/-- `enum evt_t` -/
inductive EvtT where
  | gpioButton0
  | gpioButton1
  | gpioButton2
  | gpioButton3
  | cdcUp
  | cdcDown
  | cdcLeft
  | cdcRight
  | cdcUnknown
  | cdcString
  | hidMouseClear
  | hidKbdClear
  | hidKbdString
  deriving DecidableEq, Repr

/-- `'\r'` -/
def cr : Byte := 0x0d

/-- `sizeof(data_buf_mouse)`, `sizeof(data_buf_kbd)` -/
def bufSize : Nat := 64

/-- What the C string functions read of a buffer. -/
def cString (buf : List Byte) : List Byte := buf.takeWhile (· ≠ 0)

/-- `"up"` -/
def up : List Byte := [0x75, 0x70]

/-- `"down"` -/
def down : List Byte := [0x64, 0x6f, 0x77, 0x6e]

/-- `"right"` -/
def right : List Byte := [0x72, 0x69, 0x67, 0x68, 0x74]

/-- `"left"` -/
def left : List Byte := [0x6c, 0x65, 0x66, 0x74]

/-- The event for a line, chosen by `strcmp`. -/
def mouseEvent (dataBuf : List Byte) : EvtT :=
  if cString dataBuf = up then .cdcUp
  else if cString dataBuf = down then .cdcDown
  else if cString dataBuf = right then .cdcRight
  else if cString dataBuf = left then .cdcLeft
  else .cdcUnknown

/-- The body of the loop in `cdc_mouse_int_handler`, on the bytes below `chr_ptr_mouse` and those
that were read: what stays in the buffer, and the event put. -/
def cdcMouseRead (dataBuf chunk : List Byte) : List Byte × Option EvtT :=
  let dataBuf := dataBuf ++ chunk
  if dataBuf.getLast? = some cr then ([], some (mouseEvent dataBuf.dropLast))
  -- Buffer overflow
  else if bufSize ≤ dataBuf.length then ([], none)
  else (dataBuf, none)

/-- The body of the loop in `cdc_kbd_int_handler`: the event comes with `string` as it is set. -/
def cdcKbdRead (dataBuf chunk : List Byte) : List Byte × Option (EvtT × List Byte) :=
  let dataBuf := dataBuf ++ chunk
  if dataBuf.getLast? = some cr then ([], some (.cdcString, cString dataBuf.dropLast))
  else (dataBuf, none)

/-- `sizeof(data_buf) - chr_ptr`: what `uart_fifo_read` is asked for. -/
def space (dataBuf : List Byte) : Nat := bufSize - dataBuf.length

/-- The events the mouse handler puts for some way of cutting the stream into chunks. -/
abbrev MouseReads (stream : List Byte) (events : List EvtT) : Prop :=
  Reads space cdcMouseRead [] stream events

abbrev KbdReads (stream : List Byte) (events : List (EvtT × List Byte)) : Prop :=
  Reads space cdcKbdRead [] stream events

/-! ## One event per line -/

/-- What the banner says of a line. -/
def mouseCommand (line : List Byte) : EvtT :=
  if line = up then .cdcUp
  else if line = down then .cdcDown
  else if line = right then .cdcRight
  else if line = left then .cdcLeft
  else .cdcUnknown

/-- However the stream is cut, each line of at most 63 characters gives its event. -/
def MouseRecognises (stream : List Byte) : Prop :=
  ∀ events, MouseReads stream events → events = (fitting cr bufSize stream).map mouseCommand

def KbdRecognises (stream : List Byte) : Prop :=
  ∀ events, KbdReads stream events →
    events = (fitting cr bufSize stream).map fun line => (EvtT.cdcString, line)

/-- A line with bytes behind its carriage return has exactly 63 characters, no line has more, and
none is a command word up to a NUL. -/
structure MouseSafe (stream : List Byte) : Prop where
  alone : ∀ line ∈ segments cr stream.dropLast, line.length = 63
  fits : ∀ line ∈ segments cr stream, line.length ≤ 63
  noNul : ∀ line ∈ segments cr stream, cString line ∈ [up, down, right, left] → 0 ∉ line

/-- A line with bytes behind its carriage return has at least 63 characters, one of at most 63 has
no NUL, and none of these comes after a longer one. -/
structure KbdSafe (stream : List Byte) : Prop where
  alone : ∀ line ∈ segments cr stream.dropLast, 63 ≤ line.length
  noNul : ∀ line ∈ segments cr stream, line.length ≤ 63 → 0 ∉ line
  order : (segments cr stream).Pairwise fun a b => 63 < a.length → 63 < b.length

/-! ## The handlers as line readers -/

theorem cdcMouseRead_eq (dataBuf chunk : List Byte) :
    cdcMouseRead dataBuf chunk =
      ((feedLine cr bufSize true dataBuf chunk).1,
        (feedLine cr bufSize true dataBuf chunk).2.map mouseEvent) := by
  simp only [cdcMouseRead, feedLine, true_and]
  split
  · rfl
  · split
    · rfl
    · rfl

theorem cdcKbdRead_eq (dataBuf chunk : List Byte) :
    cdcKbdRead dataBuf chunk =
      ((feedLine cr bufSize false dataBuf chunk).1,
        (feedLine cr bufSize false dataBuf chunk).2.map
          fun line => (.cdcString, cString line)) := by
  simp only [cdcKbdRead, feedLine, Bool.false_eq_true, false_and, if_false]
  split
  · rfl
  · rfl

theorem mouseReads_iff {stream : List Byte} {events : List EvtT} :
    MouseReads stream events ↔
      ∃ out, ReadsLines cr bufSize true [] stream out ∧ events = out.map mouseEvent := by
  have hread : cdcMouseRead = fun b c => ((feedLine cr bufSize true b c).1,
      (feedLine cr bufSize true b c).2.map mouseEvent) := by
    funext b c
    exact cdcMouseRead_eq b c
  unfold MouseReads
  rw [hread]
  constructor
  · exact Reads.exists_of_map
  · rintro ⟨out, hout, rfl⟩
    exact hout.map

theorem kbdReads_iff {stream : List Byte} {events : List (EvtT × List Byte)} :
    KbdReads stream events ↔ ∃ out, ReadsLines cr bufSize false [] stream out ∧
      events = out.map fun line => (.cdcString, cString line) := by
  have hread : cdcKbdRead = fun b c => ((feedLine cr bufSize false b c).1,
      (feedLine cr bufSize false b c).2.map fun line => (.cdcString, cString line)) := by
    funext b c
    exact cdcKbdRead_eq b c
  unfold KbdReads
  rw [hread]
  constructor
  · exact Reads.exists_of_map
  · rintro ⟨out, hout, rfl⟩
    exact hout.map

/-! ## NUL bytes -/

theorem cString_of_noNul {line : List Byte} (h : 0 ∉ line) : cString line = line := by
  rw [cString, List.takeWhile_eq_self_iff]
  intro b hb
  exact decide_eq_true fun hzero => h (hzero ▸ hb)

theorem noNul_cString (line : List Byte) : 0 ∉ cString line := by
  intro hmem
  have := List.mem_takeWhile_imp hmem
  simp at this

theorem cString_eq_self_iff {line : List Byte} : cString line = line ↔ 0 ∉ line := by
  constructor
  · intro h
    rw [← h]
    exact noNul_cString line
  · exact cString_of_noNul

theorem mouseEvent_eq (line : List Byte) : mouseEvent line = mouseCommand (cString line) := rfl

theorem mouseCommand_of_notMem {line : List Byte} (h : line ∉ [up, down, right, left]) :
    mouseCommand line = .cdcUnknown := by
  simp only [List.mem_cons, List.not_mem_nil, or_false, not_or] at h
  rw [mouseCommand, if_neg h.1, if_neg h.2.1, if_neg h.2.2.1, if_neg h.2.2.2]

theorem mouseCommand_of_mem {line : List Byte} (h : line ∈ [up, down, right, left]) :
    mouseCommand line ≠ .cdcUnknown := by
  simp only [List.mem_cons, List.not_mem_nil, or_false] at h
  rcases h with rfl | rfl | rfl | rfl <;> decide

theorem noNul_words : ∀ line ∈ [up, down, right, left], (0 : Byte) ∉ line := by
  decide

/-- `strcmp` finds the right command unless a word is followed by a NUL. -/
theorem mouseEvent_eq_iff (line : List Byte) :
    mouseEvent line = mouseCommand line ↔ (cString line ∈ [up, down, right, left] → 0 ∉ line) := by
  rw [mouseEvent_eq]
  constructor
  · intro h hword hnul
    have hline : line ∉ [up, down, right, left] := fun hmem => noNul_words line hmem hnul
    rw [mouseCommand_of_notMem hline] at h
    exact mouseCommand_of_mem hword h
  · intro h
    by_cases hword : cString line ∈ [up, down, right, left]
    · rw [cString_of_noNul (h hword)]
    · have hline : line ∉ [up, down, right, left] := by
        intro hmem
        rw [cString_of_noNul (noNul_words line hmem)] at hword
        exact hword hmem
      rw [mouseCommand_of_notMem hword, mouseCommand_of_notMem hline]

theorem cString_past_ne {line : List Byte} (more : List Byte) :
    cString (line ++ cr :: more) ≠ line := by
  intro h
  have hnul : 0 ∉ line := by
    rw [← h]
    exact noNul_cString _
  have hpast : cString (line ++ cr :: more) = line ++ cString (cr :: more) :=
    List.takeWhile_append_of_pos fun b hb => decide_eq_true fun hzero => hnul (hzero ▸ hb)
  have hcr : cString (cr :: more) = cr :: cString more := rfl
  have hlen := congrArg List.length (hpast.symm.trans h)
  rw [hcr, List.length_append, List.length_cons] at hlen
  omega

/-! ## The streams that are recognised -/

theorem mouseRecognises_iff (stream : List Byte) : MouseRecognises stream ↔ MouseSafe stream := by
  have hlines := flush_iff cr (show 0 < bufSize by decide) mouseEvent mouseCommand stream
  have hreads : MouseRecognises stream ↔ ∀ out, ReadsLines cr bufSize true [] stream out →
      out.map mouseEvent = (fitting cr bufSize stream).map mouseCommand := by
    constructor
    · exact fun h out hout => h _ (mouseReads_iff.mpr ⟨out, hout, rfl⟩)
    · intro h events hevents
      obtain ⟨out, hout, rfl⟩ := mouseReads_iff.mp hevents
      exact h out hout
  rw [hreads, hlines]
  unfold bufSize
  constructor
  · rintro ⟨halone, hline⟩
    refine ⟨fun line hmem => ?_, fun line hmem => ?_, fun line hmem => ?_⟩
    · have hle := halone line hmem
      have hlt := (hline line (mem_segments_of_dropLast hmem)).1
      omega
    · exact Nat.le_of_lt_succ (hline line hmem).1
    · exact (mouseEvent_eq_iff line).mp (hline line hmem).2
  · rintro ⟨halone, hfits, hnul⟩
    refine ⟨fun line hmem => ?_, fun line hmem => ⟨?_, ?_⟩⟩
    · rw [halone line hmem]
    · exact Nat.lt_succ_of_le (hfits line hmem)
    · exact (mouseEvent_eq_iff line).mpr (hnul line hmem)

theorem kbdRecognises_iff (stream : List Byte) : KbdRecognises stream ↔ KbdSafe stream := by
  have hlines := keep_iff cr bufSize
    (fun line => (EvtT.cdcString, cString line)) (fun line => (EvtT.cdcString, line))
    (fun line more _ h => cString_past_ne more (Prod.mk.inj h).2) stream
  have hreads : KbdRecognises stream ↔ ∀ out, ReadsLines cr bufSize false [] stream out →
      out.map (fun line => (EvtT.cdcString, cString line)) =
        (fitting cr bufSize stream).map fun line => (EvtT.cdcString, line) := by
    constructor
    · exact fun h out hout => h _ (kbdReads_iff.mpr ⟨out, hout, rfl⟩)
    · intro h events hevents
      obtain ⟨out, hout, rfl⟩ := kbdReads_iff.mp hevents
      exact h out hout
  have hname : ∀ line : List Byte,
      ((EvtT.cdcString, cString line) = (EvtT.cdcString, line)) ↔ 0 ∉ line := by
    intro line
    rw [Prod.mk.injEq, cString_eq_self_iff]
    exact and_iff_right rfl
  rw [hreads, hlines]
  constructor
  · rintro ⟨halone, hline, horder⟩
    refine ⟨fun line hmem => ?_, fun line hmem hle => ?_, horder⟩
    · exact Nat.le_of_succ_le_succ (halone line hmem)
    · have hfit : line ∈ fitting cr bufSize stream :=
        List.mem_filter.mpr ⟨hmem, decide_eq_true (Nat.lt_succ_of_le hle)⟩
      exact (hname line).mp (hline line hfit)
  · rintro ⟨halone, hnul, horder⟩
    refine ⟨fun line hmem => ?_, fun line hmem => ?_, horder⟩
    · exact Nat.succ_le_succ (halone line hmem)
    · obtain ⟨hseg, hlt⟩ := List.mem_filter.mp hmem
      exact (hname line).mpr (hnul line hseg (Nat.le_of_lt_succ (of_decide_eq_true hlt)))

/-- Both ports, for every stream and every way of cutting it. -/
theorem recognises_iff_safe (stream : List Byte) :
    (MouseRecognises stream ↔ MouseSafe stream) ∧ (KbdRecognises stream ↔ KbdSafe stream) :=
  ⟨mouseRecognises_iff stream, kbdRecognises_iff stream⟩

/-- `"up\rdown\r"` in one chunk is one unknown command. -/
theorem two_commands_in_one_chunk :
    ¬ ∀ stream, MouseRecognises stream ∧ KbdRecognises stream := by
  intro h
  let chunk := up ++ cr :: down ++ [cr]
  have hchunk : MouseReads (chunk ++ []) [.cdcUnknown] := .read (by decide) (by decide) (.done _)
  have hone := (h _).1 _ hchunk
  revert hone
  decide

end HidCdc
end ZephyrSamples
