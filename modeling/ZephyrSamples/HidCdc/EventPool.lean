import ZephyrSamples.Lib.Runs
import ZephyrSamples.HidCdc.CommandInput

/-!
# The event pool

The producers of events, interrupted anywhere between filling an event in and putting it, and the
loop of `main`, one statement that touches the pool at a time.  A block is held by whoever is
between `app_evt_alloc` and `app_evt_put`, or between `app_evt_get` and `app_evt_free`.  The books
balance exactly until an allocation finds the pool exhausted. -/

namespace ZephyrSamples
namespace HidCdc

open Runs

/-- `FIFO_ELEM_COUNT` -/
def fifoElemCount : Nat := 255

/-- Where `main` is, with the event it holds and the one it has allocated. -/
inductive MainPc where
  | waiting
  | getting
  | handling (ev : EvtT)
  | putting (ev new : EvtT)
  | freeing (ev : EvtT)
  deriving DecidableEq, Repr

/-- The blocks of `event_elem_pool` handed out, `evt_fifo`, the events producers have filled in and
not yet put, and the statics.  `nullWritten` says that `ev->event_type` was written
with `ev` null. -/
structure Demo where
  allocated : Nat
  evtFifo : List EvtT
  produced : List EvtT
  main : MainPc
  evtSem : Bool
  nullWritten : Bool
  dataBufMouse : List Byte
  dataBufKbd : List Byte
  string : List Byte
  strPointer : Nat
  deriving DecidableEq, Repr

/-- `main` before its loop. -/
def boot : Demo where
  allocated := 0
  evtFifo := []
  produced := []
  main := .waiting
  evtSem := false
  nullWritten := false
  dataBufMouse := []
  dataBufKbd := []
  string := List.replicate bufSize 0
  strPointer := 0

/-- What the hardware and the scheduler can do next: a button, a chunk on one of the serial ports, a
producer that goes on to put its event, or a statement of `main`. -/
inductive Event where
  | btn0
  | btn1
  | btn2
  | btn3
  | cdcMouse (chunk : List Byte)
  | cdcKbd (chunk : List Byte)
  | put (i : Nat)
  | main
  deriving DecidableEq, Repr

def appEvtFree (s : Demo) : Demo := { s with allocated := s.allocated - 1 }

/-- `app_evt_flush`: every event in the FIFO is got and freed. -/
def appEvtFlush (s : Demo) : Demo :=
  s.evtFifo.foldl (fun s _ => appEvtFree { s with evtFifo := s.evtFifo.tail }) s

/-- `app_evt_alloc`, and whether it returns an event. -/
def appEvtAlloc (s : Demo) : Bool × Demo :=
  if s.allocated < fifoElemCount then (true, { s with allocated := s.allocated + 1 })
  else
    let s := appEvtFlush s
    -- The block of the second attempt is not returned.
    if s.allocated < fifoElemCount then (false, { s with allocated := s.allocated + 1 })
    else (false, s)

/-- `app_evt_alloc` and the write of `event_type`; `k` is what follows. -/
def allocThen (s : Demo) (k : Demo → Demo) : Demo :=
  let (ok, s) := appEvtAlloc s
  if ok then k s else { s with nullWritten := true }

/-- A producer up to its `app_evt_put`. -/
def produce (s : Demo) (type : EvtT) : Demo :=
  allocThen s fun s => { s with produced := s.produced ++ [type] }

def btn0 (s : Demo) : Demo := produce s .gpioButton0

def btn1 (s : Demo) : Demo := produce s .gpioButton1

def btn2 (s : Demo) : Demo := produce s .gpioButton2

def btn3 (s : Demo) : Demo := produce s .gpioButton3

/-- A round of the loop in `cdc_mouse_int_handler`. -/
def cdcMouse (s : Demo) (chunk : List Byte) : Demo :=
  match cdcMouseRead s.dataBufMouse chunk with
  | (dataBuf, none) => { s with dataBufMouse := dataBuf }
  | (dataBuf, some type) => produce { s with dataBufMouse := dataBuf } type

def strcpy (dest src : List Byte) : List Byte := src ++ 0 :: dest.drop (src.length + 1)

/-- A round of the loop in `cdc_kbd_int_handler`. -/
def cdcKbd (s : Demo) (chunk : List Byte) : Demo :=
  match cdcKbdRead s.dataBufKbd chunk with
  | (dataBuf, none) => { s with dataBufKbd := dataBuf }
  | (dataBuf, some (type, line)) =>
    produce { s with dataBufKbd := dataBuf, string := strcpy s.string line } type

/-- A producer's `app_evt_put` and `k_sem_give`. -/
def put (s : Demo) (i : Nat) : Demo :=
  match s.produced[i]? with
  | some type => { s with produced := s.produced.eraseIdx i, evtFifo := s.evtFifo ++ [type],
                          evtSem := true }
  | none => s

/-- `main` allocates another event while it holds `ev`. -/
def mainAlloc (s : Demo) (ev new : EvtT) : Demo :=
  allocThen s fun s => { s with main := .putting ev new }

def clearMouseReport (s : Demo) (ev : EvtT) : Demo := mainAlloc s ev .hidMouseClear

def clearKbdReport (s : Demo) (ev : EvtT) : Demo := mainAlloc s ev .hidKbdClear

/-- The switch of `main`, without the reports and texts it sends. -/
def handle (s : Demo) (ev : EvtT) : Demo :=
  match ev with
  | .gpioButton0 => clearMouseReport s ev
  | .gpioButton1 => clearMouseReport s ev
  | .gpioButton2 =>
    if 0 < (cString s.string).length then mainAlloc s ev .hidKbdString
    else { s with main := .freeing ev }
  | .gpioButton3 => clearKbdReport s ev
  | .cdcUp => clearMouseReport s ev
  | .cdcDown => clearMouseReport s ev
  | .cdcRight => clearMouseReport s ev
  | .cdcLeft => clearMouseReport s ev
  | .cdcUnknown => { s with main := .freeing ev }
  | .cdcString => { s with main := .freeing ev }
  | .hidMouseClear => { s with main := .freeing ev }
  | .hidKbdClear => { s with main := .freeing ev }
  | .hidKbdString =>
    let s := { s with strPointer := (s.strPointer + 1) % 256 }
    if s.strPointer < (cString s.string).length then mainAlloc s ev .hidKbdString
    else if (cString s.string).length = s.strPointer then clearKbdReport s ev
    else { s with main := .freeing ev }

/-- The next statement of `main` that touches the FIFO or the pool. -/
def mainStep (s : Demo) : Demo :=
  match s.main with
  | .waiting => if s.evtSem then { s with evtSem := false, main := .getting } else s
  | .getting =>
    match s.evtFifo with
    | ev :: rest => { s with evtFifo := rest, main := .handling ev }
    | [] => { s with main := .waiting }
  | .handling ev => handle s ev
  | .putting ev new =>
    { s with evtFifo := s.evtFifo ++ [new], evtSem := true, main := .freeing ev,
             strPointer := if ev = .gpioButton2 then 0 else s.strPointer }
  | .freeing _ => { appEvtFree s with main := .getting }

def step (s : Demo) : Event → Demo
  | .btn0 => btn0 s
  | .btn1 => btn1 s
  | .btn2 => btn2 s
  | .btn3 => btn3 s
  | .cdcMouse chunk => cdcMouse s chunk
  | .cdcKbd chunk => cdcKbd s chunk
  | .put i => put s i
  | .main => mainStep s

/-! ## The books -/

/-- How many blocks `main` holds. -/
def MainPc.held : MainPc → Nat
  | .waiting => 0
  | .getting => 0
  | .handling _ => 1
  | .putting _ _ => 2
  | .freeing _ => 1

/-- Every block handed out is in the FIFO or held, and every producer had an event to write to. -/
structure Balanced (s : Demo) : Prop where
  blocks : s.allocated = s.evtFifo.length + s.produced.length + s.main.held
  nonNull : s.nullWritten = false

/-- The event makes someone call `app_evt_alloc`. -/
def Allocates (s : Demo) : Event → Prop
  | .btn0 => True
  | .btn1 => True
  | .btn2 => True
  | .btn3 => True
  | .cdcMouse chunk => (s.dataBufMouse ++ chunk).getLast? = some cr
  | .cdcKbd chunk => (s.dataBufKbd ++ chunk).getLast? = some cr
  | .put _ => False
  | .main =>
    match s.main with
    | .handling .gpioButton2 => 0 < (cString s.string).length
    | .handling .hidKbdString => (s.strPointer + 1) % 256 ≤ (cString s.string).length
    | .handling .cdcUnknown => False
    | .handling .cdcString => False
    | .handling .hidMouseClear => False
    | .handling .hidKbdClear => False
    | .handling _ => True
    | _ => False

/-- An allocation finds a free block at its first attempt. -/
def FindsBlock (s : Demo) (e : Event) : Prop := Allocates s e → s.allocated < fifoElemCount

theorem appEvtAlloc_of_lt {s : Demo} (h : s.allocated < fifoElemCount) :
    appEvtAlloc s = (true, { s with allocated := s.allocated + 1 }) := by
  rw [appEvtAlloc, if_pos h]

/-- An exhausted pool gives no event, whatever the second attempt finds. -/
theorem appEvtAlloc_of_not_lt {s : Demo} (h : ¬ s.allocated < fifoElemCount) :
    (appEvtAlloc s).1 = false := by
  simp only [appEvtAlloc, if_neg h]
  split
  · rfl
  · rfl

/-- With one more block held by the one who asked for it, the books balance if the block was found
at once, and else null is written to. -/
theorem balanced_allocThen_iff {s : Demo} {k : Demo → Demo}
    (hk : Balanced (k { s with allocated := s.allocated + 1 })) :
    Balanced (allocThen s k) ↔ s.allocated < fifoElemCount := by
  by_cases hlt : s.allocated < fifoElemCount
  · simp only [allocThen, appEvtAlloc_of_lt hlt, if_true, hlt, iff_true]
    exact hk
  · have hnull := appEvtAlloc_of_not_lt hlt
    refine ⟨fun hb => ?_, fun hlt' => absurd hlt' hlt⟩
    have hwritten := hb.nonNull
    simp only [allocThen, hnull, Bool.false_eq_true, if_false] at hwritten
    cases hwritten

theorem balanced_produce_iff {s : Demo} {type : EvtT} (h : Balanced s) :
    Balanced (produce s type) ↔ s.allocated < fifoElemCount := by
  refine balanced_allocThen_iff ⟨?_, h.nonNull⟩
  have hblocks := h.blocks
  simp only [List.length_append, List.length_singleton]
  omega

theorem balanced_mainAlloc_iff {s : Demo} {ev new : EvtT} (h : Balanced s)
    (hmain : s.main.held = 1) :
    Balanced (mainAlloc s ev new) ↔ s.allocated < fifoElemCount := by
  refine balanced_allocThen_iff ⟨?_, h.nonNull⟩
  have hblocks := h.blocks
  simp only [MainPc.held]
  omega

theorem balanced_cdcMouse_iff {s : Demo} {chunk : List Byte} (h : Balanced s) :
    Balanced (cdcMouse s chunk) ↔ FindsBlock s (.cdcMouse chunk) := by
  by_cases hlast : (s.dataBufMouse ++ chunk).getLast? = some cr
  · have hread : cdcMouseRead s.dataBufMouse chunk =
        ([], some (mouseEvent (s.dataBufMouse ++ chunk).dropLast)) := if_pos hlast
    have h' : Balanced { s with dataBufMouse := [] } := ⟨h.blocks, h.nonNull⟩
    rw [cdcMouse, hread]
    exact (balanced_produce_iff h').trans ⟨fun hlt _ => hlt, fun hG => hG hlast⟩
  · refine ⟨fun _ hnot => absurd hnot hlast, fun _ => ?_⟩
    simp only [cdcMouse, cdcMouseRead, if_neg hlast]
    split
    · next heq =>
      split at heq
      · cases heq
        exact ⟨h.blocks, h.nonNull⟩
      · cases heq
        exact ⟨h.blocks, h.nonNull⟩
    · next heq =>
      split at heq
      · cases heq
      · cases heq

theorem balanced_cdcKbd_iff {s : Demo} {chunk : List Byte} (h : Balanced s) :
    Balanced (cdcKbd s chunk) ↔ FindsBlock s (.cdcKbd chunk) := by
  by_cases hlast : (s.dataBufKbd ++ chunk).getLast? = some cr
  · have hread : cdcKbdRead s.dataBufKbd chunk =
        ([], some (.cdcString, cString (s.dataBufKbd ++ chunk).dropLast)) := if_pos hlast
    rw [cdcKbd, hread]
    generalize cString (s.dataBufKbd ++ chunk).dropLast = line
    have h' : Balanced { s with dataBufKbd := [], string := strcpy s.string line } :=
      ⟨h.blocks, h.nonNull⟩
    exact (balanced_produce_iff h').trans ⟨fun hlt _ => hlt, fun hG => hG hlast⟩
  · have hread : cdcKbdRead s.dataBufKbd chunk = (s.dataBufKbd ++ chunk, none) := if_neg hlast
    refine ⟨fun _ hnot => absurd hnot hlast, fun _ => ?_⟩
    rw [cdcKbd, hread]
    exact ⟨h.blocks, h.nonNull⟩

theorem balanced_put {s : Demo} (h : Balanced s) (i : Nat) : Balanced (put s i) := by
  unfold put
  split
  · next type hi =>
    refine ⟨?_, h.nonNull⟩
    have hblocks := h.blocks
    have hlt := (List.getElem?_eq_some_iff.mp hi).1
    simp only [List.length_eraseIdx, if_pos hlt, List.length_append, List.length_singleton]
    omega
  · exact h

theorem balanced_freeing {s : Demo} (h : Balanced s) (hmain : s.main.held = 1) (ev : EvtT) :
    Balanced { s with main := .freeing ev } := by
  refine ⟨?_, h.nonNull⟩
  have hblocks := h.blocks
  rw [hmain] at hblocks
  exact hblocks

theorem balanced_handle_iff {s : Demo} {ev : EvtT} (h : Balanced s)
    (hmain : s.main = .handling ev) : Balanced (handle s ev) ↔ FindsBlock s .main := by
  have hheld : s.main.held = 1 := by
    rw [hmain]
    rfl
  have halloc : ∀ new, Balanced (mainAlloc s ev new) ↔ s.allocated < fifoElemCount :=
    fun new => balanced_mainAlloc_iff h hheld
  have hfree := balanced_freeing h hheld ev
  unfold FindsBlock Allocates
  rw [hmain]
  cases ev with
  | gpioButton2 =>
    simp only [handle]
    split
    · next hpos => exact (halloc _).trans ⟨fun hlt _ => hlt, fun hG => hG hpos⟩
    · next hpos => exact ⟨fun _ hnot => absurd hnot hpos, fun _ => hfree⟩
  | hidKbdString =>
    have h' : Balanced { s with strPointer := (s.strPointer + 1) % 256 } := ⟨h.blocks, h.nonNull⟩
    have halloc' : ∀ new, Balanced (mainAlloc { s with strPointer := (s.strPointer + 1) % 256 }
        .hidKbdString new) ↔ s.allocated < fifoElemCount :=
      fun new => balanced_mainAlloc_iff h' hheld
    simp only [handle, clearKbdReport]
    split
    · next hlt =>
      exact (halloc' _).trans ⟨fun hblock _ => hblock, fun hG => hG (Nat.le_of_lt hlt)⟩
    · split
      · next heq =>
        exact (halloc' _).trans ⟨fun hblock _ => hblock, fun hG => hG (Nat.le_of_eq heq.symm)⟩
      · exact ⟨fun _ hle => by omega, fun _ => balanced_freeing h' hheld _⟩
  | cdcUnknown => exact ⟨fun _ hnot => hnot.elim, fun _ => hfree⟩
  | cdcString => exact ⟨fun _ hnot => hnot.elim, fun _ => hfree⟩
  | hidMouseClear => exact ⟨fun _ hnot => hnot.elim, fun _ => hfree⟩
  | hidKbdClear => exact ⟨fun _ hnot => hnot.elim, fun _ => hfree⟩
  | gpioButton0 => exact (halloc _).trans ⟨fun hlt _ => hlt, fun hG => hG trivial⟩
  | gpioButton1 => exact (halloc _).trans ⟨fun hlt _ => hlt, fun hG => hG trivial⟩
  | gpioButton3 => exact (halloc _).trans ⟨fun hlt _ => hlt, fun hG => hG trivial⟩
  | cdcUp => exact (halloc _).trans ⟨fun hlt _ => hlt, fun hG => hG trivial⟩
  | cdcDown => exact (halloc _).trans ⟨fun hlt _ => hlt, fun hG => hG trivial⟩
  | cdcLeft => exact (halloc _).trans ⟨fun hlt _ => hlt, fun hG => hG trivial⟩
  | cdcRight => exact (halloc _).trans ⟨fun hlt _ => hlt, fun hG => hG trivial⟩

theorem balanced_mainStep_iff {s : Demo} (h : Balanced s) :
    Balanced (mainStep s) ↔ FindsBlock s .main := by
  have hblocks := h.blocks
  unfold mainStep
  cases hmain : s.main with
  | handling ev => exact balanced_handle_iff h hmain
  | waiting =>
    refine ⟨fun _ hnot => ?_, fun _ => ?_⟩
    · rw [Allocates, hmain] at hnot
      exact hnot.elim
    · simp only
      split
      · rw [hmain] at hblocks
        exact ⟨hblocks, h.nonNull⟩
      · exact h
  | getting =>
    refine ⟨fun _ hnot => ?_, fun _ => ?_⟩
    · rw [Allocates, hmain] at hnot
      exact hnot.elim
    · simp only
      rw [hmain] at hblocks
      split
      · next ev rest hfifo =>
        refine ⟨?_, h.nonNull⟩
        rw [hfifo, List.length_cons] at hblocks
        simp only [MainPc.held] at hblocks ⊢
        omega
      · exact ⟨hblocks, h.nonNull⟩
  | putting ev new =>
    refine ⟨fun _ hnot => ?_, fun _ => ⟨?_, h.nonNull⟩⟩
    · rw [Allocates, hmain] at hnot
      exact hnot.elim
    · rw [hmain] at hblocks
      simp only [MainPc.held, List.length_append, List.length_singleton] at hblocks ⊢
      omega
  | freeing ev =>
    refine ⟨fun _ hnot => ?_, fun _ => ⟨?_, h.nonNull⟩⟩
    · rw [Allocates, hmain] at hnot
      exact hnot.elim
    · rw [hmain] at hblocks
      simp only [MainPc.held, appEvtFree] at hblocks ⊢
      omega

theorem balanced_step_iff {s : Demo} {e : Event} (h : Balanced s) :
    Balanced (step s e) ↔ FindsBlock s e := by
  have halloc : ∀ type, Balanced (produce s type) ↔ (True → s.allocated < fifoElemCount) :=
    fun type => (balanced_produce_iff h).trans true_imp_iff.symm
  cases e with
  | btn0 => exact halloc _
  | btn1 => exact halloc _
  | btn2 => exact halloc _
  | btn3 => exact halloc _
  | cdcMouse chunk => exact balanced_cdcMouse_iff h
  | cdcKbd chunk => exact balanced_cdcKbd_iff h
  | put i => exact ⟨fun _ hnot => hnot.elim, fun _ => balanced_put h i⟩
  | main => exact balanced_mainStep_iff h

theorem balanced_boot : Balanced boot := ⟨rfl, rfl⟩

/-- Every sequence of events, whatever the bursts. -/
theorem pool_balanced_iff (es : List Event) :
    Always step Balanced boot es ↔ Along step FindsBlock boot es :=
  always_iff_along step (I := fun _ => True) (fun _ _ _ => trivial)
    (fun _ _ _ h => balanced_step_iff h) trivial balanced_boot es

/-- A button pressed `n` times while `main` does not run. -/
def burst (n : Nat) : List Event := (List.replicate n [Event.btn0, .put 0]).flatten

theorem run_burst {n : Nat} (h : n ≤ fifoElemCount) :
    (run step boot (burst n)).allocated = n ∧ (run step boot (burst n)).produced = [] := by
  induction n with
  | zero => exact ⟨rfl, rfl⟩
  | succ n ih =>
    obtain ⟨hcount, hproduced⟩ := ih (by omega)
    have hlast : burst (n + 1) = burst n ++ [.btn0, .put 0] := by
      rw [burst, List.replicate_succ', List.flatten_append]
      rfl
    rw [hlast, run_append]
    generalize run step boot (burst n) = s at hcount hproduced
    have hlt : s.allocated < fifoElemCount := by omega
    simp only [run_cons, run_nil, step, btn0, produce, allocThen, appEvtAlloc_of_lt hlt, if_true,
      hproduced, List.nil_append, put, List.getElem?_cons_zero, List.eraseIdx_cons_zero, hcount]
    exact ⟨trivial, trivial⟩

/-- The 256th press of a burst has no event to write to. -/
theorem burst_exhausts_pool : ¬ Always step Balanced boot (burst 255 ++ [.btn0]) := by
  intro h
  have hwritten := h.last.nonNull
  rw [run_append] at hwritten
  have hfull : ¬ (run step boot (burst 255)).allocated < fifoElemCount := by
    rw [(run_burst (by decide)).1]
    decide
  simp only [run_cons, run_nil, step, btn0, produce, allocThen, appEvtAlloc_of_not_lt hfull,
    Bool.false_eq_true, if_false] at hwritten
  cases hwritten

end HidCdc
end ZephyrSamples
