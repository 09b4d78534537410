import ZephyrSamples.HidCdc.Typing

/-!
# The reports of the two HID devices

The loop of `main` with the reports it writes, each of which waits until the host has taken the one
before, while producers go on to put events.  A movement and a key are taken back by an event that
is put when they are reported.  That of a string comes with the end of the string, which is where it
was as long as no other string is set. -/

namespace ZephyrSamples
namespace HidCdc

open Runs

/-- `hid0_dev` and `hid1_dev`. -/
inductive HidDev where
  | mouse
  | kbd
  deriving DecidableEq, Repr

/-- A report of the mouse: its buttons, the two movements and the wheel. -/
def mouseReport (buttons x y : Byte) : List Byte := [buttons, x, y, 0]

/-- The report without a button or a movement. -/
def still : List Byte := mouseReport 0 0 0

/-- The report that `main` writes for an event, where `x` and `y` come from `sys_rand32_get`. -/
def hidReport (s : Demo) (x y : Byte) : EvtT → Option (HidDev × List Byte)
  | .gpioButton0 => some (.mouse, mouseReport 0 x y)
  | .gpioButton1 => some (.mouse, mouseReport 1 0 0)
  | .gpioButton2 => none
  | .gpioButton3 => some (.kbd, kbdReport 0 HidKey.capsLock)
  | .cdcUp => some (.mouse, mouseReport 0 0 0xe0)
  | .cdcDown => some (.mouse, mouseReport 0 0 0x20)
  | .cdcRight => some (.mouse, mouseReport 0 0x20 0)
  | .cdcLeft => some (.mouse, mouseReport 0 0xe0 0)
  | .cdcUnknown => none
  | .cdcString => none
  | .hidMouseClear => some (.mouse, still)
  | .hidKbdClear => some (.kbd, release)
  | .hidKbdString => (charReport (s.string.getD s.strPointer 0)).map fun report => (.kbd, report)

/-- The program and the host: `usb_sem`, the number of reports that the host has yet to take, and
the last report that was written to each device. -/
structure Desk where
  demo : Demo
  usbSem : Bool
  flight : Nat
  mouse : List Byte
  kbd : List Byte
  deriving DecidableEq, Repr

def Desk.start : Desk where
  demo := boot
  usbSem := true
  flight := 0
  mouse := still
  kbd := release

/-- An interrupt, a statement of `main`, or the host takes a report. -/
inductive Act where
  | irq (e : { e : Event // e ≠ .main })
  | main (x y : Byte)
  | inReady
  deriving DecidableEq

namespace Desk

/-- `k_sem_take` of `usb_sem` and `hid_int_ep_write`. -/
def write (d : Desk) : Option (HidDev × List Byte) → Desk
  | none => d
  | some (.mouse, report) => { d with usbSem := false, flight := d.flight + 1, mouse := report }
  | some (.kbd, report) => { d with usbSem := false, flight := d.flight + 1, kbd := report }

/-- The report of the event that `main` handles. -/
def report (d : Desk) (x y : Byte) : Option (HidDev × List Byte) :=
  match d.demo.main with
  | .handling ev => hidReport d.demo x y ev
  | _ => none

/-- `main` waits for `usb_sem`. -/
def Blocked (d : Desk) (x y : Byte) : Prop := (d.report x y).isSome ∧ d.usbSem = false

instance (d : Desk) (x y : Byte) : Decidable (d.Blocked x y) := inferInstanceAs (Decidable (_ ∧ _))

def mainStep (d : Desk) (x y : Byte) : Desk :=
  if d.Blocked x y then d else { d.write (d.report x y) with demo := HidCdc.mainStep d.demo }

/-- `in_ready_cb` -/
def inReady (d : Desk) : Desk :=
  if 0 < d.flight then { d with flight := d.flight - 1, usbSem := true } else d

def step (d : Desk) : Act → Desk
  | .irq e => { d with demo := HidCdc.step d.demo e.val }
  | .main x y => d.mainStep x y
  | .inReady => d.inReady

end Desk

/-! ## What is still to be handled -/

/-- The event that `main` handles. -/
def MainPc.now : MainPc → List EvtT
  | .handling ev => [ev]
  | _ => []

/-- The event that `main` is about to put; a string that button 2 has called for begins when it is
put. -/
def MainPc.next : MainPc → List EvtT
  | .putting ev new => if ev = .gpioButton2 then [] else [new]
  | _ => []

/-- The events that are still to be handled, in their order. -/
def Demo.pending (s : Demo) : List EvtT := s.main.now ++ s.evtFifo ++ s.main.next

/-- Some string is being typed, or about to be. -/
def Demo.Typing (s : Demo) : Prop :=
  .hidKbdString ∈ s.pending ∨ s.main = .putting .gpioButton2 .hidKbdString

instance (s : Demo) : Decidable s.Typing := inferInstanceAs (Decidable (_ ∨ _))

/-- The pool has a block for each event, and no string is set while one is typed. -/
def Careful (d : Desk) : Act → Prop
  | .irq e =>
    FindsBlock d.demo e.val ∧
      (d.demo.Typing → (HidCdc.step d.demo e.val).string = d.demo.string)
  | .main x y => ¬ d.Blocked x y → FindsBlock d.demo .main
  | .inReady => True

instance (s : Demo) : ∀ e, Decidable (Allocates s e)
  | .btn0 => inferInstanceAs (Decidable True)
  | .btn1 => inferInstanceAs (Decidable True)
  | .btn2 => inferInstanceAs (Decidable True)
  | .btn3 => inferInstanceAs (Decidable True)
  | .cdcMouse _ => inferInstanceAs (Decidable (_ = _))
  | .cdcKbd _ => inferInstanceAs (Decidable (_ = _))
  | .put _ => inferInstanceAs (Decidable False)
  | .main => by
    unfold Allocates
    cases s.main with
    | handling ev => cases ev <;> infer_instance
    | _ => infer_instance

instance (s : Demo) (e : Event) : Decidable (FindsBlock s e) := inferInstanceAs (Decidable (_ → _))

instance (d : Desk) : ∀ a, Decidable (Careful d a)
  | .irq _ => inferInstanceAs (Decidable (_ ∧ _))
  | .main _ _ => inferInstanceAs (Decidable (_ → _))
  | .inReady => inferInstanceAs (Decidable True)

/-- Each piece of a string has a release of the keys behind it. -/
def Covered : List EvtT → Prop
  | [] => True
  | ev :: evs => (ev = .hidKbdString → .hidKbdClear ∈ evs) ∧ Covered evs

theorem covered_of_notMem {evs : List EvtT} (h : .hidKbdString ∉ evs) : Covered evs := by
  induction evs with
  | nil => trivial
  | cons ev evs ih =>
    rw [List.mem_cons, not_or] at h
    exact ⟨fun hev => absurd hev.symm h.1, ih h.2⟩

theorem covered_clear (evs : List EvtT) : Covered (evs ++ [.hidKbdClear]) := by
  induction evs with
  | nil => exact ⟨fun hev => (nomatch hev), trivial⟩
  | cons ev evs ih => exact ⟨fun _ => List.mem_append_right _ List.mem_cons_self, ih⟩

theorem Covered.append {evs evs' : List EvtT} (h : Covered evs) (hno : .hidKbdString ∉ evs') :
    Covered (evs ++ evs') := by
  induction evs with
  | nil => exact covered_of_notMem hno
  | cons ev evs ih => exact ⟨fun hev => List.mem_append_left _ (h.1 hev), ih h.2⟩

/-! ## What `main` does with an event -/

/-- How many characters the string has, up to its NUL. -/
def Demo.strlen (s : Demo) : Nat := (cString s.string).length

/-- Where `str_pointer` is after an event. -/
def Demo.moved (s : Demo) (ev : EvtT) : Nat :=
  if ev = .hidKbdString then (s.strPointer + 1) % 256 else s.strPointer

/-- The event that `main` puts for the one it handles. -/
def Demo.follows (s : Demo) : EvtT → Option EvtT
  | .gpioButton0 => some .hidMouseClear
  | .gpioButton1 => some .hidMouseClear
  | .gpioButton2 => if 0 < s.strlen then some .hidKbdString else none
  | .gpioButton3 => some .hidKbdClear
  | .cdcUp => some .hidMouseClear
  | .cdcDown => some .hidMouseClear
  | .cdcRight => some .hidMouseClear
  | .cdcLeft => some .hidMouseClear
  | .cdcUnknown => none
  | .cdcString => none
  | .hidMouseClear => none
  | .hidKbdClear => none
  | .hidKbdString =>
    if s.moved .hidKbdString < s.strlen then some .hidKbdString
    else if s.strlen = s.moved .hidKbdString then some .hidKbdClear
    else none

/-- Where `main` goes on. -/
def after (ev : EvtT) : Option EvtT → MainPc
  | some new => .putting ev new
  | none => .freeing ev

variable {s : Demo} {d : Desk} {ev new : EvtT} {x y : Byte} {r : List Byte}

theorem mainAlloc_of_lt (h : s.allocated < fifoElemCount) :
    mainAlloc s ev new = { s with allocated := s.allocated + 1, main := .putting ev new } := by
  simp [mainAlloc, allocThen, appEvtAlloc_of_lt h]

/-- What the handling of an event leaves of the rest. -/
structure Handled (s : Demo) (ev : EvtT) (s' : Demo) : Prop where
  main : s'.main = after ev (s.follows ev)
  fifo : s'.evtFifo = s.evtFifo
  produced : s'.produced = s.produced
  string : s'.string = s.string
  pointer : s'.strPointer = s.moved ev

theorem handled_mainAlloc (h : s.allocated < fifoElemCount) (hpointer : s.moved ev = s.strPointer)
    (hfollows : s.follows ev = some new) : Handled s ev (mainAlloc s ev new) := by
  rw [mainAlloc_of_lt h]
  exact ⟨by rw [hfollows]; rfl, rfl, rfl, rfl, hpointer.symm⟩

theorem handled_freeing (hpointer : s.moved ev = s.strPointer) (hfollows : s.follows ev = none) :
    Handled s ev { s with main := .freeing ev } :=
  ⟨by rw [hfollows]; rfl, rfl, rfl, rfl, hpointer.symm⟩

theorem handled_string (h : FindsBlock s .main) (hmain : s.main = .handling .hidKbdString) :
    Handled s .hidKbdString (handle s .hidKbdString) := by
  have hblock (hle : s.moved .hidKbdString ≤ s.strlen) :
      ({ s with strPointer := s.moved .hidKbdString } : Demo).allocated < fifoElemCount := by
    refine h ?_
    rw [Allocates, hmain]
    exact hle
  have hsame : handle s .hidKbdString =
      if s.moved .hidKbdString < s.strlen then
        mainAlloc { s with strPointer := s.moved .hidKbdString } .hidKbdString .hidKbdString
      else if s.strlen = s.moved .hidKbdString then
        mainAlloc { s with strPointer := s.moved .hidKbdString } .hidKbdString .hidKbdClear
      else { s with strPointer := s.moved .hidKbdString, main := .freeing .hidKbdString } := rfl
  rw [hsame]
  by_cases hmore : s.moved .hidKbdString < s.strlen
  · have hfollows : s.follows .hidKbdString = some .hidKbdString := if_pos hmore
    rw [if_pos hmore, mainAlloc_of_lt (hblock (Nat.le_of_lt hmore))]
    exact ⟨by rw [hfollows]; rfl, rfl, rfl, rfl, rfl⟩
  · by_cases hend : s.strlen = s.moved .hidKbdString
    · have hfollows : s.follows .hidKbdString = some .hidKbdClear :=
        (if_neg hmore).trans (if_pos hend)
      rw [if_neg hmore, if_pos hend, mainAlloc_of_lt (hblock (Nat.le_of_eq hend.symm))]
      exact ⟨by rw [hfollows]; rfl, rfl, rfl, rfl, rfl⟩
    · have hfollows : s.follows .hidKbdString = none := (if_neg hmore).trans (if_neg hend)
      rw [if_neg hmore, if_neg hend]
      exact ⟨by rw [hfollows]; rfl, rfl, rfl, rfl, rfl⟩

theorem handled_handle (h : FindsBlock s .main) (hmain : s.main = .handling ev) :
    Handled s ev (handle s ev) := by
  have hblock (halloc : Allocates s .main) : s.allocated < fifoElemCount := h halloc
  rw [Allocates, hmain] at hblock
  cases ev with
  | gpioButton2 =>
    by_cases hpos : 0 < s.strlen
    · have hsame : handle s .gpioButton2 = mainAlloc s .gpioButton2 .hidKbdString := if_pos hpos
      rw [hsame]
      exact handled_mainAlloc (hblock hpos) rfl (if_pos hpos)
    · have hsame : handle s .gpioButton2 = { s with main := .freeing .gpioButton2 } := if_neg hpos
      rw [hsame]
      exact handled_freeing rfl (if_neg hpos)
  | hidKbdString => exact handled_string h hmain
  | gpioButton0 => exact handled_mainAlloc (hblock trivial) rfl rfl
  | gpioButton1 => exact handled_mainAlloc (hblock trivial) rfl rfl
  | gpioButton3 => exact handled_mainAlloc (hblock trivial) rfl rfl
  | cdcUp => exact handled_mainAlloc (hblock trivial) rfl rfl
  | cdcDown => exact handled_mainAlloc (hblock trivial) rfl rfl
  | cdcRight => exact handled_mainAlloc (hblock trivial) rfl rfl
  | cdcLeft => exact handled_mainAlloc (hblock trivial) rfl rfl
  | cdcUnknown => exact handled_freeing rfl rfl
  | cdcString => exact handled_freeing rfl rfl
  | hidMouseClear => exact handled_freeing rfl rfl
  | hidKbdClear => exact handled_freeing rfl rfl

/-- A report of the mouse takes another one back, or will be taken back itself. -/
theorem follows_of_mouse (h : hidReport s x y ev = some (.mouse, r)) :
    ev = .hidMouseClear ∧ r = still ∨
      ev ≠ .gpioButton2 ∧ s.follows ev = some .hidMouseClear := by
  cases ev with
  | hidMouseClear => exact Or.inl ⟨rfl, (congrArg Prod.snd (Option.some.inj h)).symm⟩
  | gpioButton0 => exact Or.inr ⟨nofun, rfl⟩
  | gpioButton1 => exact Or.inr ⟨nofun, rfl⟩
  | cdcUp => exact Or.inr ⟨nofun, rfl⟩
  | cdcDown => exact Or.inr ⟨nofun, rfl⟩
  | cdcRight => exact Or.inr ⟨nofun, rfl⟩
  | cdcLeft => exact Or.inr ⟨nofun, rfl⟩
  | gpioButton2 => exact nomatch h
  | gpioButton3 => exact nomatch congrArg Prod.fst (Option.some.inj h)
  | cdcUnknown => exact nomatch h
  | cdcString => exact nomatch h
  | hidKbdClear => exact nomatch congrArg Prod.fst (Option.some.inj h)
  | hidKbdString =>
    obtain ⟨report, -, heq⟩ := Option.map_eq_some_iff.mp h
    exact nomatch congrArg Prod.fst heq

theorem follows_of_kbd (h : hidReport s x y ev = some (.kbd, r)) :
    ev = .hidKbdClear ∧ r = release ∨ ev = .gpioButton3 ∨ ev = .hidKbdString := by
  cases ev with
  | hidKbdClear => exact Or.inl ⟨rfl, (congrArg Prod.snd (Option.some.inj h)).symm⟩
  | gpioButton3 => exact Or.inr (Or.inl rfl)
  | hidKbdString => exact Or.inr (Or.inr rfl)
  | gpioButton2 => exact nomatch h
  | cdcUnknown => exact nomatch h
  | cdcString => exact nomatch h
  | gpioButton0 => exact nomatch congrArg Prod.fst (Option.some.inj h)
  | gpioButton1 => exact nomatch congrArg Prod.fst (Option.some.inj h)
  | cdcUp => exact nomatch congrArg Prod.fst (Option.some.inj h)
  | cdcDown => exact nomatch congrArg Prod.fst (Option.some.inj h)
  | cdcRight => exact nomatch congrArg Prod.fst (Option.some.inj h)
  | cdcLeft => exact nomatch congrArg Prod.fst (Option.some.inj h)
  | hidMouseClear => exact nomatch congrArg Prod.fst (Option.some.inj h)

/-! ## What holds in between -/

/-- `main` sleeps only with nothing to handle; what was moved or pressed will be taken back by an
event that is still to be handled, at the latest at the end of the string; and one report at most is
on its way to the host. -/
structure Desk.Inv (d : Desk) : Prop where
  awake : d.demo.main = .waiting → d.demo.evtSem = false → d.demo.evtFifo = []
  produced : .hidKbdString ∉ d.demo.produced
  called : ∀ new, d.demo.main = .putting .gpioButton2 new →
    new = .hidKbdString ∧ 0 < d.demo.strlen
  moved : d.mouse ≠ still → .hidMouseClear ∈ d.demo.pending
  pressed : d.kbd ≠ release → .hidKbdClear ∈ d.demo.pending ∨
    .hidKbdString ∈ d.demo.pending ∧ d.demo.strPointer < d.demo.strlen
  covered : d.demo.strPointer < d.demo.strlen ∨ Covered d.demo.pending
  flight : d.flight = if d.usbSem then 0 else 1

theorem inv_start : Desk.start.Inv where
  awake _ _ := rfl
  produced := List.not_mem_nil
  called _ h := nomatch h
  moved h := absurd rfl h
  pressed h := absurd rfl h
  covered := Or.inr trivial
  flight := rfl

/-! ## The producers -/

/-- What an interrupt leaves: events may have been put, none of them for a piece of a string. -/
structure Interrupted (s s' : Demo) : Prop where
  main : s'.main = s.main
  pointer : s'.strPointer = s.strPointer
  produced : .hidKbdString ∉ s'.produced
  fifo : s'.evtFifo = s.evtFifo ∧ s'.evtSem = s.evtSem ∨
    ∃ type, type ≠ .hidKbdString ∧ s'.evtFifo = s.evtFifo ++ [type] ∧ s'.evtSem = true

theorem Interrupted.produce (hno : .hidKbdString ∉ s.produced) (h : s.allocated < fifoElemCount)
    {type : EvtT} (htype : type ≠ .hidKbdString) : Interrupted s (produce s type) := by
  have hsame : HidCdc.produce s type =
      { s with allocated := s.allocated + 1, produced := s.produced ++ [type] } := by
    simp [HidCdc.produce, allocThen, appEvtAlloc_of_lt h]
  rw [hsame]
  refine ⟨rfl, rfl, fun hmem => ?_, Or.inl ⟨rfl, rfl⟩⟩
  rcases List.mem_append.mp hmem with hmem | hmem
  · exact hno hmem
  · exact htype (List.mem_singleton.mp hmem).symm

theorem mouseEvent_ne (line : List Byte) : mouseEvent line ≠ .hidKbdString := by
  unfold mouseEvent
  repeat' split
  all_goals exact nofun

theorem interrupted_cdcMouse (hno : .hidKbdString ∉ s.produced) {chunk : List Byte}
    (h : FindsBlock s (.cdcMouse chunk)) : Interrupted s (cdcMouse s chunk) := by
  by_cases hlast : (s.dataBufMouse ++ chunk).getLast? = some cr
  · have hread : cdcMouseRead s.dataBufMouse chunk =
        ([], some (mouseEvent (s.dataBufMouse ++ chunk).dropLast)) := if_pos hlast
    rw [cdcMouse, hread]
    obtain ⟨hmain, hpointer, hproduced, hfifo⟩ :=
      Interrupted.produce (s := { s with dataBufMouse := [] }) hno (h hlast)
        (mouseEvent_ne (s.dataBufMouse ++ chunk).dropLast)
    exact ⟨hmain, hpointer, hproduced, hfifo⟩
  · have hread : ∃ buf, cdcMouseRead s.dataBufMouse chunk = (buf, none) := by
      rw [cdcMouseRead, if_neg hlast]
      split
      · exact ⟨_, rfl⟩
      · exact ⟨_, rfl⟩
    obtain ⟨buf, hread⟩ := hread
    rw [cdcMouse, hread]
    exact ⟨rfl, rfl, hno, Or.inl ⟨rfl, rfl⟩⟩

theorem interrupted_cdcKbd (hno : .hidKbdString ∉ s.produced) {chunk : List Byte}
    (h : FindsBlock s (.cdcKbd chunk)) : Interrupted s (cdcKbd s chunk) := by
  by_cases hlast : (s.dataBufKbd ++ chunk).getLast? = some cr
  · have hread : cdcKbdRead s.dataBufKbd chunk =
        ([], some (.cdcString, cString (s.dataBufKbd ++ chunk).dropLast)) := if_pos hlast
    rw [cdcKbd, hread]
    generalize cString (s.dataBufKbd ++ chunk).dropLast = line
    have hstring : EvtT.cdcString ≠ .hidKbdString := by decide
    obtain ⟨hmain, hpointer, hproduced, hfifo⟩ :=
      Interrupted.produce (s := { s with dataBufKbd := [], string := strcpy s.string line }) hno
        (h hlast) hstring
    exact ⟨hmain, hpointer, hproduced, hfifo⟩
  · have hread : cdcKbdRead s.dataBufKbd chunk = (s.dataBufKbd ++ chunk, none) := if_neg hlast
    rw [cdcKbd, hread]
    exact ⟨rfl, rfl, hno, Or.inl ⟨rfl, rfl⟩⟩

theorem interrupted_put (hno : .hidKbdString ∉ s.produced) (i : Nat) : Interrupted s (put s i) := by
  unfold put
  split
  · rename_i type hi
    have hmem := List.mem_of_getElem? hi
    refine ⟨rfl, rfl, fun hmem => hno (List.mem_of_mem_eraseIdx hmem), Or.inr ⟨type, ?_, rfl, rfl⟩⟩
    rintro rfl
    exact hno hmem
  · exact ⟨rfl, rfl, hno, Or.inl ⟨rfl, rfl⟩⟩

theorem interrupted_step (hno : .hidKbdString ∉ s.produced) {e : Event} (hne : e ≠ .main)
    (h : FindsBlock s e) : Interrupted s (step s e) := by
  cases e with
  | btn0 => exact Interrupted.produce hno (h trivial) nofun
  | btn1 => exact Interrupted.produce hno (h trivial) nofun
  | btn2 => exact Interrupted.produce hno (h trivial) nofun
  | btn3 => exact Interrupted.produce hno (h trivial) nofun
  | cdcMouse chunk => exact interrupted_cdcMouse hno h
  | cdcKbd chunk => exact interrupted_cdcKbd hno h
  | put i => exact interrupted_put hno i
  | main => exact absurd rfl hne

theorem covered_insert {evs evs' : List EvtT} {type : EvtT} (h : Covered (evs ++ evs'))
    (hne : type ≠ .hidKbdString) : Covered (evs ++ [type] ++ evs') := by
  induction evs with
  | nil => exact ⟨fun hev => absurd hev hne, h⟩
  | cons ev evs ih =>
    refine ⟨fun hev => ?_, ih h.2⟩
    rcases List.mem_append.mp (h.1 hev) with hmem | hmem
    · exact List.mem_append_left _ (List.mem_append_left _ hmem)
    · exact List.mem_append_right _ hmem

/-- What is still to be handled stays so, and nothing that is put in between is part of a string. -/
theorem Interrupted.pending {s' : Demo} (h : Interrupted s s') :
    s.pending ⊆ s'.pending ∧ (.hidKbdString ∈ s'.pending → .hidKbdString ∈ s.pending) ∧
      (Covered s.pending → Covered s'.pending) := by
  have hsame : s'.pending = s.main.now ++ s'.evtFifo ++ s.main.next := by
    rw [Demo.pending, h.main]
  rcases h.fifo with ⟨hfifo, -⟩ | ⟨type, hne, hfifo, -⟩
  · rw [hsame, hfifo]
    exact ⟨List.Subset.refl _, id, id⟩
  · have hmem (ev : EvtT) : ev ∈ s'.pending ↔ ev ∈ s.pending ∨ ev = type := by
      rw [hsame, hfifo, Demo.pending]
      simp only [List.mem_append, List.mem_singleton]
      tauto
    refine ⟨fun ev hev => (hmem ev).mpr (Or.inl hev), fun hev => ?_, fun hcovered => ?_⟩
    · exact ((hmem _).mp hev).resolve_right fun heq => hne heq.symm
    · rw [hsame, hfifo, ← List.append_assoc]
      exact covered_insert hcovered hne

theorem Desk.Inv.irq (h : d.Inv) (e : { e : Event // e ≠ .main }) (he : Careful d (.irq e)) :
    (d.step (.irq e)).Inv := by
  obtain ⟨hblock, hstring⟩ := he
  have hirq := interrupted_step h.produced e.property hblock
  obtain ⟨hsub, hno, hcovered⟩ := hirq.pending
  show Desk.Inv { d with demo := HidCdc.step d.demo e.val }
  generalize HidCdc.step d.demo e.val = s' at hstring hirq hsub hno hcovered ⊢
  have hlen (htyping : d.demo.Typing) : s'.strlen = d.demo.strlen := by
    rw [Demo.strlen, hstring htyping, Demo.strlen]
  constructor
  case awake =>
    intro hmain hsem
    rcases hirq.fifo with ⟨hfifo, hsame⟩ | ⟨-, -, -, htrue⟩
    · exact hfifo.trans (h.awake (hirq.main ▸ hmain) (hsame ▸ hsem))
    · exact absurd (hsem.symm.trans htrue) Bool.false_ne_true
  case produced => exact hirq.produced
  case called =>
    intro new hmain
    have hmain' : d.demo.main = .putting .gpioButton2 new := hirq.main.symm.trans hmain
    obtain ⟨rfl, hpos⟩ := h.called new hmain'
    exact ⟨rfl, (hlen (Or.inr hmain')).symm ▸ hpos⟩
  case moved => exact fun hmoved => hsub (h.moved hmoved)
  case pressed =>
    intro hpressed
    rcases h.pressed hpressed with hclear | ⟨hstr, hlt⟩
    · exact Or.inl (hsub hclear)
    · refine Or.inr ⟨hsub hstr, ?_⟩
      show s'.strPointer < s'.strlen
      rw [hirq.pointer, hlen (Or.inl hstr)]
      exact hlt
  case covered =>
    by_cases hstr : .hidKbdString ∈ d.demo.pending
    · refine h.covered.imp (fun hlt => ?_) hcovered
      show s'.strPointer < s'.strlen
      rw [hirq.pointer, hlen (Or.inl hstr)]
      exact hlt
    · exact Or.inr (covered_of_notMem fun hmem => hstr (hno hmem))
  case flight => exact h.flight

/-! ## `main` -/

theorem pending_handled {s' : Demo} (h : Handled s ev s') :
    s'.pending = s.evtFifo ++ if ev = .gpioButton2 then [] else (s.follows ev).toList := by
  rw [Demo.pending, h.main, h.fifo]
  cases s.follows ev with
  | none =>
    show [] ++ s.evtFifo ++ [] = s.evtFifo ++ (if ev = .gpioButton2 then [] else [])
    rw [ite_self]
    rfl
  | some new => rfl

/-- A piece of a string has another one behind it, or a release of the keys, or it is behind the
end. -/
theorem follows_string (s : Demo) :
    s.follows .hidKbdString = some .hidKbdString ∧ s.moved .hidKbdString < s.strlen ∨
      s.follows .hidKbdString = some .hidKbdClear ∨
      s.follows .hidKbdString = none ∧ s.strlen ≤ s.strPointer := by
  by_cases hmore : s.moved .hidKbdString < s.strlen
  · exact Or.inl ⟨if_pos hmore, hmore⟩
  · by_cases hend : s.strlen = s.moved .hidKbdString
    · exact Or.inr (Or.inl ((if_neg hmore).trans (if_pos hend)))
    · refine Or.inr (Or.inr ⟨(if_neg hmore).trans (if_neg hend), ?_⟩)
      have hmoved : s.moved .hidKbdString ≤ s.strPointer + 1 := Nat.mod_le _ _
      omega

theorem follows_ne_string (hne : ev ≠ .hidKbdString) (hne2 : ev ≠ .gpioButton2) :
    s.follows ev ≠ some .hidKbdString := by
  cases ev with
  | hidKbdString => exact absurd rfl hne
  | gpioButton2 => exact absurd rfl hne2
  | _ => exact nofun

theorem pending_handling (hmain : s.main = .handling ev) : s.pending = ev :: s.evtFifo := by
  rw [Demo.pending, hmain]
  exact List.append_nil _

/-- After a piece of a string the keys will still be released. -/
theorem Desk.Inv.string {s' : Demo} (h : d.Inv) (hmain : d.demo.main = .handling .hidKbdString)
    (hhandled : Handled d.demo .hidKbdString s') :
    (.hidKbdClear ∈ s'.pending ∨
      .hidKbdString ∈ s'.pending ∧ d.demo.moved .hidKbdString < d.demo.strlen) ∧
    (d.demo.moved .hidKbdString < d.demo.strlen ∨ Covered s'.pending) := by
  have hpending := pending_handled hhandled
  rw [if_neg nofun] at hpending
  rcases follows_string d.demo with ⟨hnext, hlt⟩ | hnext | ⟨hnext, hend⟩
  · rw [hpending, hnext]
    exact ⟨Or.inr ⟨List.mem_append_right _ List.mem_cons_self, hlt⟩, Or.inl hlt⟩
  · rw [hpending, hnext]
    exact ⟨Or.inl (List.mem_append_right _ List.mem_cons_self), Or.inr (covered_clear _)⟩
  · have hcovered := h.covered.resolve_left (Nat.not_lt.mpr hend)
    rw [pending_handling hmain] at hcovered
    rw [hpending, hnext, Option.toList_none, List.append_nil]
    exact ⟨Or.inl (hcovered.1 rfl), Or.inr hcovered.2⟩

theorem Handled.strlen_eq {s' : Demo} (h : Handled s ev s') : s'.strlen = s.strlen := by
  rw [Demo.strlen, h.string, Demo.strlen]

/-- The event that follows will be handled. -/
theorem Handled.put {s' : Demo} (h : Handled s ev s') (hne : ev ≠ .gpioButton2)
    (hnew : s.follows ev = some new) : new ∈ s'.pending := by
  rw [pending_handled h, if_neg hne, hnew]
  exact List.mem_append_right _ List.mem_cons_self

/-- The other events stay to be handled. -/
theorem Handled.stays {s' : Demo} (h : Handled s ev s') (hmain : s.main = .handling ev)
    {ev' : EvtT} (hne : ev' ≠ ev) (hmem : ev' ∈ s.pending) : ev' ∈ s'.pending := by
  rw [pending_handling hmain] at hmem
  rw [pending_handled h]
  exact List.mem_append_left _ ((List.mem_cons.mp hmem).resolve_left hne)

theorem Handled.awake {s' : Demo} (h : Handled s ev s') : s'.main ≠ .waiting := by
  rw [h.main]
  cases s.follows ev with
  | none => exact nofun
  | some next => exact nofun

/-- For the button of the string a piece of it is put, and there is one. -/
theorem Handled.called {s' : Demo} (h : Handled s ev s')
    (hnew : s'.main = .putting .gpioButton2 new) : new = .hidKbdString ∧ 0 < s'.strlen := by
  rw [h.main] at hnew
  cases hfollows : s.follows ev with
  | none => rw [hfollows] at hnew; exact nomatch hnew
  | some next =>
    rw [hfollows] at hnew
    obtain ⟨rfl, rfl⟩ := MainPc.putting.inj hnew
    have hlong : 0 < s.strlen ∧ .hidKbdString = next := by
      simpa [Demo.follows] using hfollows
    exact ⟨hlong.2.symm, h.strlen_eq.symm ▸ hlong.1⟩

/-- Keys that are held, or are typed now, will still be released. -/
theorem Desk.Inv.pressed_handled {s' : Demo} (h : d.Inv) (hmain : d.demo.main = .handling ev)
    (hhandled : Handled d.demo ev s') (hev : ev ≠ .hidKbdClear)
    (hheld : d.kbd ≠ release ∨ ev = .hidKbdString) :
    .hidKbdClear ∈ s'.pending ∨ .hidKbdString ∈ s'.pending ∧ s'.strPointer < s'.strlen := by
  rw [hhandled.strlen_eq, hhandled.pointer]
  by_cases hstr : ev = .hidKbdString
  · subst hstr
    exact (h.string hmain hhandled).1
  · rcases h.pressed (hheld.resolve_right hstr) with hclear | ⟨hmem, hlt⟩
    · exact Or.inl (hhandled.stays hmain hev.symm hclear)
    · refine Or.inr ⟨hhandled.stays hmain (Ne.symm hstr) hmem, ?_⟩
      rwa [Demo.moved, if_neg hstr]

/-- No piece of a string is left without a release of the keys behind it. -/
theorem Desk.Inv.covered_handled {s' : Demo} (h : d.Inv) (hmain : d.demo.main = .handling ev)
    (hhandled : Handled d.demo ev s') : s'.strPointer < s'.strlen ∨ Covered s'.pending := by
  rw [hhandled.strlen_eq, hhandled.pointer]
  by_cases hstr : ev = .hidKbdString
  · subst hstr
    exact (h.string hmain hhandled).2
  · rw [Demo.moved, if_neg hstr]
    refine h.covered.imp_right fun hc => ?_
    rw [pending_handling hmain] at hc
    rw [pending_handled hhandled]
    refine hc.2.append ?_
    split
    · exact List.not_mem_nil
    · rename_i hne2
      exact fun hmem => follows_ne_string hstr hne2 (Option.mem_toList.mp hmem)

/-- A report is given only when none is in flight. -/
theorem Desk.Inv.flight_free (h : d.Inv) (hmain : d.demo.main = .handling ev)
    (hblocked : ¬ d.Blocked x y) (hreport : (hidReport d.demo x y ev).isSome) : d.flight = 0 := by
  by_contra hbusy
  refine hblocked ⟨?_, Bool.eq_false_iff.mpr fun hsem => hbusy (h.flight.trans (if_pos hsem))⟩
  rw [Desk.report, hmain]
  exact hreport

/-- The report, and the event that is put for it. -/
theorem Desk.Inv.handling (h : d.Inv) (hmain : d.demo.main = .handling ev)
    (hblocked : ¬ d.Blocked x y) (hblock : FindsBlock d.demo .main) :
    Desk.Inv { d.write (hidReport d.demo x y ev) with demo := handle d.demo ev } := by
  have hhandled := handled_handle hblock hmain
  have hproduced : .hidKbdString ∉ (handle d.demo ev).produced :=
    hhandled.produced.symm ▸ h.produced
  have hcovered := h.covered_handled hmain hhandled
  cases hreport : hidReport d.demo x y ev with
  | none =>
    refine ⟨fun hw => absurd hw hhandled.awake, hproduced, fun _ => hhandled.called,
      fun hmoved => ?_, fun hheld => ?_, hcovered, h.flight⟩
    · refine hhandled.stays hmain ?_ (h.moved hmoved)
      rintro rfl
      exact nomatch hreport
    · refine h.pressed_handled hmain hhandled ?_ (Or.inl hheld)
      rintro rfl
      exact nomatch hreport
  | some out =>
    have hflight : d.flight + 1 = 1 := by
      rw [h.flight_free hmain hblocked (Option.isSome_of_eq_some hreport)]
    obtain ⟨dev, r⟩ := out
    cases dev with
    | mouse =>
      refine ⟨fun hw => absurd hw hhandled.awake, hproduced, fun _ => hhandled.called,
        fun hmoved => ?_, fun hheld => ?_, hcovered, hflight⟩
      · rcases follows_of_mouse hreport with ⟨-, rfl⟩ | ⟨hne, hnext⟩
        · exact absurd rfl hmoved
        · exact hhandled.put hne hnext
      · refine h.pressed_handled hmain hhandled ?_ (Or.inl hheld)
        rintro rfl
        exact nomatch congrArg Prod.fst (Option.some.inj hreport)
    | kbd =>
      refine ⟨fun hw => absurd hw hhandled.awake, hproduced, fun _ => hhandled.called,
        fun hmoved => ?_, fun hheld => ?_, hcovered, hflight⟩
      · refine hhandled.stays hmain ?_ (h.moved hmoved)
        rintro rfl
        exact nomatch congrArg Prod.fst (Option.some.inj hreport)
      · rcases follows_of_kbd hreport with ⟨-, rfl⟩ | rfl | rfl
        · exact absurd rfl hheld
        · exact Or.inl (hhandled.put nofun rfl)
        · exact h.pressed_handled hmain hhandled nofun (Or.inr rfl)

/-- A statement that handles and puts nothing. -/
theorem Desk.Inv.goOn (h : d.Inv) {s' : Demo} (hpending : s'.pending = d.demo.pending)
    (hproduced : s'.produced = d.demo.produced) (hpointer : s'.strPointer = d.demo.strPointer)
    (hstring : s'.string = d.demo.string)
    (hawake : s'.main = .waiting → s'.evtSem = false → s'.evtFifo = [])
    (hcalled : ∀ new, s'.main ≠ .putting .gpioButton2 new) : Desk.Inv { d with demo := s' } := by
  have hlen : s'.strlen = d.demo.strlen := by rw [Demo.strlen, hstring, Demo.strlen]
  constructor
  case awake => exact hawake
  case produced => exact hproduced ▸ h.produced
  case called => exact fun new hmain => absurd hmain (hcalled new)
  case moved => exact hpending ▸ h.moved
  case pressed => exact hpending ▸ hpointer ▸ hlen ▸ h.pressed
  case covered => exact hpending ▸ hpointer ▸ hlen ▸ h.covered
  case flight => exact h.flight

/-- The event that was allocated is put, for a string at its begin. -/
theorem Desk.Inv.putting (h : d.Inv) (hmain : d.demo.main = .putting ev new) :
    Desk.Inv { d with demo := HidCdc.mainStep d.demo } := by
  have hnext : HidCdc.mainStep d.demo =
      { d.demo with
        evtFifo := d.demo.evtFifo ++ [new], evtSem := true, main := .freeing ev,
        strPointer := if ev = .gpioButton2 then 0 else d.demo.strPointer } := by
    rw [HidCdc.mainStep, hmain]
  have hpending : (HidCdc.mainStep d.demo).pending = d.demo.evtFifo ++ [new] := by
    rw [hnext]
    exact List.append_nil _
  by_cases hev : ev = .gpioButton2
  · subst hev
    obtain ⟨rfl, hpos⟩ := h.called new hmain
    have hbefore : d.demo.pending = d.demo.evtFifo := by
      rw [Demo.pending, hmain]
      exact List.append_nil _
    have hstart : (HidCdc.mainStep d.demo).strPointer < (HidCdc.mainStep d.demo).strlen := by
      rw [hnext]
      exact hpos
    constructor
    case awake => rw [hnext]; exact nofun
    case produced => rw [hnext]; exact h.produced
    case called => rw [hnext]; exact nofun
    case moved =>
      intro hmoved
      show .hidMouseClear ∈ (HidCdc.mainStep d.demo).pending
      rw [hpending]
      exact List.mem_append_left _ (hbefore ▸ h.moved hmoved)
    case pressed =>
      refine fun _ => Or.inr ⟨?_, hstart⟩
      show .hidKbdString ∈ (HidCdc.mainStep d.demo).pending
      rw [hpending]
      exact List.mem_append_right _ List.mem_cons_self
    case covered => exact Or.inl hstart
    case flight => exact h.flight
  · refine h.goOn ?_ ?_ ?_ ?_ ?_ ?_
    · rw [hpending, Demo.pending, hmain]
      show _ = [] ++ d.demo.evtFifo ++ if ev = .gpioButton2 then [] else [new]
      rw [if_neg hev, List.nil_append]
    · rw [hnext]
    · rw [hnext]
      exact if_neg hev
    · rw [hnext]
    · rw [hnext]
      exact nofun
    · rw [hnext]
      exact fun _ => nofun

theorem Desk.Inv.main (h : d.Inv) (he : Careful d (.main x y)) : (d.step (.main x y)).Inv := by
  show (d.mainStep x y).Inv
  rw [Desk.mainStep]
  split
  · exact h
  · rename_i hblocked
    have hblock := he hblocked
    rw [Desk.report]
    cases hmain : d.demo.main with
    | handling ev =>
      rw [HidCdc.mainStep, hmain]
      exact h.handling hmain hblocked hblock
    | putting ev new => exact h.putting hmain
    | waiting =>
      rw [HidCdc.mainStep, hmain]
      dsimp only
      split
      · refine h.goOn ?_ rfl rfl rfl nofun fun _ => nofun
        rw [Demo.pending, Demo.pending, hmain]
        rfl
      · exact h
    | getting =>
      rw [HidCdc.mainStep, hmain]
      dsimp only
      split
      · rename_i ev rest hfifo
        refine h.goOn ?_ rfl rfl rfl nofun fun _ => nofun
        rw [Demo.pending, Demo.pending, hmain, hfifo]
        rfl
      · rename_i hfifo
        refine h.goOn ?_ rfl rfl rfl (fun _ _ => hfifo) fun _ => nofun
        rw [Demo.pending, Demo.pending, hmain]
        rfl
    | freeing ev =>
      rw [HidCdc.mainStep, hmain]
      refine h.goOn ?_ rfl rfl rfl nofun fun _ => nofun
      rw [Demo.pending, Demo.pending, hmain]
      rfl

theorem Desk.Inv.inReady (h : d.Inv) : d.inReady.Inv := by
  rw [Desk.inReady]
  split
  · rename_i hpos
    have hflight := h.flight
    have hone : d.flight - 1 = 0 := by
      split at hflight
      · omega
      · omega
    exact ⟨h.awake, h.produced, h.called, h.moved, h.pressed, h.covered, hone⟩
  · exact h

theorem Desk.Inv.step {a : Act} (h : d.Inv) (he : Careful d a) : (d.step a).Inv := by
  cases a with
  | irq e => exact h.irq e he
  | main x y => exact h.main he
  | inReady => exact h.inReady

/-- Whatever interrupts `main`, and wherever: a report is only written when the host has taken the
one before, `main` only waits for a report that is on its way, and it only sleeps when all events
have been handled, with nothing pressed and nothing moving. -/
theorem idle_released {acts : List Act} (h : Along Desk.step Careful Desk.start acts) :
    let d := run Desk.step Desk.start acts
    d.flight ≤ 1 ∧ (∀ x y, d.Blocked x y → d.flight = 1) ∧
    (d.demo.main = .waiting → d.demo.evtSem = false →
      d.demo.evtFifo = [] ∧ d.mouse = still ∧ d.kbd = release) := by
  intro d
  have hinv : d.Inv := Along.invariant Desk.step (fun _ _ hd he => hd.step he) inv_start h
  refine ⟨?_, fun x y hblocked => ?_, fun hmain hsem => ?_⟩
  · rw [hinv.flight]
    split
    · exact Nat.zero_le 1
    · exact Nat.le_refl 1
  · rw [hinv.flight, hblocked.2]
    rfl
  · have hfifo := hinv.awake hmain hsem
    have hnone : d.demo.pending = [] := by
      rw [Demo.pending, hmain, hfifo]
      rfl
    refine ⟨hfifo, ?_, ?_⟩
    · by_contra hmoved
      exact List.not_mem_nil (hnone ▸ hinv.moved hmoved)
    · by_contra hpressed
      rcases hinv.pressed hpressed with hmem | ⟨hmem, -⟩
      · exact List.not_mem_nil (hnone ▸ hmem)
      · exact List.not_mem_nil (hnone ▸ hmem)

theorem put_ne_main (i : Nat) : Event.put i ≠ .main := by
  intro h
  cases h

theorem cdcKbd_ne_main (chunk : List Byte) : Event.cdcKbd chunk ≠ .main := by
  intro h
  cases h

theorem btn0_ne_main : Event.btn0 ≠ .main := by
  intro h
  cases h

theorem btn2_ne_main : Event.btn2 ≠ .main := by
  intro h
  cases h

/-- A producer that is not interrupted. -/
def produced (e : Event) (h : e ≠ .main) : List Act := [.irq ⟨e, h⟩, .irq ⟨.put 0, put_ne_main 0⟩]

/-- `n` statements of `main`, and then the host takes a report. -/
def mainThenHost (n : Nat) (x y : Byte) : List Act := List.replicate n (.main x y) ++ [.inReady]

/-- The string "a" is set and typed, and the mouse moved in between. -/
def typedAndMoved : List Act :=
  produced (.cdcKbd [0x61, cr]) (cdcKbd_ne_main [0x61, cr]) ++ produced .btn2 btn2_ne_main ++
    List.replicate 12 (.main 0 0) ++ produced .btn0 btn0_ne_main ++ mainThenHost 4 3 250 ++
    mainThenHost 4 3 250 ++ mainThenHost 4 0 0 ++ List.replicate 5 (.main 0 0)

theorem idle_released_typed : Along Desk.step Careful Desk.start typedAndMoved ∧
    let d := run Desk.step Desk.start typedAndMoved
    d.flight ≤ 1 ∧ (∀ x y, d.Blocked x y → d.flight = 1) ∧
    (d.demo.main = .waiting → d.demo.evtSem = false →
      d.demo.evtFifo = [] ∧ d.mouse = still ∧ d.kbd = release) := by
  have hcareful : Along Desk.step Careful Desk.start typedAndMoved := by decide +kernel
  exact ⟨hcareful, idle_released hcareful⟩

/-- `n` statements of `main`, with a host that takes each report at once. -/
def mainTurns (n : Nat) : List Act := (List.replicate n (mainThenHost 1 0 0)).flatten

/-- A shorter string that is set while one is typed leaves a key pressed. -/
example :
    let d := run Desk.step Desk.start
      (produced (.cdcKbd [0x61, 0x62, 0x63, cr]) (cdcKbd_ne_main _) ++
        produced .btn2 btn2_ne_main ++ mainTurns 11 ++
        produced (.cdcKbd [0x78, cr]) (cdcKbd_ne_main _) ++ mainTurns 20)
    d.demo.main = .waiting ∧ d.demo.evtSem = false ∧ d.kbd ≠ release := by
  decide +kernel

end HidCdc
end ZephyrSamples
