import Mathlib.Data.List.Chain
import ZephyrSamples.HidCdc.EventPool
import ZephyrSamples.Lib.Observation

/-!
# Typing a string

What button 2 sends as keyboard reports, and what the host makes of them.  The characters follow
each other without a release, so a key that two of them share is seen once. -/

namespace ZephyrSamples
namespace HidCdc

open Runs Observation

/-! ## The reports -/

namespace HidKey

def one : Byte := 30
def two : Byte := 31
def three : Byte := 32
def four : Byte := 33
def five : Byte := 34
def six : Byte := 35
def seven : Byte := 36
def eight : Byte := 37
def nine : Byte := 38
def zero : Byte := 39
def space : Byte := 44
def minus : Byte := 45
def equal : Byte := 46
def leftBrace : Byte := 47
def rightBrace : Byte := 48
def backslash : Byte := 49
def semicolon : Byte := 51
def apostrophe : Byte := 52
def grave : Byte := 53
def comma : Byte := 54
def dot : Byte := 55
def slash : Byte := 56
def capsLock : Byte := 57
def delete : Byte := 76

end HidKey

/-- `ascii_to_hid`, where `none` is -1. -/
def asciiToHid (ascii : Byte) : Option Byte :=
  if ascii < 32 then none
  else if ascii < 48 then
    match ascii with
    | 32 => some HidKey.space
    | 33 => some HidKey.one
    | 34 => some HidKey.apostrophe
    | 35 => some HidKey.three
    | 36 => some HidKey.four
    | 37 => some HidKey.five
    | 38 => some HidKey.seven
    | 39 => some HidKey.apostrophe
    | 40 => some HidKey.nine
    | 41 => some HidKey.zero
    | 42 => some HidKey.eight
    | 43 => some HidKey.equal
    | 44 => some HidKey.comma
    | 45 => some HidKey.minus
    | 46 => some HidKey.dot
    | 47 => some HidKey.slash
    | _ => none
  else if ascii < 58 then
    if ascii = 48 then some HidKey.zero else some (ascii - 19)
  else if ascii < 65 then
    match ascii with
    | 58 => some HidKey.semicolon
    | 59 => some HidKey.semicolon
    | 60 => some HidKey.comma
    | 61 => some HidKey.equal
    | 62 => some HidKey.dot
    | 63 => some HidKey.slash
    | 64 => some HidKey.two
    | _ => none
  else if ascii < 91 then some (ascii - 61)
  else if ascii < 97 then
    match ascii with
    | 91 => some HidKey.leftBrace
    | 92 => some HidKey.backslash
    | 93 => some HidKey.rightBrace
    | 94 => some HidKey.six
    | 95 => some HidKey.minus
    | 96 => some HidKey.grave
    | _ => none
  else if ascii < 123 then some (ascii - 93)
  else if ascii < 128 then
    match ascii with
    | 123 => some HidKey.leftBrace
    | 124 => some HidKey.backslash
    | 125 => some HidKey.rightBrace
    | 126 => some HidKey.grave
    | 127 => some HidKey.delete
    | _ => none
  else none

def needsShift (ascii : Byte) : Bool :=
  if ascii < 33 ∨ ascii = 39 then false
  else if ascii ≥ 33 ∧ ascii < 44 then true
  else if ascii ≥ 44 ∧ ascii < 58 then false
  else if ascii = 59 ∨ ascii = 61 then false
  else if ascii ≥ 58 ∧ ascii < 91 then true
  else if ascii ≥ 91 ∧ ascii < 94 then false
  else if ascii = 94 ∨ ascii = 95 then true
  else if ascii > 95 ∧ ascii < 123 then false
  else if ascii > 122 ∧ ascii < 127 then true
  else false

/-- `HID_KBD_MODIFIER_RIGHT_SHIFT` -/
def rightShift : Byte := 0x20

/-- A report of the keyboard: the modifiers, a reserved byte and six keys, of which the sample uses
the last. -/
def kbdReport (modifiers key : Byte) : List Byte := [modifiers, 0, 0, 0, 0, 0, 0, key]

/-- The report that releases all keys. -/
def release : List Byte := kbdReport 0 0

/-- The report for a character, if it is supported. -/
def charReport (ch : Byte) : Option (List Byte) :=
  (asciiToHid ch).map (kbdReport (if needsShift ch then rightShift else 0))

/-- What an event has `main` write to `hid1_dev`. -/
def kbdReports (s : Demo) : Event → List (List Byte)
  | .main =>
    match s.main with
    | .handling .gpioButton3 => [kbdReport 0 HidKey.capsLock]
    | .handling .hidKbdClear => [release]
    | .handling .hidKbdString => (charReport (s.string.getD s.strPointer 0)).toList
    | _ => []
  | _ => []

/-- The reports of a run. -/
def reportsOf (s : Demo) (es : List Event) : List (List Byte) :=
  (answers step kbdReports s es).flatten

/-! ## The host -/

/-- The keys that a report has pressed. -/
def pressed (report : List Byte) : List Byte := (report.drop 2).filter (· ≠ 0)

/-- One of the two shift keys is in the report. -/
def shifted (report : List Byte) : Bool := report.getD 0 0 &&& 0x22 ≠ 0

/-- The characters of the keys that are no letters, without and with shift. -/
def symbols : List (Byte × Byte × Byte) :=
  [(30, 0x31, 0x21), (31, 0x32, 0x40), (32, 0x33, 0x23), (33, 0x34, 0x24), (34, 0x35, 0x25),
   (35, 0x36, 0x5e), (36, 0x37, 0x26), (37, 0x38, 0x2a), (38, 0x39, 0x28), (39, 0x30, 0x29),
   (44, 0x20, 0x20), (45, 0x2d, 0x5f), (46, 0x3d, 0x2b), (47, 0x5b, 0x7b), (48, 0x5d, 0x7d),
   (49, 0x5c, 0x7c), (51, 0x3b, 0x3a), (52, 0x27, 0x22), (53, 0x60, 0x7e), (54, 0x2c, 0x3c),
   (55, 0x2e, 0x3e), (56, 0x2f, 0x3f), (76, 0x7f, 0x7f)]

/-- The character of a key in the US layout. -/
def layout (shift : Bool) (key : Byte) : Option Byte :=
  if 4 ≤ key ∧ key ≤ 29 then some (if shift then key - 4 + 0x41 else key - 4 + 0x61)
  else (symbols.find? fun e => e.1 = key).map fun e => if shift then e.2.2 else e.2.1

/-- What the host registers of the reports that follow `prev`: the keys that were not pressed in the
report before. -/
def typed : List Byte → List (List Byte) → List Byte
  | _, [] => []
  | prev, report :: reports =>
    ((pressed report).filter (· ∉ pressed prev)).filterMap (layout (shifted report)) ++
      typed report reports

/-! ## A string that can be typed -/

/-- `main` waits, with nothing under way, and the string has characters that are supported. -/
structure Ready where
  demo : Demo
  waiting : demo.main = .waiting
  noEvents : demo.evtFifo = [] ∧ demo.produced = []
  noBlocks : demo.allocated = 0
  supported : ∀ c ∈ cString demo.string, (asciiToHid c).isSome
  length_le : (cString demo.string).length ≤ 63

def Ready.text (r : Ready) : List Byte := cString r.demo.string

/-- Button 2, and then nothing but `n` statements of `main`. -/
def pressButton2 (n : Nat) : List Event := [.btn2, .put 0] ++ List.replicate n .main

/-- When all is sent the host has the string, and the last report releases the keys. -/
def Types (r : Ready) : Prop :=
  ∃ N, ∀ n ≥ N, typed release (reportsOf r.demo (pressButton2 n)) = r.text ∧
    ∀ last, (reportsOf r.demo (pressButton2 n)).getLast? = some last → last = release

/-- No two neighbours are on the same key. -/
def DistinctNeighbours (text : List Byte) : Prop :=
  text.IsChain fun a b => asciiToHid a ≠ asciiToHid b

/-- The key of a supported character, and its shift, give the character. -/
theorem layout_asciiToHid {ch key : Byte} (h : asciiToHid ch = some key) :
    key ≠ 0 ∧ layout (needsShift ch) key = some ch := by
  have hall : ∀ n : Fin 256, (asciiToHid (UInt8.ofFin n)).all fun key =>
      key ≠ 0 ∧ layout (needsShift (UInt8.ofFin n)) key = some (UInt8.ofFin n) := by
    decide +kernel
  have hch := hall ch.toFin
  rw [UInt8.ofFin_toFin, h, Option.all_some] at hch
  exact of_decide_eq_true hch

theorem shifted_kbdReport (shift : Bool) (key : Byte) :
    shifted (kbdReport (if shift then rightShift else 0) key) = shift := by
  have hfirst : ∀ modifiers, shifted (kbdReport modifiers key) = decide (modifiers &&& 0x22 ≠ 0) :=
    fun _ => rfl
  rw [hfirst]
  cases shift with
  | false => decide
  | true => decide

theorem pressed_kbdReport {key : Byte} (modifiers : Byte) (h : key ≠ 0) :
    pressed (kbdReport modifiers key) = [key] := by
  simp [pressed, kbdReport, h]

/-- The report of a supported character. -/
theorem charReport_eq {ch key : Byte} (h : asciiToHid ch = some key) :
    ∃ report, charReport ch = some report ∧ pressed report = [key] ∧
      (pressed report).filterMap (layout (shifted report)) = [ch] := by
  obtain ⟨hne, hlayout⟩ := layout_asciiToHid h
  refine ⟨kbdReport (if needsShift ch then rightShift else 0) key, ?_, pressed_kbdReport _ hne, ?_⟩
  · rw [charReport, h]
    rfl
  · rw [pressed_kbdReport _ hne, shifted_kbdReport, List.filterMap_cons, hlayout]
    rfl

variable {text : List Byte} {prev : List Byte}

/-- The reports for a text. -/
def textReports (text : List Byte) : List (List Byte) := text.filterMap charReport ++ [release]

/-- The host registers at most the characters. -/
theorem length_typed_le (prev : List Byte) (hsupp : ∀ c ∈ text, (asciiToHid c).isSome) :
    (typed prev (textReports text)).length ≤ text.length := by
  induction text generalizing prev with
  | nil => exact Nat.le_refl 0
  | cons c text ih =>
    obtain ⟨key, hkey⟩ := Option.isSome_iff_exists.mp (hsupp c List.mem_cons_self)
    obtain ⟨report, hreport, hpressed, _⟩ := charReport_eq hkey
    have hrest := ih report fun c hc => hsupp c (List.mem_cons_of_mem _ hc)
    have hone : (((pressed report).filter (· ∉ pressed prev)).filterMap
        (layout (shifted report))).length ≤ 1 := by
      refine (List.length_filterMap_le _ _).trans ((List.length_filter_le _ _).trans ?_)
      rw [hpressed]
      exact Nat.le_refl 1
    rw [textReports, List.filterMap_cons, hreport, List.cons_append, typed, List.length_append,
      List.length_cons]
    exact Nat.add_comm 1 _ ▸ Nat.add_le_add hone hrest

/-- The text is registered if its first key was not pressed, and no two neighbours share a key. -/
theorem typed_eq_iff (hsupp : ∀ c ∈ text, (asciiToHid c).isSome) :
    typed prev (textReports text) = text ↔
      (∀ c, text.head? = some c → ∀ key, asciiToHid c = some key → key ∉ pressed prev) ∧
        DistinctNeighbours text := by
  induction text generalizing prev with
  | nil => exact ⟨fun _ => ⟨fun c hc => absurd hc.symm (Option.some_ne_none c), List.IsChain.nil⟩,
      fun _ => rfl⟩
  | cons c text ih =>
    obtain ⟨key, hkey⟩ := Option.isSome_iff_exists.mp (hsupp c List.mem_cons_self)
    obtain ⟨report, hreport, hpressed, hchar⟩ := charReport_eq hkey
    have hsupp' : ∀ c ∈ text, (asciiToHid c).isSome :=
      fun c hc => hsupp c (List.mem_cons_of_mem _ hc)
    have hreports : textReports (c :: text) = report :: textReports text := by
      rw [textReports, List.filterMap_cons, hreport]
      rfl
    rw [hreports, typed]
    by_cases hheld : key ∈ pressed prev
    · have hnone : (pressed report).filter (· ∉ pressed prev) = [] := by
        rw [hpressed]
        simp [hheld]
      rw [hnone, List.filterMap_nil, List.nil_append]
      constructor
      · intro heq
        have hle := length_typed_le report hsupp'
        rw [heq] at hle
        exact absurd hle (Nat.not_succ_le_self _)
      · exact fun h => absurd hheld (h.1 c rfl key hkey)
    · have hall : (pressed report).filter (· ∉ pressed prev) = pressed report := by
        rw [hpressed]
        simp [hheld]
      rw [hall, hchar, List.singleton_append, List.cons_inj_right, ih hsupp', hpressed,
        DistinctNeighbours, DistinctNeighbours, List.isChain_cons]
      constructor
      · rintro ⟨hhead, hchain⟩
        refine ⟨fun c' hc' key' hkey' => ?_, fun b hb heq => ?_, hchain⟩
        · obtain rfl := Option.some.inj hc'
          obtain rfl := Option.some.inj (hkey.symm.trans hkey')
          exact hheld
        · exact hhead b hb key (heq.symm.trans hkey) (List.mem_singleton_self key)
      · rintro ⟨_, hnext, hchain⟩
        refine ⟨fun c' hc' key' hkey' hmem => ?_, hchain⟩
        rw [List.mem_singleton.mp hmem] at hkey'
        exact hnext c' hc' (hkey.trans hkey'.symm)

/-! ## The run -/

/-- A run sends `reports` and ends in `s'`. -/
def Sends (s : Demo) (es : List Event) (reports : List (List Byte)) (s' : Demo) : Prop :=
  reportsOf s es = reports ∧ run step s es = s'

theorem Sends.append {s s' s'' : Demo} {as bs : List Event} {rs rs' : List (List Byte)}
    (h : Sends s as rs s') (h' : Sends s' bs rs' s'') : Sends s (as ++ bs) (rs ++ rs') s'' := by
  obtain ⟨rfl, rfl⟩ := h
  obtain ⟨rfl, rfl⟩ := h'
  refine ⟨?_, run_append step s as bs⟩
  rw [reportsOf, answers_append, List.flatten_append]
  rfl

theorem Sends.cons {s s' : Demo} {e : Event} {es : List Event} {rs : List (List Byte)}
    (h : Sends (step s e) es rs s') : Sends s (e :: es) (kbdReports s e ++ rs) s' := by
  obtain ⟨rfl, rfl⟩ := h
  exact ⟨rfl, rfl⟩

theorem Sends.nil (s : Demo) : Sends s [] [] s := ⟨rfl, rfl⟩

/-- `main` is about to get the only event there is. -/
def getting (s : Demo) (ev : EvtT) (k : Nat) (sem : Bool) : Demo :=
  { s with main := .getting, evtFifo := [ev], allocated := 1, strPointer := k, evtSem := sem }

/-- `main` has got it. -/
def handling (s : Demo) (ev : EvtT) (k : Nat) (sem : Bool) : Demo :=
  { s with main := .handling ev, evtFifo := [], allocated := 1, strPointer := k, evtSem := sem }

/-- Nothing is under way. -/
def resting (s : Demo) (k : Nat) : Demo :=
  { s with main := .waiting, evtFifo := [], allocated := 0, strPointer := k, evtSem := false }

variable {s : Demo} {ev new : EvtT} {k k' : Nat} {sem : Bool}

theorem mainAlloc_eq (h : s.allocated < fifoElemCount) :
    mainAlloc s ev new = { s with allocated := s.allocated + 1, main := .putting ev new } := by
  rw [mainAlloc, allocThen, appEvtAlloc_of_lt h]
  rfl

/-- An event that allocates another one is replaced by it. -/
theorem sends_next (k' : Nat)
    (h : handle (handling s ev k sem) ev = mainAlloc (handling s ev k' sem) ev new) :
    Sends (getting s ev k sem) (List.replicate 4 .main) (kbdReports (handling s ev k sem) .main)
      (getting s new (if ev = .gpioButton2 then 0 else k') true) := by
  have hblock : 1 < fifoElemCount := by decide
  have halloc : (handling s ev k' sem).allocated < fifoElemCount := hblock
  rw [mainAlloc_eq halloc] at h
  have hreports : reportsOf (getting s ev k sem) (List.replicate 4 .main) =
      kbdReports (handling s ev k sem) .main ++
        reportsOf (handle (handling s ev k sem) ev) (List.replicate 2 .main) := rfl
  have hrun : run step (getting s ev k sem) (List.replicate 4 .main) =
      run step (handle (handling s ev k sem) ev) (List.replicate 2 .main) := rfl
  constructor
  · rw [hreports, h]
    exact List.append_nil _
  · rw [hrun, h]
    rfl

theorem sends_button2 (k : Nat) (sem : Bool) (h : 0 < (cString s.string).length) :
    Sends (getting s .gpioButton2 k sem) (List.replicate 4 .main) []
      (getting s .hidKbdString 0 true) :=
  sends_next k (if_pos h)

/-- The event for a character sends its report, and becomes the one for the next, or for the
release. -/
theorem sends_char (hk : k < (cString s.string).length) (hlen : (cString s.string).length ≤ 63) :
    Sends (getting s .hidKbdString k true) (List.replicate 4 .main)
      (charReport (cString s.string)[k]).toList
      (getting s (if k + 1 < (cString s.string).length then .hidKbdString else .hidKbdClear) (k + 1)
        true) := by
  have hpre : cString s.string <+: s.string := List.takeWhile_prefix _
  have hin : k < s.string.length := Nat.lt_of_lt_of_le hk hpre.length_le
  have hchar : s.string.getD k 0 = (cString s.string)[k] := by
    rw [List.getD_eq_getElem?_getD, List.getElem?_eq_getElem hin, Option.getD_some]
    exact (hpre.getElem hk).symm
  have hmod : (k + 1) % 256 = k + 1 := Nat.mod_eq_of_lt (by omega)
  have hhandle : handle (handling s .hidKbdString k true) .hidKbdString =
      mainAlloc (handling s .hidKbdString (k + 1) true) .hidKbdString
        (if k + 1 < (cString s.string).length then .hidKbdString else .hidKbdClear) := by
    have hpointer : { handling s .hidKbdString k true with
        strPointer := ((handling s .hidKbdString k true).strPointer + 1) % 256 } =
          handling s .hidKbdString (k + 1) true :=
      congrArg (fun p => handling s .hidKbdString p true) hmod
    rw [handle, hpointer]
    show (if k + 1 < (cString s.string).length then _
      else if (cString s.string).length = k + 1 then _ else _) = _
    by_cases hnext : k + 1 < (cString s.string).length
    · rw [if_pos hnext, if_pos hnext]
    · have hlast : (cString s.string).length = k + 1 := by omega
      rw [if_neg hnext, if_pos hlast, if_neg hnext]
      rfl
  have hsends := sends_next _ hhandle
  rw [← hchar]
  exact hsends

/-- What is left of the string is sent, and then the release is due. -/
theorem sends_text (left : Nat) (hleft : k + left + 1 = (cString s.string).length)
    (hlen : (cString s.string).length ≤ 63) :
    Sends (getting s .hidKbdString k true) (List.replicate (4 * (left + 1)) .main)
      (((cString s.string).drop k).filterMap charReport)
      (getting s .hidKbdClear (cString s.string).length true) := by
  induction left generalizing k with
  | zero =>
    have hk : k < (cString s.string).length := by omega
    have hsends := sends_char hk hlen
    have hend : k + 1 = (cString s.string).length := by omega
    rw [if_neg (by omega), hend] at hsends
    have hreports : ((cString s.string).drop k).filterMap charReport =
        (charReport (cString s.string)[k]).toList := by
      rw [List.drop_eq_getElem_cons hk, List.drop_of_length_le hend.ge, List.filterMap_cons]
      cases charReport (cString s.string)[k] with
      | none => rfl
      | some report => rfl
    rw [hreports]
    exact hsends
  | succ left ih =>
    have hk : k < (cString s.string).length := by omega
    have hsends := sends_char hk hlen
    rw [if_pos (by omega)] at hsends
    have hreports : ((cString s.string).drop k).filterMap charReport =
        (charReport (cString s.string)[k]).toList ++
          ((cString s.string).drop (k + 1)).filterMap charReport := by
      rw [List.drop_eq_getElem_cons hk, List.filterMap_cons]
      cases charReport (cString s.string)[k] with
      | none => rfl
      | some report => rfl
    have hsteps : 4 * (left + 1 + 1) = 4 + 4 * (left + 1) := by omega
    rw [hreports, hsteps, List.replicate_add]
    exact hsends.append (ih (by omega))

theorem sends_clear :
    Sends (getting s .hidKbdClear k true) (List.replicate 6 .main) [release] (resting s k) :=
  ⟨rfl, rfl⟩

theorem sends_resting (n : Nat) :
    Sends (resting s k) (List.replicate n .main) [] (resting s k) := by
  induction n with
  | zero => exact Sends.nil _
  | succ n ih => exact Sends.cons (e := .main) ih

/-- Button 2 makes `main` get its event. -/
theorem sends_btn2 (hmain : s.main = .waiting) (hfifo : s.evtFifo = [])
    (hproduced : s.produced = []) (halloc : s.allocated = 0) : Sends s [.btn2, .put 0, .main] []
      (getting s .gpioButton2 s.strPointer false) := by
  obtain ⟨allocated, evtFifo, produced, main, _, _, _, _, _, _⟩ := s
  obtain rfl : main = .waiting := hmain
  obtain rfl : evtFifo = [] := hfifo
  obtain rfl : produced = [] := hproduced
  obtain rfl : allocated = 0 := halloc
  exact ⟨rfl, rfl⟩

theorem sends_button2_empty (h : ¬ 0 < (cString s.string).length) :
    Sends (getting s .gpioButton2 k false) (List.replicate 4 .main) [] (resting s k) := by
  have hhandle : handle (handling s .gpioButton2 k false) .gpioButton2 =
      { handling s .gpioButton2 k false with main := .freeing .gpioButton2 } := if_neg h
  have hreports : reportsOf (getting s .gpioButton2 k false) (List.replicate 4 .main) =
      reportsOf (handle (handling s .gpioButton2 k false) .gpioButton2)
        (List.replicate 2 .main) := rfl
  have hrun : run step (getting s .gpioButton2 k false) (List.replicate 4 .main) =
      run step (handle (handling s .gpioButton2 k false) .gpioButton2) (List.replicate 2 .main) :=
    rfl
  constructor
  · rw [hreports, hhandle]
    rfl
  · rw [hrun, hhandle]
    rfl

/-- The reports for the string, of which there are none if it is empty. -/
def sentReports (text : List Byte) : List (List Byte) := if text = [] then [] else textReports text

/-- After button 2 the string is sent, and nothing more. -/
theorem Ready.reportsOf_eq (r : Ready) : ∃ N, ∀ n ≥ N,
    reportsOf r.demo (pressButton2 n) = sentReports r.text := by
  have hlen : (cString r.demo.string).length ≤ 63 := r.length_le
  have hevents : ∀ m n, pressButton2 (1 + (m + n)) =
      [.btn2, .put 0, .main] ++ (List.replicate m .main ++ List.replicate n .main) := by
    intro m n
    rw [pressButton2, List.replicate_add, List.replicate_add]
    rfl
  have hall : ∃ m k, Sends (getting r.demo .gpioButton2 r.demo.strPointer false)
      (List.replicate m .main) (sentReports r.text) (resting r.demo k) := by
    by_cases hpos : 0 < (cString r.demo.string).length
    · have hne : r.text ≠ [] := List.length_pos_iff.mp hpos
      have htext := sends_text (s := r.demo) (k := 0) ((cString r.demo.string).length - 1)
        (by omega) hlen
      have hsends := (sends_button2 r.demo.strPointer false hpos).append
        (htext.append sends_clear)
      rw [← List.replicate_add, ← List.replicate_add] at hsends
      rw [sentReports, if_neg hne]
      exact ⟨_, _, hsends⟩
    · have hnil : r.text = [] := List.length_eq_zero_iff.mp (Nat.eq_zero_of_not_pos hpos)
      rw [sentReports, if_pos hnil]
      exact ⟨4, _, sends_button2_empty hpos⟩
  obtain ⟨m, k, hsends⟩ := hall
  refine ⟨1 + m, fun n hn => ?_⟩
  obtain ⟨rest, rfl⟩ := Nat.exists_eq_add_of_le hn
  have hbtn2 := sends_btn2 r.waiting r.noEvents.1 r.noEvents.2 r.noBlocks
  have hsends' := hbtn2.append (hsends.append (sends_resting rest))
  rw [Nat.add_assoc, hevents, hsends'.1, List.append_nil]
  rfl

theorem typed_sentReports_iff (hsupp : ∀ c ∈ text, (asciiToHid c).isSome) :
    typed release (sentReports text) = text ↔ DistinctNeighbours text := by
  by_cases hnil : text = []
  · rw [sentReports, if_pos hnil, hnil]
    exact ⟨fun _ => List.IsChain.nil, fun _ => rfl⟩
  · rw [sentReports, if_neg hnil, typed_eq_iff hsupp]
    exact and_iff_right fun _ _ _ _ => List.not_mem_nil

theorem getLast?_sentReports {last : List Byte} (h : (sentReports text).getLast? = some last) :
    last = release := by
  rw [sentReports] at h
  split at h
  case isTrue => cases h
  case isFalse =>
    rw [textReports, List.getLast?_concat] at h
    exact (Option.some.inj h).symm

theorem Types.typed_sentReports {r : Ready} (h : Types r) :
    typed release (sentReports r.text) = r.text := by
  obtain ⟨N, hreports⟩ := r.reportsOf_eq
  obtain ⟨N', htypes⟩ := h
  have heq := (htypes (max N N') (le_max_right N N')).1
  rw [hreports _ (le_max_left N N')] at heq
  exact heq

/-- The host gets the string exactly if no two neighbours are on the same key. -/
theorem types_iff (r : Ready) : Types r ↔ DistinctNeighbours r.text := by
  obtain ⟨N, hreports⟩ := r.reportsOf_eq
  constructor
  · exact fun h => (typed_sentReports_iff r.supported).mp h.typed_sentReports
  · intro hdistinct
    refine ⟨N, fun n hn => ?_⟩
    rw [hreports n hn]
    exact ⟨(typed_sentReports_iff r.supported).mpr hdistinct, fun _ => getLast?_sentReports⟩

/-- The string `ll` reaches the host as one letter. -/
theorem not_types_double_letter : ¬ ∀ r : Ready, Types r := by
  intro h
  have hstring : cString ([0x6c, 0x6c] ++ List.replicate 62 0) = [0x6c, 0x6c] := rfl
  have hsupp : ∀ c ∈ cString ([0x6c, 0x6c] ++ List.replicate 62 0), (asciiToHid c).isSome := by
    rw [hstring]
    exact List.forall_mem_cons.mpr ⟨rfl, List.forall_mem_singleton.mpr rfl⟩
  let r : Ready :=
    { demo := { boot with string := [0x6c, 0x6c] ++ List.replicate 62 0 }
      waiting := rfl
      noEvents := ⟨rfl, rfl⟩
      noBlocks := rfl
      supported := hsupp
      length_le := by decide }
  have htyped : typed release (sentReports [0x6c, 0x6c]) = [0x6c, 0x6c] := (h r).typed_sentReports
  exact absurd htyped (by decide)

end HidCdc
end ZephyrSamples
