import Mathlib.Algebra.Group.Nat.Defs
import Mathlib.Data.List.Basic

/-!
# The tune player of the mesh demo

`board_play_tune` of `microbit.c`.  A cursor moves over a string: from the text before a duration,
over its digits, to the note and past a `#` that follows it.  The string is what may be read of it,
its terminator included, and a result of `none` says that the cursor has left it. -/

namespace ZephyrSamples
namespace MeshDemo

def nul : Char := '\x00'

/-- `period_map`: the note, its period and that of the sharp. -/
def periodMap : List (Char × Nat × Nat) :=
  [('C', 3822, 3608), ('D', 3405, 3214), ('E', 3034, 3034), ('F', 2863, 2703), ('G', 2551, 2407),
    ('A', 2273, 2145), ('B', 2025, 2025)]

def getPeriod (note : Char) (sharp : Bool) : Nat :=
  if note = ' ' then 0
  else
    match periodMap.find? (·.1 = note) with
    | some (_, period, sharpPeriod) => if sharp then sharpPeriod else period
    | none => 1500

/-- What is done: `pwm_pin_set_usec` with a period and a pulse, and `k_sleep`. -/
inductive Action where
  | pwmPinSetUsec (period pulse : Nat)
  | sleep (duration : Nat)
  deriving DecidableEq, Repr

/-- `while (*str && !isdigit(*str))` -/
def skipText : List Char → Option (List Char)
  | [] => none
  | c :: rest => if c ≠ nul ∧ ¬ c.isDigit then skipText rest else some (c :: rest)

/-- `while (isdigit(*str))`, with the 32 bits of `duration`. -/
def readDuration (duration : Nat) : List Char → Option (Nat × List Char)
  | [] => none
  | c :: rest =>
    if c.isDigit then
      readDuration ((duration * 10 % 2 ^ 32 + (c.toNat - '0'.toNat)) % 2 ^ 32) rest
    else some (duration, c :: rest)

/-- The tone, the pause and the end of the tone. -/
def tone (period duration : Nat) : List Action :=
  (if period ≠ 0 then [.pwmPinSetUsec period (period / 2)] else []) ++
    [.sleep duration, .pwmPinSetUsec 0 0]

/-- The note with the `#` that may follow it, and the rest of the string; `none` in the result is
the `break`. -/
def playNote (duration : Nat) : List Char → Option (Option (List Action × List Char))
  | [] => none
  | [note] => if note = nul then some none else none
  | note :: next :: rest =>
    if note = nul then some none
    else if next = '#' then some (some (tone (getPeriod note true) duration, rest))
    else some (some (tone (getPeriod note false) duration, next :: rest))

/-- The test of the loop and its body; `none` in the result ends it. -/
def playElement : List Char → Option (Option (List Action × List Char))
  | [] => none
  | c :: rest =>
    if c = nul then some none
    else
      (skipText (c :: rest)).bind fun str =>
        (readDuration 0 str).bind fun scanned => playNote scanned.1 scanned.2

/-! ## Each scan moves the cursor on -/

theorem skipText_length {str str' : List Char} (h : skipText str = some str') :
    str'.length ≤ str.length := by
  induction str with
  | nil => exact nomatch h
  | cons c rest ih =>
    rw [skipText] at h
    split at h
    · exact Nat.le_succ_of_le (ih h)
    · exact Option.some.inj h ▸ Nat.le_refl _

theorem readDuration_length {str str' : List Char} {duration duration' : Nat}
    (h : readDuration duration str = some (duration', str')) : str'.length ≤ str.length := by
  induction str generalizing duration with
  | nil => exact nomatch h
  | cons c rest ih =>
    rw [readDuration] at h
    split at h
    · exact Nat.le_succ_of_le (ih h)
    · exact (Prod.mk.inj (Option.some.inj h)).2 ▸ Nat.le_refl _

theorem playNote_length {str str' : List Char} {duration : Nat} {actions : List Action}
    (h : playNote duration str = some (some (actions, str'))) : str'.length < str.length := by
  match str with
  | [] => exact nomatch h
  | [note] =>
    rw [playNote] at h
    split at h
    · exact nomatch h
    · exact nomatch h
  | note :: next :: rest =>
    rw [playNote] at h
    split at h
    · exact nomatch h
    · split at h
      · rw [← (Prod.mk.inj (Option.some.inj (Option.some.inj h))).2]
        exact Nat.lt_succ_of_lt (Nat.lt_succ_self _)
      · rw [← (Prod.mk.inj (Option.some.inj (Option.some.inj h))).2]
        exact Nat.lt_succ_self _

theorem playElement_length {str str' : List Char} {actions : List Action}
    (h : playElement str = some (some (actions, str'))) : str'.length < str.length := by
  match str with
  | [] => exact nomatch h
  | c :: rest =>
    rw [playElement] at h
    split at h
    · exact nomatch h
    · obtain ⟨text, htext, h⟩ := Option.bind_eq_some_iff.mp h
      obtain ⟨⟨duration, note⟩, hduration, h⟩ := Option.bind_eq_some_iff.mp h
      have hskip := skipText_length htext
      have hread := readDuration_length hduration
      have hnote : str'.length < note.length := playNote_length h
      omega

/-- What is done up to the end of the string. -/
def boardPlayTune (str : List Char) : Option (List Action) :=
  match _h : playElement str with
  | none => none
  | some none => some []
  | some (some (actions, str')) => (boardPlayTune str').map (actions ++ ·)
termination_by str.length
decreasing_by exact playElement_length _h

theorem boardPlayTune_none {str : List Char} (h : playElement str = some none) :
    boardPlayTune str = some [] := by
  rw [boardPlayTune]
  split
  · next hnone => exact nomatch h.symm.trans hnone
  · rfl
  · next hsome => exact nomatch h.symm.trans hsome

theorem boardPlayTune_some {str str' : List Char} {actions : List Action}
    (h : playElement str = some (some (actions, str'))) :
    boardPlayTune str = (boardPlayTune str').map (actions ++ ·) := by
  rw [boardPlayTune]
  split
  · next hnone => exact nomatch h.symm.trans hnone
  · next hnone => exact nomatch h.symm.trans hnone
  · next hsome =>
    have heq := Prod.mk.inj (Option.some.inj (Option.some.inj (h.symm.trans hsome)))
    rw [heq.1, heq.2]

/-! ## The terminator is not passed -/

/-- The string ends with its first NUL. -/
def Terminated : List Char → Prop
  | [] => False
  | c :: rest => if c = nul then rest = [] else Terminated rest

theorem Terminated.tail {c : Char} {rest : List Char} (h : Terminated (c :: rest)) (hc : c ≠ nul) :
    Terminated rest := by
  rwa [Terminated, if_neg hc] at h

theorem ne_nul_of_isDigit {c : Char} (h : c.isDigit = true) : c ≠ nul := by
  rintro rfl
  exact absurd h (by decide)

theorem skipText_terminated {str : List Char} (h : Terminated str) :
    ∃ str', skipText str = some str' ∧ Terminated str' := by
  induction str with
  | nil => exact h.elim
  | cons c rest ih =>
    rw [skipText]
    split
    · next hc => exact ih (h.tail hc.1)
    · exact ⟨_, rfl, h⟩

theorem readDuration_terminated {str : List Char} (h : Terminated str) (duration : Nat) :
    ∃ duration' str', readDuration duration str = some (duration', str') ∧ Terminated str' := by
  induction str generalizing duration with
  | nil => exact h.elim
  | cons c rest ih =>
    rw [readDuration]
    split
    · next hc => exact ih (h.tail (ne_nul_of_isDigit hc)) _
    · exact ⟨_, _, rfl, h⟩

theorem playNote_terminated {str : List Char} (h : Terminated str) (duration : Nat) :
    playNote duration str = some none ∨
      ∃ actions str', playNote duration str = some (some (actions, str')) ∧ Terminated str' := by
  match str with
  | [] => exact h.elim
  | [note] =>
    by_cases hnote : note = nul
    · exact Or.inl (by rw [playNote, if_pos hnote])
    · exact (h.tail hnote).elim
  | note :: next :: rest =>
    by_cases hnote : note = nul
    · exact Or.inl (by rw [playNote, if_pos hnote])
    · rw [playNote, if_neg hnote]
      split
      · next hnext =>
        have hne : next ≠ nul := by
          rw [hnext]
          decide
        exact Or.inr ⟨_, _, rfl, (h.tail hnote).tail hne⟩
      · exact Or.inr ⟨_, _, rfl, h.tail hnote⟩

theorem playElement_terminated {str : List Char} (h : Terminated str) :
    playElement str = some none ∨
      ∃ actions str', playElement str = some (some (actions, str')) ∧ Terminated str' := by
  match str with
  | [] => exact h.elim
  | c :: rest =>
    rw [playElement]
    split
    · exact Or.inl rfl
    · obtain ⟨text, htext, hterm⟩ := skipText_terminated h
      obtain ⟨duration, note, hduration, hterm⟩ := readDuration_terminated hterm 0
      rw [htext, Option.bind_some, hduration, Option.bind_some]
      exact playNote_terminated hterm duration

theorem boardPlayTune_isSome {str : List Char} (h : Terminated str) :
    (boardPlayTune str).isSome := by
  induction hlen : str.length using Nat.strongRecOn generalizing str with
  | ind len ih =>
    rcases playElement_terminated h with hend | ⟨actions, str', hplay, hterm⟩
    · rw [boardPlayTune_none hend]
      rfl
    · have hlt := playElement_length hplay
      rw [boardPlayTune_some hplay, Option.isSome_map]
      exact ih str'.length (hlen ▸ hlt) hterm rfl

theorem terminated_concat {text : List Char} (h : nul ∉ text) : Terminated (text ++ [nul]) := by
  induction text with
  | nil =>
    show if nul = nul then _ else _
    rw [if_pos rfl]
  | cons c text ih =>
    have hc : c ≠ nul := fun heq => h (heq ▸ List.mem_cons_self)
    show if c = nul then _ else _
    rw [if_neg hc]
    exact ih fun hmem => h (List.mem_cons_of_mem _ hmem)

/-! ## A tune as it is written -/

structure Element where
  duration : Nat
  note : Char
  sharp : Bool
  duration_lt : duration < 2 ^ 32
  note_ne_nul : note ≠ nul
  note_not_digit : note.isDigit = false
  note_ne_sharp : note ≠ '#'

/-- Text between two elements. -/
structure Gap where
  text : List Char
  ne_nul : ∀ c ∈ text, c ≠ nul
  not_digit : ∀ c ∈ text, c.isDigit = false
  head_ne_sharp : text.head? ≠ some '#'

def Element.write (e : Element) : List Char :=
  Nat.toDigits 10 e.duration ++ e.note :: (if e.sharp then ['#'] else [])

/-- The elements of a tune, each with the text behind it. -/
def writeTune (tune : List (Element × Gap)) : List Char :=
  tune.flatMap fun eg => eg.1.write ++ eg.2.text

def Element.actions (e : Element) : List Action := tone (getPeriod e.note e.sharp) e.duration

/-! ## The elements are played as they are written -/

theorem skipText_gap {text : List Char} (hnul : ∀ c ∈ text, c ≠ nul)
    (hdigit : ∀ c ∈ text, c.isDigit = false) (rest : List Char) :
    skipText (text ++ rest) = skipText rest := by
  induction text with
  | nil => rfl
  | cons c text ih =>
    have hc : c ≠ nul ∧ ¬ c.isDigit := by
      rw [hdigit c List.mem_cons_self]
      exact ⟨hnul c List.mem_cons_self, Bool.false_ne_true⟩
    rw [List.cons_append, skipText, if_pos hc]
    exact ih (fun c hc => hnul c (List.mem_cons_of_mem _ hc))
      fun c hc => hdigit c (List.mem_cons_of_mem _ hc)

theorem skipText_stop {c : Char} (h : c = nul ∨ c.isDigit = true) (rest : List Char) :
    skipText (c :: rest) = some (c :: rest) := by
  have hstop : ¬ (c ≠ nul ∧ ¬ c.isDigit) := fun hc => h.elim hc.1 hc.2
  rw [skipText, if_neg hstop]

/-- What the digits come to in 32 bits. -/
theorem readDuration_digits {digits : List Char} (h : ∀ c ∈ digits, c.isDigit = true) {c : Char}
    (hc : c.isDigit = false) (n : Nat) (rest : List Char) :
    readDuration (n % 2 ^ 32) (digits ++ c :: rest) =
      some (Nat.ofDigitChars 10 digits n % 2 ^ 32, c :: rest) := by
  induction digits generalizing n with
  | nil =>
    have hstop : ¬ c.isDigit := by rw [hc]; exact Bool.false_ne_true
    rw [List.nil_append, readDuration, if_neg hstop, Nat.ofDigitChars_nil]
  | cons d digits ih =>
    have hword : (n % 2 ^ 32 * 10 % 2 ^ 32 + (d.toNat - '0'.toNat)) % 2 ^ 32 =
        (10 * n + (d.toNat - '0'.toNat)) % 2 ^ 32 := by
      omega
    rw [List.cons_append, readDuration, if_pos (h d List.mem_cons_self), hword,
      Nat.ofDigitChars_cons]
    exact ih (fun c hc => h c (List.mem_cons_of_mem _ hc)) _

theorem readDuration_toDigits {duration : Nat} (hlt : duration < 2 ^ 32) {c : Char}
    (hc : c.isDigit = false) (rest : List Char) :
    readDuration 0 (Nat.toDigits 10 duration ++ c :: rest) = some (duration, c :: rest) := by
  have hdigits : ∀ c ∈ Nat.toDigits 10 duration, c.isDigit = true := fun c hc =>
    Nat.isDigit_of_mem_toDigits (by decide) (by decide) hc
  have hread := readDuration_digits hdigits hc 0 rest
  rwa [Nat.zero_mod, Nat.ofDigitChars_ten_toDigits, Nat.mod_eq_of_lt hlt] at hread

/-- The look-ahead stops before what follows an element, unless that is a `#`. -/
theorem playNote_element (e : Element) {rest : List Char} (hne : rest ≠ [])
    (hsharp : rest.head? ≠ some '#') :
    playNote e.duration (e.note :: (if e.sharp then ['#'] else []) ++ rest) =
      some (some (e.actions, rest)) := by
  cases hs : e.sharp with
  | true =>
    show playNote e.duration (e.note :: '#' :: rest) = _
    rw [playNote, if_neg e.note_ne_nul, if_pos rfl, Element.actions, hs]
  | false =>
    obtain ⟨next, rest', rfl⟩ := List.exists_cons_of_ne_nil hne
    have hnext : next ≠ '#' := fun heq => hsharp (congrArg some heq)
    show playNote e.duration (e.note :: next :: rest') = _
    rw [playNote, if_neg e.note_ne_nul, if_neg hnext, Element.actions, hs]

theorem exists_toDigits (n : Nat) : ∃ d ds, Nat.toDigits 10 n = d :: ds ∧ d.isDigit = true := by
  obtain ⟨d, ds, hdigits⟩ := List.exists_cons_of_ne_nil (Nat.toDigits_ne_nil (n := n) (b := 10))
  have hmem : d ∈ Nat.toDigits 10 n := hdigits ▸ List.mem_cons_self
  exact ⟨d, ds, hdigits, Nat.isDigit_of_mem_toDigits (by decide) (by decide) hmem⟩

theorem playElement_of_ne_nul {str : List Char} {c : Char} (h : str.head? = some c)
    (hc : c ≠ nul) :
    playElement str = (skipText str).bind fun str =>
      (readDuration 0 str).bind fun scanned => playNote scanned.1 scanned.2 := by
  obtain ⟨rest, rfl⟩ := List.head?_eq_some_iff.mp h
  rw [playElement, if_neg hc]

/-- An element is found behind any text without digits, and the cursor stops right behind it. -/
theorem playElement_write (e : Element) {text rest : List Char} (hnul : ∀ c ∈ text, c ≠ nul)
    (hdigit : ∀ c ∈ text, c.isDigit = false) (hne : rest ≠ []) (hsharp : rest.head? ≠ some '#') :
    playElement (text ++ (e.write ++ rest)) = some (some (e.actions, rest)) := by
  obtain ⟨d, ds, hdigits, hd⟩ := exists_toDigits e.duration
  have hwrite : e.write ++ rest =
      Nat.toDigits 10 e.duration ++ (e.note :: (if e.sharp then ['#'] else []) ++ rest) := by
    rw [Element.write, List.append_assoc]
  have hskip : skipText (text ++ (e.write ++ rest)) = some (e.write ++ rest) := by
    rw [skipText_gap hnul hdigit, hwrite, hdigits]
    exact skipText_stop (Or.inr hd) _
  have hread : readDuration 0 (e.write ++ rest) =
      some (e.duration, e.note :: (if e.sharp then ['#'] else []) ++ rest) := by
    rw [hwrite]
    exact readDuration_toDigits e.duration_lt e.note_not_digit _
  have hhead : ∃ c, (text ++ (e.write ++ rest)).head? = some c ∧ c ≠ nul := by
    cases text with
    | nil =>
      refine ⟨d, ?_, ne_nul_of_isDigit hd⟩
      rw [List.nil_append, hwrite, hdigits]
      rfl
    | cons c text => exact ⟨c, rfl, hnul c List.mem_cons_self⟩
  obtain ⟨c, hc, hcnul⟩ := hhead
  rw [playElement_of_ne_nul hc hcnul, hskip, Option.bind_some, hread, Option.bind_some]
  exact playNote_element e hne hsharp

/-- Text without digits at the end of the string is passed over. -/
theorem playElement_end {text : List Char} (hnul : ∀ c ∈ text, c ≠ nul)
    (hdigit : ∀ c ∈ text, c.isDigit = false) : playElement (text ++ [nul]) = some none := by
  cases text with
  | nil =>
    rw [List.nil_append, playElement, if_pos rfl]
  | cons c text =>
    have hskip : skipText (c :: text ++ [nul]) = some [nul] := by
      rw [skipText_gap hnul hdigit]
      exact skipText_stop (Or.inl rfl) []
    rw [playElement_of_ne_nul rfl (hnul c List.mem_cons_self), hskip, Option.bind_some]
    rfl

/-- What follows an element does not begin with a `#`. -/
theorem head_ne_sharp (gap : Gap) (tune : List (Element × Gap)) :
    (gap.text ++ (writeTune tune ++ [nul])).head? ≠ some '#' := by
  cases htext : gap.text with
  | cons c text =>
    have hhead := gap.head_ne_sharp
    rwa [htext] at hhead
  | nil =>
    cases tune with
    | nil => decide
    | cons eg tune =>
      obtain ⟨d, ds, hdigits, hd⟩ := exists_toDigits eg.1.duration
      simp only [writeTune, List.flatMap_cons, Element.write, hdigits, List.nil_append,
        List.cons_append, List.head?_cons]
      rintro heq
      rw [Option.some.inj heq] at hd
      exact absurd hd (by decide)

theorem boardPlayTune_write (tune : List (Element × Gap)) (text : List Char)
    (hnul : ∀ c ∈ text, c ≠ nul) (hdigit : ∀ c ∈ text, c.isDigit = false) :
    boardPlayTune (text ++ (writeTune tune ++ [nul])) =
      some (tune.flatMap fun eg => eg.1.actions) := by
  induction tune generalizing text with
  | nil => exact boardPlayTune_none (playElement_end hnul hdigit)
  | cons eg tune ih =>
    obtain ⟨e, gap⟩ := eg
    have hrest : text ++ (writeTune ((e, gap) :: tune) ++ [nul]) =
        text ++ (e.write ++ (gap.text ++ (writeTune tune ++ [nul]))) := by
      simp only [writeTune, List.flatMap_cons, List.append_assoc]
    have hne : gap.text ++ (writeTune tune ++ [nul]) ≠ [] := by simp
    rw [hrest, boardPlayTune_some (playElement_write e hnul hdigit hne (head_ne_sharp gap tune)),
      ih gap.text gap.ne_nul gap.not_digit, Option.map_some, List.flatMap_cons]

/-- A string in memory, up to its terminator. -/
structure CString where
  text : List Char
  ne_nul : nul ∉ text

/-- Any string is played to its end without passing it, and a tune is played as it was written. -/
theorem boardPlayTune_plays :
    (∀ str : CString, (boardPlayTune (str.text ++ [nul])).isSome) ∧
      ∀ tune : List (Element × Gap), boardPlayTune (writeTune tune ++ [nul]) =
        some (tune.flatMap fun eg => eg.1.actions) :=
  ⟨fun str => boardPlayTune_isSome (terminated_concat str.ne_nul), fun tune =>
    boardPlayTune_write tune [] (fun _ h => nomatch h) fun _ h => nomatch h⟩

/-- A tune of two notes, the second one a sharp, with a blank between them. -/
def twoNotes : List (Element × Gap) :=
  [(⟨200, 'C', false, by decide, by decide, by decide, by decide⟩,
      ⟨[' '], List.forall_mem_singleton.mpr (by decide), List.forall_mem_singleton.mpr (by decide),
        by decide⟩),
    (⟨100, 'A', true, by decide, by decide, by decide, by decide⟩,
      ⟨[], List.forall_mem_nil _, List.forall_mem_nil _, by decide⟩)]

/-- The string that it is written as. -/
def twoNotesString : CString where
  text := ['2', '0', '0', 'C', ' ', '1', '0', '0', 'A', '#']
  ne_nul := by decide

example : writeTune twoNotes = twoNotesString.text := by decide

end MeshDemo
end ZephyrSamples
