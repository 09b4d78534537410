import Mathlib.Data.List.DropRight

/-!
# The text on the mesh badge

`print_line`, `get_len` and `board_show_text`.  A text is a list of characters that ends with its
NUL, and a pointer into it is what is left of that list, so that a read behind the NUL has no value.
-/

namespace ZephyrSamples
namespace MeshBadge

inductive FontSize where
  | small
  | medium
  | big
  deriving DecidableEq, Repr

/-- `fonts` -/
def FontSize.columns : FontSize → Nat
  | .small => 25
  | .medium => 16
  | .big => 12

def space : UInt8 := 0x20

def newline : UInt8 := 0x0a

def isSeparator (c : UInt8) : Bool := c = space || c = newline

/-- A line on the screen, `pad` columns from its left. -/
structure Printed where
  font : FontSize
  row : Nat
  pad : Nat
  chars : List UInt8
  deriving DecidableEq, Repr

/-- The line and the number of characters that are printed. -/
def printLine (font : FontSize) (row : Nat) (text : List UInt8) (len : Nat) (center : Bool) :
    Option (Printed × Nat) :=
  let len := min len font.columns
  let pad := if center then (font.columns - len) / 2 else 0
  if text.length < len then none else some (⟨font, row, pad, text.take len⟩, len)

/-- The loop of `get_len`, at index `i` with `left` more to come. -/
def scanLine (columns : Nat) : List UInt8 → Nat → Nat → Option Nat → Option Nat
  | _, 0, _, lastSpace => some (lastSpace.getD columns)
  | [], _ + 1, _, _ => none
  | c :: text, left + 1, i, lastSpace =>
    if c = newline ∨ c = 0 then some i
    else scanLine columns text left (i + 1) (if c = space then some i else lastSpace)

def getLen (font : FontSize) (text : List UInt8) : Option Nat :=
  scanLine font.columns text (font.columns + 1) 0 none

/-- The loop of `board_show_text`, with `rows` more lines to print. -/
def showLines (center : Bool) : Nat → Nat → List UInt8 → Option (List Printed)
  | 0, _, _ => some []
  | rows + 1, i, text =>
    let text := text.dropWhile isSeparator
    if text = [] then none
    else
      (getLen .big text).bind fun len =>
        if len = 0 then some []
        else
          (printLine .big i text len center).bind fun (line, printed) =>
            match text.drop printed with
            | [] => none
            | c :: text =>
              if c = 0 then some [line]
              else (showLines center rows (i + 1) (c :: text)).map (line :: ·)

/-- `K_FOREVER` -/
def forever : Int := -1

/-- The lines, and the delay with which `epd_work` is submitted. -/
def boardShowText (text : List UInt8) (center : Bool) (duration : Int) :
    Option (List Printed × Option Int) :=
  (showLines center 3 0 text).map fun lines =>
    (lines, if duration ≠ forever then some duration else none)

/-- A text that can end with a NUL. -/
structure Text where
  chars : List UInt8
  chars_ne : ∀ c ∈ chars, c ≠ 0

/-- A line and the separators that are left out in front of it. -/
structure Piece where
  seps : List UInt8
  line : List UInt8

def Piece.chars (p : Piece) : List UInt8 := p.seps ++ p.line

def visible (c : UInt8) : Bool := !isSeparator c

/-- Position `n` of the text is between two characters of one word. -/
def InsideWord (text : List UInt8) (n : Nat) : Prop :=
  (∃ c, (text.take n).getLast? = some c ∧ visible c) ∧ ∃ c, text[n]? = some c ∧ visible c

/-- The length of the word around position `n`. -/
def wordLength (text : List UInt8) (n : Nat) : Nat :=
  ((text.take n).rtakeWhile visible).length + ((text.drop n).takeWhile visible).length

/-- The positions where the lines end, behind `n` characters. -/
def breaks : Nat → List Piece → List Nat
  | _, [] => []
  | n, p :: pieces => (n + p.chars.length) :: breaks (n + p.chars.length) pieces

/-- The pieces are lines of the text that follows `before`, with `rows` lines at most, and `rest` is
cut off. -/
structure Wraps (columns : Nat) (before text : List UInt8) (rows : Nat) (pieces : List Piece)
    (rest : List UInt8) : Prop where
  joined : text = pieces.flatMap Piece.chars ++ rest
  seps : ∀ p ∈ pieces, ∀ c ∈ p.seps, isSeparator c
  rows_le : pieces.length ≤ rows
  columns_le : ∀ p ∈ pieces, p.line.length ≤ columns
  newlines : ∀ p ∈ pieces, newline ∉ p.line
  words : ∀ n ∈ breaks before.length pieces, InsideWord (before ++ text) n →
    columns < wordLength (before ++ text) n
  cut : (∀ c ∈ rest, isSeparator c) ∨ pieces.length = rows

/-- A line may end at `n`: at a separator or the end of the text, or inside a word that fills it. -/
structure EndsLine (columns : Nat) (text : List UInt8) (n : Nat) : Prop where
  le_columns : n ≤ columns
  le_length : n ≤ text.length
  no_newline : newline ∉ text.take n
  word : ∀ c, text[n]? = some c → visible c → n = columns ∧ ∀ c ∈ text.take (n + 1), visible c

variable {columns n i left rows : Nat} {text done todo : List UInt8} {lastSpace : Option Nat}

/-- `lastSpace` is a space of what has been read, if it has one. -/
def SpaceSeen (done : List UInt8) (lastSpace : Option Nat) : Prop :=
  (lastSpace = none → space ∉ done) ∧ ∀ k, lastSpace = some k → done[k]? = some space

theorem SpaceSeen.step (h : SpaceSeen done lastSpace) (c : UInt8) :
    SpaceSeen (done ++ [c]) (if c = space then some done.length else lastSpace) := by
  by_cases hc : c = space
  · rw [if_pos hc]
    refine ⟨fun hnone => absurd hnone (Option.some_ne_none _), fun k hk => ?_⟩
    obtain rfl := Option.some.inj hk
    rw [List.getElem?_concat_length, hc]
  · rw [if_neg hc]
    refine ⟨fun hnone hmem => ?_, fun k hk => ?_⟩
    · rcases List.mem_append.mp hmem with hmem | hmem
      · exact h.1 hnone hmem
      · exact hc (List.mem_singleton.mp hmem).symm
    · have hget := h.2 k hk
      rw [List.getElem?_append_left (List.getElem?_eq_some_iff.mp hget).1]
      exact hget

theorem visible_iff {c : UInt8} : visible c ↔ c ≠ space ∧ c ≠ newline := by
  simp [visible, isSeparator]

/-- A line that is full ends at its last space, or inside the word that fills it. -/
theorem endsLine_full (hlen : done.length = columns + 1) (hline : newline ∉ done)
    (hspace : SpaceSeen done lastSpace) :
    EndsLine columns (done ++ todo) (lastSpace.getD columns) := by
  have htake : ∀ n ≤ columns + 1, (done ++ todo).take n = done.take n := fun n hn =>
    List.take_append_of_le_length (by omega)
  have hlength : (done ++ todo).length = done.length + todo.length := List.length_append
  cases lastSpace with
  | none =>
    show EndsLine columns (done ++ todo) columns
    constructor
    case le_columns => exact Nat.le_refl columns
    case le_length => omega
    case no_newline =>
      rw [htake columns (by omega)]
      exact fun hmem => hline (List.mem_of_mem_take hmem)
    case word =>
      refine fun _ _ _ => ⟨rfl, fun c hc => visible_iff.mpr ⟨?_, ?_⟩⟩
      · rintro rfl
        rw [htake _ (Nat.le_refl _)] at hc
        exact hspace.1 rfl (List.mem_of_mem_take hc)
      · rintro rfl
        rw [htake _ (Nat.le_refl _)] at hc
        exact hline (List.mem_of_mem_take hc)
  | some k =>
    have hk := hspace.2 k rfl
    have hkin := (List.getElem?_eq_some_iff.mp hk).1
    show EndsLine columns (done ++ todo) k
    constructor
    case le_columns => omega
    case le_length => omega
    case no_newline =>
      rw [htake k (by omega)]
      exact fun hmem => hline (List.mem_of_mem_take hmem)
    case word =>
      intro c hc hvis
      rw [List.getElem?_append_left hkin, hk] at hc
      exact absurd (Option.some.inj hc).symm (visible_iff.mp hvis).1

/-- The invariant of the loop: `done` has been read, and it has neither a newline nor the NUL. -/
theorem scanLine_endsLine (htodo : ∀ c ∈ todo, c ≠ 0) (hleft : left + done.length = columns + 1)
    (hline : newline ∉ done) (hspace : SpaceSeen done lastSpace) :
    ∃ n, scanLine columns (todo ++ [0]) left done.length lastSpace = some n ∧
      EndsLine columns (done ++ todo) n := by
  induction left generalizing done todo lastSpace with
  | zero =>
    have hlen : done.length = columns + 1 := by omega
    exact ⟨_, by rw [scanLine], endsLine_full hlen hline hspace⟩
  | succ left ih =>
    cases todo with
    | nil =>
      refine ⟨done.length, if_pos (Or.inr rfl), ?_⟩
      rw [List.append_nil]
      constructor
      case le_columns => omega
      case le_length => exact Nat.le_refl _
      case no_newline => rw [List.take_length]; exact hline
      case word => exact fun c hc => absurd hc (by simp)
    | cons c todo =>
      have hc : c ≠ 0 := htodo c List.mem_cons_self
      rw [List.cons_append, scanLine]
      by_cases hnewline : c = newline
      · refine ⟨done.length, if_pos (Or.inl hnewline), ?_⟩
        constructor
        case le_columns => omega
        case le_length => rw [List.length_append]; omega
        case no_newline => rw [List.take_left]; exact hline
        case word =>
          intro c' hc' hvis
          rw [List.getElem?_append_right (Nat.le_refl _), Nat.sub_self] at hc'
          obtain rfl := Option.some.inj hc'
          exact absurd hnewline (visible_iff.mp hvis).2
      · have hline' : newline ∉ done ++ [c] := by
          rw [List.mem_append, List.mem_singleton]
          rintro (hmem | heq)
          · exact hline hmem
          · exact hnewline heq.symm
        have hlen : (done ++ [c]).length = done.length + 1 := List.length_append
        obtain ⟨n, hn, hends⟩ := ih
          (fun c' hc' => htodo c' (List.mem_cons_of_mem c hc')) (by omega) hline' (hspace.step c)
        rw [hlen] at hn
        rw [List.append_assoc] at hends
        exact ⟨n, (if_neg (not_or.mpr ⟨hnewline, hc⟩)).trans hn, hends⟩

theorem getLen_endsLine (font : FontSize) (htext : ∀ c ∈ text, c ≠ 0) :
    ∃ n, getLen font (text ++ [0]) = some n ∧ EndsLine font.columns text n :=
  scanLine_endsLine htext rfl List.not_mem_nil
    ⟨fun _ => List.not_mem_nil, fun _ h => absurd h.symm (Option.some_ne_none _)⟩

theorem length_le_rtakeWhile (before : List UInt8) {line : List UInt8}
    (hline : ∀ c ∈ line, visible c) :
    line.length ≤ ((before ++ line).rtakeWhile visible).length := by
  have hrev : ∀ c ∈ line.reverse, visible c := fun c hc => hline c (List.mem_reverse.mp hc)
  rw [List.rtakeWhile, List.length_reverse, List.reverse_append,
    List.takeWhile_append_of_pos hrev, List.length_append, List.length_reverse]
  exact Nat.le_add_right _ _

/-- A line that ends inside a word is part of a longer word. -/
theorem EndsLine.lt_wordLength {before : List UInt8} (h : EndsLine columns text n)
    (hinside : InsideWord (before ++ text) (before.length + n)) :
    columns < wordLength (before ++ text) (before.length + n) := by
  obtain ⟨_, c, hc, hvis⟩ := hinside
  rw [List.getElem?_append_right (Nat.le_add_right _ _), Nat.add_sub_cancel_left] at hc
  obtain ⟨rfl, hall⟩ := h.word c hc hvis
  obtain ⟨hn, hget⟩ := List.getElem?_eq_some_iff.mp hc
  have hfirst : ∀ c ∈ text.take n, visible c := fun c hc =>
    hall c (List.take_subset_take_left text (Nat.le_succ n) hc)
  have hleft := length_le_rtakeWhile before hfirst
  have hright : 0 < ((text.drop n).takeWhile visible).length := by
    rw [List.drop_eq_getElem_cons hn, hget, List.takeWhile_cons, if_pos hvis]
    exact Nat.succ_pos _
  rw [List.length_take, Nat.min_eq_left hn.le] at hleft
  rw [wordLength, List.take_length_add_append, List.drop_length_add_append]
  omega

/-- No line of the text, all of which is cut off. -/
theorem Wraps.nil {before : List UInt8} (hcut : (∀ c ∈ text, isSeparator c) ∨ 0 = rows) :
    Wraps columns before text rows [] text := by
  constructor
  case joined => rfl
  case seps => exact fun p hp => absurd hp List.not_mem_nil
  case rows_le => exact Nat.zero_le rows
  case columns_le => exact fun p hp => absurd hp List.not_mem_nil
  case newlines => exact fun p hp => absurd hp List.not_mem_nil
  case words => exact fun n hn => absurd hn List.not_mem_nil
  case cut => exact hcut

/-- A line in front of the lines of what follows it. -/
theorem Wraps.cons {before seps rest : List UInt8} {pieces : List Piece}
    (hseps : ∀ c ∈ seps, isSeparator c) (hends : EndsLine columns text n)
    (h : Wraps columns (before ++ (seps ++ text.take n)) (text.drop n) rows pieces rest) :
    Wraps columns before (seps ++ text) (rows + 1) (⟨seps, text.take n⟩ :: pieces) rest := by
  have hline : (text.take n).length = n := by
    rw [List.length_take, Nat.min_eq_left hends.le_length]
  have hsplit : before ++ (seps ++ text.take n) ++ text.drop n = before ++ (seps ++ text) := by
    rw [List.append_assoc, List.append_assoc, List.take_append_drop]
  constructor
  case joined =>
    rw [List.flatMap_cons, List.append_assoc, ← h.joined]
    show _ = seps ++ text.take n ++ text.drop n
    rw [List.append_assoc, List.take_append_drop]
  case seps => exact List.forall_mem_cons.mpr ⟨hseps, h.seps⟩
  case rows_le => exact Nat.succ_le_succ h.rows_le
  case columns_le => exact List.forall_mem_cons.mpr ⟨hline.le.trans hends.le_columns, h.columns_le⟩
  case newlines => exact List.forall_mem_cons.mpr ⟨hends.no_newline, h.newlines⟩
  case words =>
    have hbreak : before.length + (seps ++ text.take n).length = (before ++ seps).length + n := by
      rw [List.length_append, List.length_append, hline, Nat.add_assoc]
    rw [← List.append_assoc]
    refine List.forall_mem_cons.mpr ⟨?_, ?_⟩
    · show InsideWord _ (before.length + (seps ++ text.take n).length) →
        columns < wordLength _ (before.length + (seps ++ text.take n).length)
      rw [hbreak]
      exact hends.lt_wordLength
    · have hwords := h.words
      rw [hsplit, List.length_append, ← List.append_assoc] at hwords
      exact hwords
  case cut => exact h.cut.imp_right (congrArg (· + 1))

/-- A piece as it is printed in row `i`. -/
def Piece.printed (center : Bool) (i : Nat) (p : Piece) : Printed :=
  ⟨.big, i, if center then (FontSize.big.columns - p.line.length) / 2 else 0, p.line⟩

theorem printLine_eq (center : Bool) (i : Nat) (seps mem : List UInt8)
    (hcolumns : n ≤ FontSize.big.columns) (hlength : n ≤ text.length) :
    printLine .big i (text ++ mem) n center =
      some (Piece.printed center i ⟨seps, text.take n⟩, n) := by
  have hlen : (text.take n).length = n := by rw [List.length_take, Nat.min_eq_left hlength]
  have hread : ¬ (text ++ mem).length < n := by
    rw [List.length_append]
    omega
  rw [printLine, Nat.min_eq_left hcolumns]
  show (if (text ++ mem).length < n then none else some _) = some _
  rw [if_neg hread, List.take_append_of_le_length hlength, Piece.printed, hlen]

/-- The separators in front of a line, and what begins with the line. -/
theorem dropWhile_nul (text : List UInt8) :
    (text ++ [0]).dropWhile isSeparator = text.dropWhile isSeparator ++ [0] := by
  rw [List.dropWhile_append]
  cases h : text.dropWhile isSeparator with
  | nil => rfl
  | cons c rest => rfl

/-- What is printed, from the first line on, which has `n` characters. -/
theorem showLines_succ (center : Bool) (rows i : Nat) {start : List UInt8}
    (hstart : text.dropWhile isSeparator = start) (hget : getLen .big (start ++ [0]) = some n)
    (hends : EndsLine FontSize.big.columns start n) (hstart0 : ∀ c ∈ start, c ≠ 0) (hn : n ≠ 0) :
    showLines center (rows + 1) i (text ++ [0]) =
      if start.drop n = [] then some [Piece.printed center i ⟨[], start.take n⟩]
      else (showLines center rows (i + 1) (start.drop n ++ [0])).map
        (Piece.printed center i ⟨[], start.take n⟩ :: ·) := by
  have hne : start ++ [0] ≠ [] := List.append_ne_nil_of_right_ne_nil _ (List.cons_ne_nil _ _)
  rw [showLines, dropWhile_nul, hstart, if_neg hne, hget, Option.bind_some, if_neg hn,
    printLine_eq center i [] [0] hends.le_columns hends.le_length, Option.bind_some]
  show (match (start ++ [0]).drop n with
    | [] => none
    | c :: text => if c = 0 then _ else _) = _
  rw [List.drop_append_of_le_length hends.le_length]
  cases hdrop : start.drop n with
  | nil => rfl
  | cons c rest =>
    have hc : c ≠ 0 := hstart0 c (List.mem_of_mem_drop (hdrop ▸ List.mem_cons_self))
    rw [if_neg (List.cons_ne_nil c rest)]
    exact if_neg hc

/-- Behind the separators a line is empty only where the text ends. -/
theorem EndsLine.eq_nil (h : EndsLine FontSize.big.columns (text.dropWhile isSeparator) 0) :
    text.dropWhile isSeparator = [] := by
  have hhead := List.head?_dropWhile_not isSeparator text
  generalize text.dropWhile isSeparator = start at h hhead
  cases start with
  | nil => rfl
  | cons c rest =>
    have hsep : isSeparator c = false := hhead
    have hvis : visible c := by rw [visible, hsep]; rfl
    exact absurd (h.word c rfl hvis).1 (by decide)

theorem showLines_wraps (center : Bool) (rows i : Nat) (before : List UInt8) {text : List UInt8}
    (htext : ∀ c ∈ text, c ≠ 0) :
    ∃ pieces rest, showLines center rows i (text ++ [0]) =
        some (pieces.mapIdx fun k p => p.printed center (i + k)) ∧
      Wraps FontSize.big.columns before text rows pieces rest := by
  induction rows generalizing i before text with
  | zero => exact ⟨[], text, rfl, Wraps.nil (Or.inr rfl)⟩
  | succ rows ih =>
    have hsplit := List.takeWhile_append_dropWhile (p := isSeparator) (l := text)
    have hseps : ∀ c ∈ text.takeWhile isSeparator, isSeparator c := fun c hc =>
      List.mem_takeWhile_imp hc
    generalize hstart : text.dropWhile isSeparator = start at hsplit
    have hstart0 : ∀ c ∈ start, c ≠ 0 := fun c hc =>
      htext c (hsplit ▸ List.mem_append_right _ hc)
    obtain ⟨n, hget, hends⟩ := getLen_endsLine .big hstart0
    by_cases hn : n = 0
    · -- the line is empty: only separators were left
      have hnil : start = [] := by
        subst hn hstart
        exact hends.eq_nil
      refine ⟨[], text, ?_, Wraps.nil (Or.inl ?_)⟩
      · rw [showLines, dropWhile_nul, hstart, hnil]
        rfl
      · rw [← hsplit, hnil, List.append_nil]
        exact hseps
    · rw [showLines_succ center rows i hstart hget hends hstart0 hn]
      by_cases hdrop : start.drop n = []
      · refine ⟨[⟨text.takeWhile isSeparator, start.take n⟩], [], if_pos hdrop, ?_⟩
        have hrest : Wraps FontSize.big.columns
            (before ++ (text.takeWhile isSeparator ++ start.take n)) (start.drop n) rows []
            (start.drop n) :=
          Wraps.nil (Or.inl (hdrop ▸ fun c hc => absurd hc List.not_mem_nil))
        have hwraps := Wraps.cons hseps hends hrest
        rw [hsplit, hdrop] at hwraps
        exact hwraps
      · obtain ⟨pieces, rest, hlines, hrest⟩ := ih (i + 1)
          (before ++ (text.takeWhile isSeparator ++ start.take n))
          fun c hc => hstart0 c (List.mem_of_mem_drop hc)
        have hwraps := Wraps.cons hseps hends hrest
        rw [hsplit] at hwraps
        refine ⟨⟨text.takeWhile isSeparator, start.take n⟩ :: pieces, rest, ?_, hwraps⟩
        rw [if_neg hdrop, hlines, List.mapIdx_cons]
        have hindex : ∀ k, i + 1 + k = i + (k + 1) := fun k => by omega
        simp only [hindex]
        rfl

/-- The lines of a text on the screen are the text without the separators in front of them, and they
break a word only if it does not fit in a line. -/
theorem boardShowText_wraps (text : Text) (center : Bool) (duration : Int) :
    ∃ pieces rest, boardShowText (text.chars ++ [0]) center duration =
        some (pieces.mapIdx fun i p => p.printed center i,
          if duration ≠ forever then some duration else none) ∧
      Wraps FontSize.big.columns [] text.chars 3 pieces rest := by
  obtain ⟨pieces, rest, hlines, hwraps⟩ := showLines_wraps center 3 0 [] text.chars_ne
  simp only [Nat.zero_add] at hlines
  refine ⟨pieces, rest, ?_, hwraps⟩
  rw [boardShowText, hlines]
  rfl

/-- `"Zephyr mesh badge"` -/
def zephyrMeshBadge : Text where
  chars := [90, 101, 112, 104, 121, 114, 32, 109, 101, 115, 104, 32, 98, 97, 100, 103, 101]
  chars_ne := by decide +kernel

/-- It is printed on two lines, and stays. -/
example : boardShowText (zephyrMeshBadge.chars ++ [0]) true forever =
    some ([⟨.big, 0, 0, zephyrMeshBadge.chars.take 11⟩,
      ⟨.big, 1, 3, zephyrMeshBadge.chars.drop 12⟩], none) := by
  decide

end MeshBadge
end ZephyrSamples
