import Mathlib.Data.BitVec
import Mathlib.Data.List.Basic

/-!
# Numbers with units

`print_number` and `parse_number` of the zperf sample's `shell_utils.c`, with their tables.  The
remainder of a printed number is scaled by 100 in 32 bits before it is divided, so the decimals are
right exactly as long as that does not wrap.  A number is read with no check at all: a text that is
none is read as 0, and the product with the unit wraps.
-/

namespace ZephyrSamples
namespace Zperf

/-- A divisor and its unit. -/
abbrev Row := BitVec 32 × List Char

/-- A table of divisors and units: the divisors are strictly decreasing, and the last is 0. -/
structure Table where
  rows : List Row
  decreasing : rows.Pairwise fun a b => b.1 < a.1
  last : ∃ unit, rows.getLast? = some (0, unit)

/-- `TIME_US` and `TIME_US_UNIT` -/
def Table.timeUs : Table where
  rows := [(60000000, ['m']), (1000000, ['s']), (1000, ['m', 's']), (0, ['u', 's'])]
  decreasing := by decide
  last := ⟨['u', 's'], rfl⟩

/-- `KBPS` and `KBPS_UNIT` -/
def Table.kbps : Table where
  rows := [(1024, ['M', 'b', 'p', 's']), (0, ['K', 'b', 'p', 's'])]
  decreasing := by decide
  last := ⟨['K', 'b', 'p', 's'], rfl⟩

/-- `K` and `K_UNIT` -/
def Table.k : Table where
  rows := [(1048576, ['M']), (1024, ['K']), (0, [])]
  decreasing := by decide
  last := ⟨[], rfl⟩

/-- The loop of `print_number`: the first row whose divisor is not above the value.  The result is
`none` if it runs past the end of the table. -/
def findRow (value : BitVec 32) : List Row → Option Row
  | [] => none
  | (div, unit) :: rest => if value < div then findRow value rest else some (div, unit)

/-- `%u` -/
def formatU (n : BitVec 32) : List Char := Nat.toDigits 10 n.toNat

/-- The text that `print_number` prints. -/
def printNumber (value : BitVec 32) (rows : List Row) : Option (List Char) :=
  match findRow value rows with
  | none => none
  | some (div, unit) =>
    if div ≠ 0 then
      let radix := value / div
      let dec := value % div * 100 / div
      some (formatU radix ++ '.' :: (if dec < 10 then ['0'] else []) ++ formatU dec ++ ' ' :: unit)
    else some (formatU value ++ ' ' :: unit)

/-- `isspace` -/
def isSpace (c : Char) : Bool := c = ' ' || (9 ≤ c.toNat && c.toNat ≤ 13)

/-- The value of a text of digits. -/
def digitsValue (digits : List Char) : Nat := digits.foldl (fun n c => 10 * n + (c.toNat - 48)) 0

/-- A sign and what follows it. -/
def takeSign : List Char → Bool × List Char
  | '-' :: rest => (true, rest)
  | '+' :: rest => (false, rest)
  | string => (false, string)

/-- `strtoul` in base 10, where an `unsigned long` has 32 bits: the value and where the text goes
on, which is its very start if there is no digit. -/
def strtoul (string : List Char) : BitVec 32 × List Char :=
  let (negative, rest) := takeSign (string.dropWhile isSpace)
  let digits := rest.takeWhile Char.isDigit
  if digits = [] then (0, string)
  else
    let value := digitsValue digits
    let suffix := rest.dropWhile Char.isDigit
    if 2 ^ 32 ≤ value then (BitVec.allOnes 32, suffix)
    else (if negative then -BitVec.ofNat 32 value else BitVec.ofNat 32 value, suffix)

/-- `strncasecmp(s, t, 1) == 0` -/
def sameFirst (s t : List Char) : Bool := s.head?.map Char.toLower == t.head?.map Char.toLower

/-- The loop of `parse_number`: the divisor at which it stops.  The unit of the row of divisor 0 is
not looked at.  The result is `none` if the loop runs past the end of the table. -/
def findUnit (suffix : List Char) : List Row → Option (BitVec 32)
  | [] => none
  | (div, unit) :: rest =>
    if sameFirst suffix unit then some div
    else
      match rest.head? with
      | none => none
      | some (next, _) => if next = 0 then some 0 else findUnit suffix rest

/-- `parse_number` -/
def parseNumber (string : List Char) (rows : List Row) : Option (BitVec 32) :=
  let (dec, suffix) := strtoul string
  (findUnit suffix rows).map fun div => if div = 0 then dec else dec * div

/-! ## What is read -/

/-- The search stops at the latest at a row of divisor 0 after the first row. -/
theorem findUnit_isSome {suffix : List Char} {row : Row} {rest : List Row}
    (h : ∃ r ∈ rest, r.1 = 0) : ∃ div, findUnit suffix (row :: rest) = some div := by
  induction rest generalizing row with
  | nil =>
    obtain ⟨r, hr, _⟩ := h
    exact absurd hr List.not_mem_nil
  | cons head rest ih =>
    obtain ⟨div, unit⟩ := row
    rw [findUnit, List.head?_cons]
    by_cases hfirst : sameFirst suffix unit
    · rw [if_pos hfirst]
      exact ⟨div, rfl⟩
    · rw [if_neg hfirst]
      dsimp only
      by_cases hzero : head.1 = 0
      · rw [if_pos hzero]
        exact ⟨0, rfl⟩
      · rw [if_neg hzero]
        obtain ⟨r, hr, hdiv⟩ := h
        rcases List.mem_cons.mp hr with rfl | hr
        · exact absurd hdiv hzero
        · exact ih ⟨r, hr, hdiv⟩

/-- Whatever the text, `parse_number` stops within the table of `K`. -/
theorem parseNumber_k (string : List Char) : ∃ n, parseNumber string Table.k.rows = some n := by
  obtain ⟨div, hdiv⟩ : ∃ div, findUnit (strtoul string).2 Table.k.rows = some div :=
    findUnit_isSome ⟨(0, []), by decide, rfl⟩
  exact ⟨_, congrArg (Option.map _) hdiv⟩

example : parseNumber " 1k".toList Table.k.rows = some 1024 := by decide +kernel

/-! ## What is to be printed -/

/-- Two digits. -/
def decimals (n : Nat) : List Char := [Nat.digitChar (n / 10), Nat.digitChar (n % 10)]

/-- The value in the unit of a row, with two decimals unless the divisor is 0. -/
def scaled (value : Nat) (row : Row) : List Char :=
  let d := row.1.toNat
  if d ≠ 0 then
    Nat.toDigits 10 (value / d) ++ '.' :: decimals (100 * (value % d) / d) ++ ' ' :: row.2
  else Nat.toDigits 10 value ++ ' ' :: row.2

/-- The row of the largest divisor that is at most the value. -/
structure Largest (table : Table) (value : BitVec 32) (row : Row) : Prop where
  mem : row ∈ table.rows
  le : row.1 ≤ value
  largest : ∀ r ∈ table.rows, r.1 ≤ value → r.1 ≤ row.1

/-- A text is printed, and it is the value in the unit of that row. -/
def Displays (table : Table) (value : BitVec 32) (text : Option (List Char)) : Prop :=
  ∃ row, Largest table value row ∧ text = some (scaled value.toNat row)

/-! ## The row -/

theorem findRow_some {value : BitVec 32} {rows : List Row} {row : Row}
    (hdecreasing : rows.Pairwise fun a b => b.1 < a.1) (h : findRow value rows = some row) :
    row ∈ rows ∧ row.1 ≤ value ∧ ∀ r ∈ rows, r.1 ≤ value → r.1 ≤ row.1 := by
  induction rows with
  | nil => cases h
  | cons head rest ih =>
    obtain ⟨hhead, hrest⟩ := List.pairwise_cons.mp hdecreasing
    obtain ⟨div, unit⟩ := head
    rw [findRow] at h
    split at h
    case isTrue hlt =>
      obtain ⟨hmem, hle, hlargest⟩ := ih hrest h
      refine ⟨List.mem_cons_of_mem _ hmem, hle, fun r hr hrle => ?_⟩
      rcases List.mem_cons.mp hr with rfl | hr
      · exact absurd hlt (BitVec.not_lt.mpr hrle)
      · exact hlargest r hr hrle
    case isFalse hle =>
      obtain rfl := Option.some.inj h
      refine ⟨List.mem_cons_self, BitVec.not_lt.mp hle, fun r hr _ => ?_⟩
      rcases List.mem_cons.mp hr with rfl | hr
      · exact BitVec.le_refl _
      · exact BitVec.le_of_lt (hhead r hr)

/-- The search ends at the latest at a divisor that is not above the value. -/
theorem findRow_isSome {value : BitVec 32} {rows : List Row} {row : Row} (hmem : row ∈ rows)
    (hle : row.1 ≤ value) : ∃ found, findRow value rows = some found := by
  induction rows with
  | nil => exact absurd hmem List.not_mem_nil
  | cons head rest ih =>
    rw [findRow]
    split
    case isTrue hlt =>
      rcases List.mem_cons.mp hmem with rfl | hmem
      · exact absurd hlt (BitVec.not_lt.mpr hle)
      · exact ih hmem
    case isFalse => exact ⟨_, rfl⟩

/-- A row is told from the others by its divisor. -/
theorem row_eq_of_div_eq {rows : List Row} {a b : Row}
    (hdecreasing : rows.Pairwise fun a b => b.1 < a.1) (ha : a ∈ rows) (hb : b ∈ rows)
    (h : a.1 = b.1) : a = b := by
  induction rows with
  | nil => exact absurd ha List.not_mem_nil
  | cons head rest ih =>
    obtain ⟨hhead, hrest⟩ := List.pairwise_cons.mp hdecreasing
    rcases List.mem_cons.mp ha with rfl | harest
    · rcases List.mem_cons.mp hb with rfl | hbrest
      · rfl
      · exact absurd (h ▸ hhead b hbrest) (BitVec.lt_irrefl _)
    · rcases List.mem_cons.mp hb with rfl | hbrest
      · exact absurd (h ▸ hhead a harest) (BitVec.lt_irrefl _)
      · exact ih hrest harest hbrest

variable {table : Table} {value : BitVec 32} {row row' : Row}

theorem Largest.unique (h : Largest table value row) (h' : Largest table value row') : row = row' :=
  row_eq_of_div_eq table.decreasing h.mem h'.mem
    (BitVec.le_antisymm (h'.largest row h.mem h.le) (h.largest row' h'.mem h'.le))

theorem exists_findRow (table : Table) (value : BitVec 32) :
    ∃ row, findRow value table.rows = some row ∧ Largest table value row := by
  obtain ⟨unit, hlast⟩ := table.last
  obtain ⟨row, hrow⟩ := findRow_isSome (List.mem_of_getLast? hlast)
    (BitVec.le_def.mpr (Nat.zero_le value.toNat))
  obtain ⟨hmem, hle, hlargest⟩ := findRow_some table.decreasing hrow
  exact ⟨row, hrow, hmem, hle, hlargest⟩

/-! ## The decimals -/

theorem pad_append_toDigits {n : Nat} (h : n < 100) :
    (if n < 10 then ['0'] else []) ++ Nat.toDigits 10 n = decimals n := by
  have hall : ∀ n < 100, (if n < 10 then ['0'] else []) ++ Nat.toDigits 10 n = decimals n := by
    decide +kernel
  exact hall n h

theorem decimals_inj {m n : Nat} (hm : m < 100) (hn : n < 100) (h : decimals m = decimals n) :
    m = n := by
  have hdigit : ∀ a < 10, ∀ b < 10, Nat.digitChar a = Nat.digitChar b → a = b := by
    decide +kernel
  obtain ⟨htens, hones⟩ := List.cons.inj h
  have hdiv := hdigit (m / 10) (by omega) (n / 10) (by omega) htens
  have hmod := hdigit (m % 10) (by omega) (n % 10) (by omega) (List.cons.inj hones).1
  omega

/-- A product that wraps loses more than the divisor. -/
theorem wrapped_div_eq_iff {x d : Nat} (hd : 0 < d) (hlt : d < 2 ^ 32) :
    x % 2 ^ 32 / d = x / d ↔ x < 2 ^ 32 := by
  constructor
  · intro h
    by_contra hwrap
    have hstep : (x % 2 ^ 32 + d) / d ≤ x / d := Nat.div_le_div_right (by omega)
    rw [Nat.add_div_right _ hd] at hstep
    omega
  · intro h
    rw [Nat.mod_eq_of_lt h]

theorem scaled_lt {n d : Nat} (hd : 0 < d) : 100 * (n % d) / d < 100 := by
  have hrem := Nat.mod_lt n hd
  rw [Nat.div_lt_iff_lt_mul hd]
  omega

theorem toNat_dec (value div : BitVec 32) : (value % div * 100 / div).toNat =
    100 * (value.toNat % div.toNat) % 2 ^ 32 / div.toNat := by
  rw [BitVec.toNat_udiv, BitVec.toNat_mul, BitVec.toNat_umod, Nat.mul_comm]
  rfl

theorem toNat_dec_lt {div : BitVec 32} (value : BitVec 32) (hd : 0 < div.toNat) :
    (value % div * 100 / div).toNat < 100 := by
  rw [toNat_dec]
  exact Nat.lt_of_le_of_lt (Nat.div_le_div_right (Nat.mod_le _ _)) (scaled_lt hd)

/-! ## The text -/

theorem Largest.displays_iff {text : Option (List Char)} (h : Largest table value row) :
    Displays table value text ↔ text = some (scaled value.toNat row) := by
  constructor
  · rintro ⟨row', hlargest', htext⟩
    rw [htext, h.unique hlargest']
  · intro htext
    exact ⟨row, h, htext⟩

theorem Largest.forall_iff {P : Row → Prop} (h : Largest table value row) :
    (∀ row, Largest table value row → P row) ↔ P row := by
  constructor
  · exact fun hall => hall row h
  · intro hrow row' h'
    exact h.unique h' ▸ hrow

theorem printNumber_of_row {rows : List Row} {div : BitVec 32} {unit : List Char}
    (hrow : findRow value rows = some (div, unit)) (hdiv : div ≠ 0) (hd : 0 < div.toNat) :
    printNumber value rows = some (Nat.toDigits 10 (value.toNat / div.toNat) ++
      '.' :: decimals (value % div * 100 / div).toNat ++ ' ' :: unit) := by
  have hradix : formatU (value / div) = Nat.toDigits 10 (value.toNat / div.toNat) := by
    rw [formatU, BitVec.toNat_udiv]
  have hdec : (if value % div * 100 / div < 10 then ['0'] else []) ++
      formatU (value % div * 100 / div) = decimals (value % div * 100 / div).toNat :=
    pad_append_toDigits (toNat_dec_lt value hd)
  unfold printNumber
  rw [hrow]
  dsimp only
  rw [if_pos hdiv, hradix, ← hdec]
  simp only [List.append_assoc, List.cons_append]

/-- A value is displayed right exactly if the remainder by its divisor can be scaled in 32 bits. -/
theorem printNumber_displays_iff (table : Table) (value : BitVec 32) :
    Displays table value (printNumber value table.rows) ↔
      ∀ row, Largest table value row → row.1 ≠ 0 →
        100 * (value.toNat % row.1.toNat) < 2 ^ 32 := by
  obtain ⟨row, hrow, hlargest⟩ := exists_findRow table value
  rw [hlargest.displays_iff, hlargest.forall_iff]
  obtain ⟨div, unit⟩ := row
  by_cases hdiv : div = 0
  · subst hdiv
    refine iff_of_true ?_ fun h => absurd rfl h
    rw [printNumber, hrow]
    rfl
  · have hpos : div.toNat ≠ 0 := fun h => hdiv (BitVec.eq_of_toNat_eq h)
    have hd := Nat.pos_of_ne_zero hpos
    rw [printNumber_of_row hrow hdiv hd, ← wrapped_div_eq_iff hd div.isLt, ← toNat_dec]
    unfold scaled
    rw [if_pos hpos]
    constructor
    · intro h _
      have hdecimals := List.append_cancel_left (List.append_cancel_right (Option.some.inj h))
      exact decimals_inj (toNat_dec_lt value hd) (scaled_lt hd) (List.cons.inj hdecimals).2
    · intro h
      rw [h hdiv]

/-- 102.949673 s are 1.71 minutes, and displayed as 1.00. -/
theorem printNumber_wrong :
    ¬ Displays .timeUs 102949673 (printNumber 102949673 Table.timeUs.rows) := by
  rintro ⟨row, hlargest, htext⟩
  have hminutes : Largest .timeUs 102949673 (60000000, ['m']) :=
    ⟨by decide, by decide, by decide⟩
  obtain rfl := hlargest.unique hminutes
  exact absurd htext (by decide +kernel)

end Zperf
end ZephyrSamples
