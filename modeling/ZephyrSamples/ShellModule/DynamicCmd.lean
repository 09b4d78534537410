import ZephyrSamples.Lib.PaddedRows
import ZephyrSamples.Lib.Runs
import Mathlib.Data.Finset.Card
import Mathlib.Data.List.Lex
import Mathlib.Data.List.Sort
import Mathlib.Order.Lattice.Nat

/-!
# The dynamic commands of `shell_module`

`dynamic_cmd.c`: a table of 20 rows of 33 bytes, kept sorted, and its counter.  A row is the string
it holds, and `strcmp` is the order of strings as lists of characters.  Each command returns beside
its result and the table the rows that it reads or writes. -/

namespace ZephyrSamples
namespace ShellModule

/-- The characters of an ASCII string, without the terminating zero. -/
abbrev AsciiChar := { n : Nat // 0 < n ∧ n < 128 }

/-- A string up to its terminating zero. -/
abbrev Name := List AsciiChar

def isalnum (c : AsciiChar) : Bool :=
  (48 ≤ c.val && c.val ≤ 57) || (65 ≤ c.val && c.val ≤ 90) || (97 ≤ c.val && c.val ≤ 122)

/-- `dynamic_cmd_buffer` and `dynamic_cmd_cnt`. -/
structure Table where
  buffer : List Name := List.replicate 20 []
  cnt : Nat := 0
  deriving DecidableEq

/-- What a command returns, the table after it, and the rows that it reads or writes. -/
structure Outcome where
  ok : Bool
  table : Table
  rows : List Nat

/-- The string in the memory behind the table, and a `qsort` that sorts by `string_cmp`. -/
structure Platform where
  beyond : Name
  qsort : List Name → List Name
  qsort_perm : ∀ rows, (qsort rows).Perm rows
  qsort_sorted : ∀ rows, (qsort rows).Pairwise (· ≤ ·)

/-- `sprintf(buffer[cnt], "%s", name)`: a string of 33 characters or more goes on in the rows
behind. -/
def sprintf (buffer : List Name) (cnt : Nat) (name : Name) : List Name :=
  buffer.mapIdx fun j row =>
    if cnt ≤ j ∧ 33 * (j - cnt) ≤ name.length then name.drop (33 * (j - cnt)) else row

/-- The first of `n` rows that `strcmp` finds equal to a name. -/
def findRow (buffer : List Name) (n : Nat) (name : Name) : Option Nat :=
  (buffer.take n).findIdx? fun row => row == name

variable (platform : Platform) (t : Table)

def cmdDynamicAdd (name : Name) : Outcome :=
  if 20 ≤ t.cnt then ⟨false, t, []⟩
  else
    -- `u16_t cmd_len`
    let cmdLen := name.length % 65536
    if 33 ≤ cmdLen then ⟨false, t, []⟩
    else if !(name.take cmdLen).all isalnum then ⟨false, t, []⟩
    else
      match findRow t.buffer 20 name with
      | some idx => ⟨false, t, List.range (idx + 1)⟩
      | none =>
        let buffer := sprintf t.buffer t.cnt name
        let cnt := t.cnt + 1
        ⟨true, { buffer := platform.qsort (buffer.take cnt) ++ buffer.drop cnt, cnt := cnt },
          List.range 20 ++ (List.range (name.length / 33 + 1)).map (t.cnt + ·)⟩

def cmdDynamicExecute (name : Name) : Outcome :=
  match findRow t.buffer t.cnt name with
  | some idx => ⟨true, t, List.range (idx + 1)⟩
  | none => ⟨false, t, List.range t.cnt⟩

/-- `memmove` of `n` rows from row `idx + 1` to row `idx`. -/
def memmove (buffer : List Name) (idx n : Nat) : List Name :=
  buffer.take idx ++
    (((buffer ++ [platform.beyond]).drop (idx + 1)).take n ++ buffer.drop (idx + n))

def cmdDynamicRemove (name : Name) : Outcome :=
  match findRow t.buffer t.cnt name with
  | some idx =>
    if idx = 19 then
      ⟨true, { buffer := t.buffer.set idx [], cnt := t.cnt - 1 }, List.range (idx + 1)⟩
    else
      let n := t.cnt - idx
      ⟨true, { buffer := memmove platform t.buffer idx n, cnt := t.cnt - 1 },
        List.range (idx + 1) ++ ((List.range n).map (idx + 1 + ·) ++ (List.range n).map (idx + ·))⟩
  | none => ⟨false, t, List.range t.cnt⟩

def cmdDynamicShow : Outcome :=
  if t.cnt = 0 then ⟨false, t, []⟩ else ⟨true, t, List.range t.cnt⟩

/-- `entry->syntax` of `dynamic_cmd_get`. -/
def dynamicCmdGet (idx : Nat) : Option Name := if idx < t.cnt then t.buffer[idx]? else none

/-- The commands, and the calls of `dynamic_cmd_get` by the shell. -/
inductive Cmd
  | add (name : Name)
  | execute (name : Name)
  | remove (name : Name)
  | list
  | get (idx : Nat)

def Cmd.run : Cmd → Outcome
  | .add name => cmdDynamicAdd platform t name
  | .execute name => cmdDynamicExecute t name
  | .remove name => cmdDynamicRemove platform t name
  | .list => cmdDynamicShow t
  | .get idx => ⟨(dynamicCmdGet t idx).isSome, t, if idx < t.cnt then [idx] else []⟩

/-! ## A finite set of names -/

/-- A name of 1 to 32 alphanumerical characters. -/
def Valid (name : Name) : Prop := name ≠ [] ∧ name.length ≤ 32 ∧ name.all isalnum = true

instance (name : Name) : Decidable (Valid name) := inferInstanceAs (Decidable (_ ∧ _))

/-- What the commands are for: whether each succeeds, and the set after it. -/
def Cmd.spec (set : Finset Name) : Cmd → Bool × Finset Name
  | .add name =>
    if Valid name ∧ name ∉ set ∧ set.card < 20 then (true, insert name set) else (false, set)
  | .execute name => (decide (name ∈ set), set)
  | .remove name => if name ∈ set then (true, set.erase name) else (false, set)
  | .list => (decide (set.card ≠ 0), set)
  | .get idx => (decide (idx < set.card), set)

/-- The first rows are the names of the set, strictly ascending, and the others are empty. -/
structure Represents (t : Table) (set : Finset Name) : Prop where
  length : t.buffer.length = 20
  cnt : t.cnt ≤ 20
  names : (t.buffer.take t.cnt).toFinset = set
  ascending : (t.buffer.take t.cnt).Pairwise (· < ·)
  valid : ∀ name ∈ t.buffer.take t.cnt, Valid name
  rest : ∀ name ∈ t.buffer.drop t.cnt, name = []

/-- One result: what the code returned, what the set says, and whether the table changed. -/
structure Result where
  ok : Bool
  expected : Bool
  changed : Bool

/-- The table with the set that the commands so far make, the rows they touched
and their results. -/
structure Traced where
  table : Table := {}
  set : Finset Name := ∅
  rows : List Nat := []
  results : List Result := []

def Traced.step (s : Traced) (cmd : Cmd) : Traced :=
  let out := cmd.run platform s.table
  { table := out.table
    set := (cmd.spec s.set).2
    rows := s.rows ++ out.rows
    results := s.results ++
      [{ ok := out.ok, expected := (cmd.spec s.set).1, changed := out.table ≠ s.table }] }

/-- The table implements the set: it represents it, only its rows were touched, every result was
what the set says, and no failing command changed it. -/
structure Implements (s : Traced) : Prop where
  represents : Represents s.table s.set
  rows : ∀ i ∈ s.rows, i < 20
  results : ∀ r ∈ s.results, r.ok = r.expected ∧ (r.ok = false → r.changed = false)

end ShellModule
end ZephyrSamples
