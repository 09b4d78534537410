import ZephyrSamples.ShellModule.NameSet
import ZephyrSamples.ShellModule.Qsort
import Mathlib.Data.Finset.Sort

/-!
# The table of the dynamic commands, sorted by the sample's own `qsort`

`string_cmp` compares two rows by `strcmp`, which is the order of the names.  With the `qsort` of
the sample the shell is given the names of the dynamic commands in that order.
-/

namespace ZephyrSamples
namespace ShellModule

open PaddedRows Runs

/-- `strcmp`, which `string_cmp` returns. -/
def strcmp : Name → Name → Int
  | [], [] => 0
  | [], d :: _ => -d.val
  | c :: _, [] => c.val
  | c :: cs, d :: ds => if c = d then strcmp cs ds else c.val - d.val

theorem strcmp_sign (x y : Name) : (strcmp x y < 0 ↔ x < y) ∧ (0 < strcmp x y ↔ y < x) := by
  induction x generalizing y with
  | nil =>
    cases y with
    | nil => simp [strcmp]
    | cons d ds =>
      have hd := d.2.1
      have hlt : ([] : Name) < d :: ds := List.nil_lt_cons d ds
      refine ⟨iff_of_true ?_ hlt, iff_of_false ?_ (lt_asymm hlt)⟩ <;> rw [strcmp] <;> omega
  | cons c cs ih =>
    cases y with
    | nil =>
      have hc := c.2.1
      have hlt : ([] : Name) < c :: cs := List.nil_lt_cons c cs
      refine ⟨iff_of_false ?_ (lt_asymm hlt), iff_of_true ?_ hlt⟩ <;> rw [strcmp] <;> omega
    | cons d ds =>
      rw [strcmp, List.cons_lt_cons_iff, List.cons_lt_cons_iff]
      rcases eq_or_ne c d with rfl | hne
      · rw [if_pos rfl]
        simpa using ih ds
      · have hval : c.val ≠ d.val := fun h => hne (Subtype.ext h)
        rw [if_neg hne]
        refine ⟨⟨fun h => Or.inl ?_, fun h => ?_⟩, ⟨fun h => Or.inl ?_, fun h => ?_⟩⟩
        · show c.val < d.val
          omega
        · have hlt : c.val < d.val := h.resolve_right fun h => hne h.1
          omega
        · show d.val < c.val
          omega
        · have hlt : d.val < c.val := h.resolve_right fun h => hne h.1.symm
          omega

theorem strcmp_le_iff (x y : Name) : strcmp x y ≤ 0 ↔ x ≤ y := by
  rw [← not_lt, (strcmp_sign x y).2, not_lt]

theorem isComparator_strcmp : IsComparator strcmp where
  lt_iff x y := (strcmp_sign x y).1.trans (strcmp_sign y x).2.symm
  trans x y z hxy hyz :=
    (strcmp_le_iff x z).mpr (((strcmp_le_iff x y).mp hxy).trans ((strcmp_le_iff y z).mp hyz))

/-- `qsort(dynamic_cmd_buffer, dynamic_cmd_cnt, .., string_cmp)` -/
def sortRows (rows : List Name) : List Name :=
  (qsort strcmp ⟨rows.toArray, rfl⟩ 0 rows.length (by simp)).toList

theorem sortRows_perm (rows : List Name) : (sortRows rows).Perm rows :=
  (rearranges_qsort strcmp ⟨rows.toArray, rfl⟩ (by simp)).perm.toList

theorem sortRows_sorted (rows : List Name) : (sortRows rows).Pairwise (· ≤ ·) := by
  have hsorted := sortedBy_qsort (a := 0) (n := rows.length) isComparator_strcmp
    ⟨rows.toArray, rfl⟩ (by simp)
  refine List.pairwise_iff_getElem.mpr fun i j hi hj hij => ?_
  have hlen : (sortRows rows).length = rows.length := (sortRows_perm rows).length_eq
  have hle := hsorted i j (by rw [List.size_toArray]; omega) (by rw [List.size_toArray]; omega)
    (Nat.zero_le i) hij (by omega)
  exact (strcmp_le_iff _ _).mp hle

/-- The platform whose `qsort` is that of the sample. -/
def qsortPlatform (beyond : Name) : Platform where
  beyond := beyond
  qsort := sortRows
  qsort_perm := sortRows_perm
  qsort_sorted := sortRows_sorted

/-- A line that `cmd_dynamic_show` prints: a text, or a row as `"[%3d] %s"`. -/
inductive Line
  | warn (text : String)
  | print (text : String)
  | row (i : Nat) (name : Name)
  deriving DecidableEq

/-- What `cmd_dynamic_show` prints: a warning, or a heading and the rows that it reads. -/
def showPrints (t : Table) : List Line :=
  if t.cnt = 0 then [.warn "Please add some commands first."]
  else
    .print "Dynamic command list:" ::
      (cmdDynamicShow t).rows.filterMap fun i => (t.buffer[i]?).map (Line.row i)

/-- The listing of a set of names: each once, in the order of `strcmp`. -/
def listing (set : Finset Name) : List Line :=
  if set = ∅ then [.warn "Please add some commands first."]
  else .print "Dynamic command list:" :: (set.sort (· ≤ ·)).mapIdx Line.row

/-- What the shell gets from `dynamic_cmd_get`, from the first index on. -/
def shown (t : Table) : List Name := (List.range 20).filterMap (dynamicCmdGet t)

theorem implements_init : Implements {} where
  represents := NameList.represents ⟨by decide, List.Pairwise.nil, fun _ hname => nomatch hname⟩
  rows _ hi := nomatch hi
  results _ hr := nomatch hr

theorem filterMap_range_getElem? {β : Type*} (xs : List β) (n : Nat) :
    (List.range n).filterMap (xs[·]?) = xs.take n := by
  induction n with
  | zero => rfl
  | succ n ih =>
    rw [List.range_succ, List.filterMap_append, ih, List.take_add_one]
    cases h : xs[n]? with
    | none => simp [h]
    | some x => simp [h]

theorem shown_ofNames {names : List Name} (h : names.length ≤ 20) :
    shown (ofNames names) = names := by
  have hget : dynamicCmdGet (ofNames names) = (names[·]?) := by
    funext idx
    rw [dynamicCmdGet, ofNames_cnt, ofNames_buffer, padded]
    split
    · rw [List.getElem?_append_left (by assumption)]
    · exact (List.getElem?_eq_none (by omega)).symm
  rw [shown, hget, filterMap_range_getElem?, List.take_of_length_le h]

theorem showPrints_ofNames {names : List Name} (hne : names ≠ []) :
    showPrints (ofNames names) = .print "Dynamic command list:" :: names.mapIdx Line.row := by
  have hcnt : (ofNames names).cnt ≠ 0 := by
    rw [ofNames_cnt]
    exact fun hzero => hne (List.length_eq_zero_iff.mp hzero)
  have hrows : (cmdDynamicShow (ofNames names)).rows = List.range names.length := by
    rw [cmdDynamicShow, if_neg hcnt, ofNames_cnt]
  have hprinted : (List.range names.length).filterMap
      (fun i => ((ofNames names).buffer[i]?).map (Line.row i)) =
        (List.range names.length).filterMap ((names.mapIdx Line.row)[·]?) := by
    refine List.filterMap_congr fun i hi => ?_
    rw [ofNames_buffer, padded, List.getElem?_append_left (List.mem_range.mp hi),
      List.getElem?_mapIdx]
  rw [showPrints, if_neg hcnt, hrows, hprinted, filterMap_range_getElem?,
    List.take_of_length_le (Nat.le_of_eq List.length_mapIdx)]

/-- After a run of commands none of which reaches behind the table, `show` prints the names that
were added and not removed since, each once and in the order of `strcmp`, and the shell is given the
same. -/
theorem shown_sorted (beyond : Name) (cmds : List Cmd)
    (h : Along (Traced.step (qsortPlatform beyond)) (fun s cmd => ¬ Overruns s.table cmd) {} cmds) :
    showPrints (run (Traced.step (qsortPlatform beyond)) {} cmds).table =
        listing (run (Traced.step (qsortPlatform beyond)) {} cmds).set ∧
      shown (run (Traced.step (qsortPlatform beyond)) {} cmds).table =
        (run (Traced.step (qsortPlatform beyond)) {} cmds).set.sort (· ≤ ·) := by
  have himpl : Implements (run (Traced.step (qsortPlatform beyond)) {} cmds) :=
    Along.invariant _ (I := Implements)
      (fun s cmd hs hcmd => (implements_step_iff hs cmd).mpr hcmd) implements_init h
  obtain ⟨names, hnames, hset, htable⟩ := himpl.represents.exists_names
  have hsorted : names.Pairwise (· ≤ ·) := hnames.ascending.imp le_of_lt
  have hsort : names.toFinset.sort (· ≤ ·) = names :=
    (List.toFinset_sort _ hnames.nodup).mpr hsorted
  rw [htable, ← hset, shown_ofNames hnames.length, listing, hsort]
  refine ⟨?_, rfl⟩
  by_cases hnil : names = []
  · rw [hnil]
    rfl
  · rw [if_neg fun hempty => hnil (List.toFinset_eq_empty_iff _ |>.mp hempty)]
    exact showPrints_ofNames hnil

/-- The names b, a and c are added, a is removed, and the rest is listed. -/
def addThree : List Cmd :=
  [.add [⟨98, by decide⟩], .add [⟨97, by decide⟩], .add [⟨99, by decide⟩],
    .remove [⟨97, by decide⟩], .list]

theorem shown_sorted_addThree :
    showPrints (run (Traced.step (qsortPlatform [])) {} addThree).table =
        listing (run (Traced.step (qsortPlatform [])) {} addThree).set ∧
      shown (run (Traced.step (qsortPlatform [])) {} addThree).table =
        (run (Traced.step (qsortPlatform [])) {} addThree).set.sort (· ≤ ·) :=
  shown_sorted [] addThree
    ⟨fun h => absurd h.1 (by decide), fun h => absurd h.1 (by decide),
      fun h => absurd h.1 (by decide), fun h => absurd h.1 (by decide +kernel), fun h => h, trivial⟩

end ShellModule
end ZephyrSamples
