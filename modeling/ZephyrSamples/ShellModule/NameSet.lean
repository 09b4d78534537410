import ZephyrSamples.ShellModule.DynamicCmd

/-!
# When the dynamic commands implement a set of names

The table that represents a set is the ascending list of its names, padded with empty rows.  Every
command but two turns it into the table of the next set: the removal of a name from a full table
slides the row behind the table into the last row, unless the name is in the last row, and a name
whose length wraps around in `cmd_len` is written over the rows behind. -/

namespace ZephyrSamples
namespace ShellModule

open PaddedRows Runs

variable {platform : Platform} {names : List Name} {name : Name}

/-- An ascending list of valid names that fits the table. -/
structure NameList (names : List Name) : Prop where
  length : names.length ≤ 20
  ascending : names.Pairwise (· < ·)
  valid : ∀ name ∈ names, Valid name

/-- The table of a list of names. -/
def ofNames (names : List Name) : Table := ⟨padded 20 [] names, names.length⟩

@[simp] theorem ofNames_buffer : (ofNames names).buffer = padded 20 [] names := rfl

@[simp] theorem ofNames_cnt : (ofNames names).cnt = names.length := rfl

namespace NameList

theorem nodup (h : NameList names) : names.Nodup := h.ascending.imp fun hlt => ne_of_lt hlt

theorem card (h : NameList names) : names.toFinset.card = names.length :=
  List.toFinset_card_of_nodup h.nodup

theorem represents (h : NameList names) : Represents (ofNames names) names.toFinset where
  length := length_padded h.length
  cnt := h.length
  names := congrArg List.toFinset take_padded
  ascending := by
    rw [ofNames_buffer, ofNames_cnt, take_padded]
    exact h.ascending
  valid := by
    rw [ofNames_buffer, ofNames_cnt, take_padded]
    exact h.valid
  rest := by
    rw [ofNames_buffer, ofNames_cnt, drop_padded]
    intro name hname
    exact List.eq_of_mem_replicate hname

end NameList

/-- A table that represents a set is the table of the list of its names. -/
theorem Represents.exists_names {t : Table} {set : Finset Name} (h : Represents t set) :
    ∃ names, NameList names ∧ names.toFinset = set ∧ t = ofNames names := by
  have hlen : (t.buffer.take t.cnt).length = t.cnt := by
    rw [List.length_take, h.length]
    exact Nat.min_eq_left h.cnt
  refine ⟨t.buffer.take t.cnt, ⟨hlen.trans_le h.cnt, h.ascending, h.valid⟩, h.names, ?_⟩
  rw [ofNames, hlen, ← eq_padded h.length h.cnt h.rest]

/-- What a command is to do on a table that represents a set. -/
structure Correct (t : Table) (out : Outcome) (expected : Bool × Finset Name) : Prop where
  represents : Represents out.table expected.2
  rows : ∀ i ∈ out.rows, i < 20
  ok : out.ok = expected.1
  unchanged : out.ok = false → out.table = t

theorem correct_of_unchanged (h : NameList names) {ok : Bool} {rows : List Nat}
    (hrows : ∀ i ∈ rows, i < 20) :
    Correct (ofNames names) ⟨ok, ofNames names, rows⟩ (ok, names.toFinset) :=
  ⟨h.represents, hrows, rfl, fun _ => rfl⟩

theorem range_lt {n i : Nat} (hn : n ≤ 20) (hi : i ∈ List.range n) : i < 20 :=
  Nat.lt_of_lt_of_le (List.mem_range.mp hi) hn

theorem findRow_ofNames :
    findRow (ofNames names).buffer (ofNames names).cnt name =
      names.findIdx? fun row => row == name := by
  rw [findRow, ofNames_buffer, ofNames_cnt, take_padded]

theorem findRow_some {idx : Nat} (h : (names.findIdx? fun row => row == name) = some idx) :
    ∃ hlt : idx < names.length, names[idx] = name := by
  obtain ⟨hlt, heq, _⟩ := List.findIdx?_eq_some_iff_getElem.mp h
  exact ⟨hlt, beq_iff_eq.mp heq⟩

theorem findRow_none (h : (names.findIdx? fun row => row == name) = none) : name ∉ names := by
  intro hmem
  have hne := List.findIdx?_eq_none_iff.mp h name hmem
  rw [beq_self_eq_true] at hne
  cases hne

theorem execute_correct (h : NameList names) (name : Name) :
    Correct (ofNames names) (cmdDynamicExecute (ofNames names) name)
      ((Cmd.execute name).spec names.toFinset) := by
  rw [cmdDynamicExecute, findRow_ofNames]
  cases hfind : names.findIdx? fun row => row == name with
  | some idx =>
    obtain ⟨hlt, heq⟩ := findRow_some hfind
    have hmem : name ∈ names.toFinset := List.mem_toFinset.mpr (heq ▸ List.getElem_mem hlt)
    rw [Cmd.spec, decide_eq_true hmem]
    exact correct_of_unchanged h fun i hi => range_lt (Nat.le_trans hlt h.length) hi
  | none =>
    have hmem : name ∉ names.toFinset := fun hm => findRow_none hfind (List.mem_toFinset.mp hm)
    rw [Cmd.spec, decide_eq_false hmem]
    exact correct_of_unchanged h fun i hi => range_lt h.length hi

theorem show_correct (h : NameList names) :
    Correct (ofNames names) (cmdDynamicShow (ofNames names)) (Cmd.list.spec names.toFinset) := by
  rw [cmdDynamicShow, Cmd.spec, h.card, ofNames_cnt]
  by_cases hzero : names.length = 0
  · rw [if_pos hzero, decide_eq_false (not_not.mpr hzero)]
    exact correct_of_unchanged h fun i hi => by cases hi
  · rw [if_neg hzero, decide_eq_true hzero]
    exact correct_of_unchanged h fun i hi => range_lt h.length hi

theorem get_correct (h : NameList names) (idx : Nat) :
    Correct (ofNames names) ((Cmd.get idx).run platform (ofNames names))
      ((Cmd.get idx).spec names.toFinset) := by
  have hlen : (padded 20 [] names).length = 20 := length_padded h.length
  have hcnt := h.length
  rw [Cmd.run, Cmd.spec, h.card, dynamicCmdGet, ofNames_cnt, ofNames_buffer]
  by_cases hlt : idx < names.length
  · rw [if_pos hlt, if_pos hlt, decide_eq_true hlt, List.getElem?_eq_getElem (by omega)]
    refine correct_of_unchanged h fun i hi => ?_
    rw [List.mem_singleton.mp hi]
    omega
  · rw [if_neg hlt, if_neg hlt, decide_eq_false hlt]
    exact correct_of_unchanged h fun i hi => by cases hi

/-! ## Removing a name -/

theorem NameList.eraseIdx (h : NameList names) (idx : Nat) : NameList (names.eraseIdx idx) where
  length := Nat.le_trans (List.eraseIdx_sublist names idx).length_le h.length
  ascending := h.ascending.sublist (List.eraseIdx_sublist names idx)
  valid := fun name hname => h.valid name ((List.eraseIdx_sublist names idx).subset hname)

theorem NameList.toFinset_eraseIdx (h : NameList names) {idx : Nat} (hlt : idx < names.length) :
    (names.eraseIdx idx).toFinset = names.toFinset.erase names[idx] := by
  rw [← h.nodup.erase_getElem idx hlt]
  ext m
  rw [List.mem_toFinset, Finset.mem_erase, List.mem_toFinset, h.nodup.mem_erase_iff]

theorem remove_correct (h : NameList names) (name : Name)
    (hfull : ¬ (names.length = 20 ∧ name ∈ names.take 19)) :
    Correct (ofNames names) (cmdDynamicRemove platform (ofNames names) name)
      ((Cmd.remove name).spec names.toFinset) := by
  rw [cmdDynamicRemove, findRow_ofNames]
  cases hfind : names.findIdx? fun row => row == name with
  | none =>
    have hmem : name ∉ names.toFinset := fun hm => findRow_none hfind (List.mem_toFinset.mp hm)
    rw [Cmd.spec, if_neg hmem]
    exact correct_of_unchanged h fun i hi => range_lt h.length hi
  | some idx =>
    obtain ⟨hlt, heq⟩ := findRow_some hfind
    have hmem : name ∈ names.toFinset := List.mem_toFinset.mpr (heq ▸ List.getElem_mem hlt)
    have hlen := h.length
    have hcnt : (names.eraseIdx idx).length = names.length - 1 := List.length_eraseIdx_of_lt hlt
    have herase : Represents ⟨padded 20 [] (names.eraseIdx idx), names.length - 1⟩
        (names.toFinset.erase name) := by
      rw [← heq, ← h.toFinset_eraseIdx hlt, ← hcnt]
      exact (h.eraseIdx idx).represents
    rw [Cmd.spec, if_pos hmem]
    by_cases hlast : idx = 19
    · simp only [if_pos hlast, ofNames_buffer, ofNames_cnt]
      refine ⟨?_, fun i hi => range_lt (by omega) hi, rfl, fun hok => by cases hok⟩
      rw [set_last_padded (by omega) (by omega)]
      exact herase
    · have hroom : names.length < 20 := by
        by_contra hge
        refine hfull ⟨by omega, ?_⟩
        rw [← heq, List.mem_take_iff_getElem]
        exact ⟨idx, by omega, rfl⟩
      have hsum : idx + (names.length - idx) = names.length := by omega
      simp only [if_neg hlast, ofNames_buffer, ofNames_cnt]
      refine ⟨?_, ?_, rfl, fun hok => by cases hok⟩
      · rw [memmove, hsum, slide_padded hlt hroom]
        exact herase
      · intro i hi
        simp only [List.mem_append, List.mem_map, List.mem_range] at hi
        rcases hi with hi | ⟨j, hj, rfl⟩ | ⟨j, hj, rfl⟩
        · omega
        · omega
        · omega

/-! ## Adding a name -/

theorem sprintf_eq_set {buffer : List Name} {cnt : Nat} (hname : name.length < 33) :
    sprintf buffer cnt name = buffer.set cnt name := by
  refine List.ext_getElem? fun j => ?_
  rw [sprintf, List.getElem?_mapIdx, List.getElem?_set]
  by_cases hj : cnt = j
  · subst hj
    rw [if_pos rfl]
    by_cases hlt : cnt < buffer.length
    · rw [if_pos hlt, List.getElem?_eq_getElem hlt, Option.map_some, Nat.sub_self, Nat.mul_zero,
        if_pos ⟨Nat.le_refl _, Nat.zero_le _⟩, List.drop_zero]
    · rw [if_neg hlt, List.getElem?_eq_none (Nat.not_lt.mp hlt), Option.map_none]
  · have hno : ¬ (cnt ≤ j ∧ 33 * (j - cnt) ≤ name.length) := by omega
    simp only [if_neg hj, if_neg hno, Option.map_id_fun']
    rfl

theorem NameList.qsort_concat (h : NameList names) (platform : Platform)
    (hroom : names.length < 20) (hvalid : Valid name) (hnew : name ∉ names) :
    NameList (platform.qsort (names ++ [name])) ∧
      (platform.qsort (names ++ [name])).toFinset = insert name names.toFinset := by
  have hperm := platform.qsort_perm (names ++ [name])
  have hnodup : (platform.qsort (names ++ [name])).Nodup := by
    rw [hperm.nodup_iff, List.nodup_append]
    refine ⟨h.nodup, List.nodup_singleton name, ?_⟩
    intro a ha b hb hab
    rw [hab, List.mem_singleton.mp hb] at ha
    exact hnew ha
  refine ⟨⟨?_, ?_, ?_⟩, ?_⟩
  · rw [hperm.length_eq, List.length_append, List.length_singleton]
    omega
  · exact (platform.qsort_sorted _).imp₂ (fun a b hle hne => lt_of_le_of_ne hle hne) hnodup
  · intro a ha
    rcases List.mem_append.mp (hperm.mem_iff.mp ha) with ha | ha
    · exact h.valid a ha
    · rw [List.mem_singleton.mp ha]
      exact hvalid
  · ext a
    rw [List.mem_toFinset, hperm.mem_iff, List.mem_append, List.mem_singleton, Finset.mem_insert,
      List.mem_toFinset, or_comm]

theorem NameList.represents_store (h : NameList names) (platform : Platform)
    (hroom : names.length < 20) (hvalid : Valid name) (hnew : name ∉ names) :
    Represents
      { buffer :=
          platform.qsort ((sprintf (padded 20 [] names) names.length name).take
              (names.length + 1)) ++
            (sprintf (padded 20 [] names) names.length name).drop (names.length + 1)
        cnt := names.length + 1 }
      (insert name names.toFinset) := by
  obtain ⟨hsorted, hset⟩ := h.qsort_concat platform hroom hvalid hnew
  have hconcat : (names ++ [name]).length = names.length + 1 := by
    rw [List.length_append, List.length_singleton]
  have hcount : (platform.qsort (names ++ [name])).length = names.length + 1 := by
    rw [(platform.qsort_perm _).length_eq, hconcat]
  rw [sprintf_eq_set (Nat.lt_succ_of_le hvalid.2.1), set_padded hroom, ← hconcat, take_padded,
    drop_padded, hconcat, ← hcount, ← hset]
  exact hsorted.represents

/-- A name that a row holds is one of the set or is empty. -/
theorem not_addable_of_mem (hmem : name ∈ padded 20 [] names) :
    ¬ (Valid name ∧ name ∉ names.toFinset ∧ names.toFinset.card < 20) := by
  rintro ⟨⟨hne, _⟩, hnew, _⟩
  rcases mem_padded_iff.mp hmem with hmem | ⟨_, hempty⟩
  · exact hnew (List.mem_toFinset.mpr hmem)
  · exact hne hempty

/-- A name that no row holds is none of the set, and not empty, as there is an empty row. -/
theorem addable_of_notMem (h : NameList names) (hroom : names.length < 20)
    (hlen : name.length < 33) (hall : name.all isalnum = true) (hnew : name ∉ padded 20 [] names) :
    Valid name ∧ name ∉ names.toFinset ∧ names.toFinset.card < 20 := by
  have hcard := h.card
  have hnot : name ∉ names := fun hm => hnew (mem_padded_iff.mpr (Or.inl hm))
  have hne : name ≠ [] := fun he => hnew (mem_padded_iff.mpr (Or.inr ⟨hroom, he⟩))
  exact ⟨⟨hne, by omega, hall⟩, fun hm => hnot (List.mem_toFinset.mp hm), by omega⟩

theorem add_correct (h : NameList names) (name : Name)
    (hwrap : ¬ (65536 ≤ name.length ∧ names.length < 20 ∧ name.length % 65536 < 33 ∧
      (name.take (name.length % 65536)).all isalnum = true)) :
    Correct (ofNames names) (cmdDynamicAdd platform (ofNames names) name)
      ((Cmd.add name).spec names.toFinset) := by
  have hcard := h.card
  have hcnt : (ofNames names).cnt = names.length := rfl
  rw [cmdDynamicAdd]
  by_cases hfull : 20 ≤ (ofNames names).cnt
  · rw [if_pos hfull, Cmd.spec, if_neg (by omega)]
    exact correct_of_unchanged h fun i hi => by cases hi
  · rw [if_neg hfull]
    simp only [ofNames_buffer, ofNames_cnt]
    by_cases hlong : 33 ≤ name.length % 65536
    · have hvalid : ¬ Valid name := fun hv => absurd hv.2.1 (by omega)
      rw [if_pos hlong, Cmd.spec, if_neg fun hv => hvalid hv.1]
      exact correct_of_unchanged h fun i hi => by cases hi
    · rw [if_neg hlong]
      cases hall : (name.take (name.length % 65536)).all isalnum with
      | false =>
        have hvalid : ¬ Valid name := by
          rintro ⟨_, hlen, hgood⟩
          rw [List.take_of_length_le (by omega), hgood] at hall
          cases hall
        rw [Bool.not_false, if_pos rfl, Cmd.spec, if_neg fun hv => hvalid hv.1]
        exact correct_of_unchanged h fun i hi => by cases hi
      | true =>
        rw [Bool.not_true, if_neg Bool.false_ne_true]
        have hlen : name.length < 33 := by
          by_contra hge
          exact hwrap ⟨by omega, by omega, by omega, hall⟩
        rw [List.take_of_length_le (by omega)] at hall
        have hrows : (padded 20 [] names).take 20 = padded 20 [] names :=
          List.take_of_length_le (Nat.le_of_eq (length_padded h.length))
        cases hfind : findRow (padded 20 [] names) 20 name with
        | some idx =>
          rw [findRow, hrows] at hfind
          obtain ⟨hlt, heq⟩ := findRow_some hfind
          rw [length_padded h.length] at hlt
          have hmem : name ∈ padded 20 [] names := heq ▸ List.getElem_mem _
          rw [Cmd.spec, if_neg (not_addable_of_mem hmem)]
          exact correct_of_unchanged h fun i hi => range_lt (by omega) hi
        | none =>
          rw [findRow, hrows] at hfind
          have hnew : name ∉ padded 20 [] names := findRow_none hfind
          have hspec := addable_of_notMem h (by omega) hlen hall hnew
          have hnot : name ∉ names := fun hm => hspec.2.1 (List.mem_toFinset.mpr hm)
          rw [Cmd.spec, if_pos hspec]
          refine ⟨h.represents_store platform (by omega) hspec.1 hnot, ?_, rfl,
            fun hok => by cases hok⟩
          · intro i hi
            have hzero : name.length / 33 = 0 := Nat.div_eq_of_lt hlen
            rw [hzero] at hi
            simp only [List.mem_append, List.mem_map, List.mem_range] at hi
            rcases hi with hi | ⟨j, hj, rfl⟩
            · exact hi
            · omega

/-! ## Runs of commands -/

/-- The removal of a name from a full table that is not in its last row, or the addition of a name
whose length wraps around to one that passes the checks. -/
def Overruns (t : Table) : Cmd → Prop
  | .remove name => t.cnt = 20 ∧ name ∈ t.buffer.take 19
  | .add name => 65536 ≤ name.length ∧ t.cnt < 20 ∧ name.length % 65536 < 33 ∧
      (name.take (name.length % 65536)).all isalnum = true
  | .execute _ | .list | .get _ => False

theorem run_correct {t : Table} {set : Finset Name} (h : Represents t set) {cmd : Cmd}
    (hcmd : ¬ Overruns t cmd) : Correct t (cmd.run platform t) (cmd.spec set) := by
  obtain ⟨names, hnames, rfl, rfl⟩ := h.exists_names
  cases cmd with
  | add name => exact add_correct hnames name hcmd
  | execute name => exact execute_correct hnames name
  | list => exact show_correct hnames
  | get idx => exact get_correct hnames idx
  | remove name =>
    refine remove_correct hnames name fun hfull => hcmd ⟨hfull.1, ?_⟩
    rw [ofNames_buffer, padded, List.take_append_of_le_length (by omega)]
    exact hfull.2

theorem findRow_le {k : Nat} (hk : k < names.length) (hname : names[k] = name) :
    ∃ idx, idx ≤ k ∧ names.findIdx? (fun row => row == name) = some idx := by
  cases hfind : names.findIdx? fun row => row == name with
  | none => exact absurd (hname ▸ List.getElem_mem hk) (findRow_none hfind)
  | some idx =>
    obtain ⟨hlt, _, hfirst⟩ := List.findIdx?_eq_some_iff_getElem.mp hfind
    refine ⟨idx, ?_, rfl⟩
    by_contra hgt
    refine hfirst k (by omega) ?_
    rw [hname, beq_self_eq_true]

/-- The two commands reach a row behind the table. -/
theorem exists_row_of_overruns {t : Table} {set : Finset Name} (h : Represents t set) {cmd : Cmd}
    (hcmd : Overruns t cmd) : ∃ i ∈ (cmd.run platform t).rows, ¬ i < 20 := by
  obtain ⟨names, hnames, rfl, rfl⟩ := h.exists_names
  cases cmd with
  | execute name => cases hcmd
  | list => cases hcmd
  | get idx => cases hcmd
  | add name =>
    obtain ⟨hlong, hroom, hshort, hall⟩ := hcmd
    have hnone : findRow (ofNames names).buffer 20 name = none := by
      refine List.findIdx?_eq_none_iff.mpr fun row hrow => beq_eq_false_iff_ne.mpr ?_
      rintro rfl
      rcases mem_padded_iff.mp (List.mem_of_mem_take hrow) with hmem | ⟨_, hempty⟩
      · exact absurd (hnames.valid row hmem).2.1 (by omega)
      · rw [hempty] at hlong
        exact absurd hlong (by decide)
    refine ⟨names.length + name.length / 33, ?_, by omega⟩
    simp only [Cmd.run, cmdDynamicAdd, if_neg (Nat.not_le.mpr hroom),
      if_neg (Nat.not_le.mpr hshort), hall, Bool.not_true, Bool.false_eq_true, if_false, hnone]
    refine List.mem_append_right _ (List.mem_map.mpr ⟨name.length / 33, ?_, rfl⟩)
    exact List.mem_range.mpr (Nat.lt_succ_self _)
  | remove name =>
    obtain ⟨hfull, hmem⟩ := hcmd
    rw [ofNames_cnt] at hfull
    rw [ofNames_buffer, padded, List.take_append_of_le_length (by omega)] at hmem
    obtain ⟨k, hk, hkname⟩ := List.mem_take_iff_getElem.mp hmem
    obtain ⟨idx, hle, hidx⟩ := findRow_le (by omega) hkname
    have hlast : idx ≠ 19 := by omega
    refine ⟨20, ?_, by decide⟩
    rw [Cmd.run, cmdDynamicRemove, findRow_ofNames, hidx]
    simp only [if_neg hlast, ofNames_cnt, hfull]
    refine List.mem_append_right _ (List.mem_append_left _ (List.mem_map.mpr ⟨19 - idx, ?_, ?_⟩))
    · exact List.mem_range.mpr (by omega)
    · omega

theorem implements_step_iff {s : Traced} (h : Implements s) (cmd : Cmd) :
    Implements (s.step platform cmd) ↔ ¬ Overruns s.table cmd := by
  constructor
  · intro hnext hcmd
    obtain ⟨i, hi, hge⟩ : ∃ i ∈ (cmd.run platform s.table).rows, ¬ i < 20 :=
      exists_row_of_overruns h.represents hcmd
    exact hge (hnext.rows i (List.mem_append_right _ hi))
  · intro hcmd
    have hcorrect : Correct s.table (cmd.run platform s.table) _ :=
      run_correct h.represents hcmd
    refine ⟨hcorrect.represents, ?_, ?_⟩
    · intro i hi
      rcases List.mem_append.mp hi with hi | hi
      · exact h.rows i hi
      · exact hcorrect.rows i hi
    · intro r hr
      rcases List.mem_append.mp hr with hr | hr
      · exact h.results r hr
      · rw [List.mem_singleton.mp hr]
        refine ⟨hcorrect.ok, fun hok => ?_⟩
        exact decide_eq_false (not_not.mpr (hcorrect.unchanged hok))

/-- In every run of commands the table implements the set of names exactly when no command reaches
behind it. -/
theorem always_implements_iff (platform : Platform) (cmds : List Cmd) :
    Always (Traced.step platform) Implements {} cmds ↔
      Along (Traced.step platform) (fun s cmd => ¬ Overruns s.table cmd) {} cmds := by
  refine always_iff_along (I := fun _ => True) _ (fun _ _ _ => trivial) ?_ trivial ?_ cmds
  · intro s cmd _ h
    exact implements_step_iff h cmd
  · have hempty : NameList [] := ⟨by decide, List.Pairwise.nil, fun name hname => by cases hname⟩
    refine ⟨hempty.represents, ?_, ?_⟩
    · intro i hi
      cases hi
    · intro r hr
      cases hr

/-- A platform with an empty string behind the table. -/
def insertionPlatform : Platform where
  beyond := []
  qsort := List.insertionSort (· ≤ ·)
  qsort_perm := List.perm_insertionSort (· ≤ ·)
  qsort_sorted := List.pairwise_insertionSort (· ≤ ·)

/-- The names a, b, …, t are added, and a is removed from the full table. -/
def removeFromFull : List Cmd :=
  let letter : Fin 20 → Name := fun i => [⟨97 + i, by omega, by omega⟩]
  (List.finRange 20).map (fun i => .add (letter i)) ++ [.remove (letter 0)]

theorem removeFromFull_not_implements :
    ¬ Always (Traced.step insertionPlatform) Implements {} removeFromFull := by
  intro h
  have hrows := (h.last (Traced.step insertionPlatform)).rows
  exact absurd hrows (by decide +kernel)

end ShellModule
end ZephyrSamples
