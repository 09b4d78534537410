import Mathlib.Data.List.Nodup
import ZephyrSamples.SettingsSample.Handlers

/-!
# Loading the lengths directly

`direct_loader` gets the names under `alpha/length` from the subsystem and stores the values in a
structure of its caller.  It recognises the key without a further component, which
`alpha_handle_set` refuses. -/

namespace ZephyrSamples
namespace SettingsSample

open Runs

/-- The keys under `alpha/length`. -/
inductive LengthKey where
  | length
  | length1
  | length2
  deriving DecidableEq, Repr

def LengthKey.toKey : LengthKey → Key
  | .length => .length
  | .length1 => .length1
  | .length2 => .length2

/-- `struct direct_length_data` -/
abbrev DirectLengthData := (k : LengthKey) → Var k.toKey.size

section

variable (S : SettingsSubsystem)

/-- `settings_name_next`, which counts nothing for a name that is NULL. -/
def nameNextOrNull : Option (List Char) → Nat × Option (List Char)
  | none => (0, none)
  | some name => S.nameNext name

def readDest (dest : DirectLengthData) (k : LengthKey) (stored : List Byte) : DirectLengthData :=
  Function.update dest k ((dest k).read S stored)

def directLoader (name : Option (List Char)) (stored : List Byte) (dest : DirectLengthData) :
    Int × DirectLengthData :=
  if (nameNextOrNull S name).1 = 0 then (0, readDest S dest .length stored)
  else
    match nameNextOrNull S name with
    | (_, some _) => (-enoent, dest)
    | (nameLen, none) =>
      if strncmpEq (name.getD []) "1".toList nameLen then (0, readDest S dest .length1 stored)
      else if strncmpEq (name.getD []) "2".toList nameLen then
        (0, readDest S dest .length2 stored)
      else (-enoent, dest)

/-- The name after `alpha/length`; for the key itself it is NULL or empty. -/
def LengthKey.suffix (null : Bool) : LengthKey → Option (List Char)
  | .length => if null then none else some []
  | .length1 => some "1".toList
  | .length2 => some "2".toList

/-- One item of `settings_load_subtree_direct`, with the value that `v` has of the key. -/
def directItem (null : Bool) (v : Vars) (dest : DirectLengthData) (k : LengthKey) :
    DirectLengthData :=
  (directLoader S (k.suffix null) (v k.toKey).bytes dest).2

/-- One item of a load with the registered handlers. -/
def alphaItem (v s : Vars) (k : LengthKey) : Vars := loadItem S s (item v k.toKey)

/-- What the two loads make of the keys in `present`, from the values in `before`, and of the
others. -/
structure SameLoad (present : List LengthKey) (dest dest' : DirectLengthData) (s s' : Vars) :
    Prop where
  stored : ∀ k ∈ present, dest' k = s' k.toKey
  untouched : ∀ k ∉ present, dest' k = dest k ∧ s' k.toKey = s k.toKey

variable (null : Bool) (v s : Vars) (dest : DirectLengthData)

theorem directLoader_suffix (k : LengthKey) (stored : List Byte) :
    directLoader S (k.suffix null) stored dest = (0, readDest S dest k stored) := by
  cases k with
  | length =>
    have hnone : (nameNextOrNull S (LengthKey.length.suffix null)).1 = 0 := by
      cases null with
      | true => rfl
      | false => exact congrArg Prod.fst (S.nameNext_last [] (by decide) (by decide))
    exact if_pos hnone
  | length1 =>
    have hnext : nameNextOrNull S (LengthKey.length1.suffix null) = (1, none) :=
      S.nameNext_last "1".toList (by decide) (by decide)
    rw [directLoader, hnext]
    rfl
  | length2 =>
    have hnext : nameNextOrNull S (LengthKey.length2.suffix null) = (1, none) :=
      S.nameNext_last "2".toList (by decide) (by decide)
    rw [directLoader, hnext]
    rfl

theorem directItem_self (k : LengthKey) : directItem S null v dest k k = v k.toKey := by
  rw [directItem, directLoader_suffix]
  show readDest S dest k (v k.toKey).bytes k = _
  rw [readDest, Function.update_self, Var.ext_iff]
  exact read_full S (dest k) (v k.toKey).length_eq

theorem directItem_of_ne {k k' : LengthKey} (h : k' ≠ k) :
    directItem S null v dest k k' = dest k' := by
  rw [directItem, directLoader_suffix]
  exact Function.update_of_ne h _ _

/-- The direct load stores every value that is there. -/
theorem run_directItem (order : List LengthKey) (k : LengthKey) :
    run (directItem S null v) dest order k = if k ∈ order then v k.toKey else dest k := by
  induction order generalizing dest with
  | nil => exact (if_neg List.not_mem_nil).symm
  | cons k' order ih =>
    rw [run_cons, ih]
    by_cases hlater : k ∈ order
    · rw [if_pos hlater, if_pos (List.mem_cons_of_mem k' hlater)]
    · rw [if_neg hlater]
      by_cases heq : k = k'
      · subst heq
        rw [if_pos List.mem_cons_self, directItem_self]
      · rw [if_neg fun hk => (List.mem_cons.mp hk).elim heq hlater, directItem_of_ne S null v _ heq]

theorem toKey_injective : Function.Injective LengthKey.toKey := by
  intro k k' h
  cases k <;> cases k' <;> first | rfl | exact Key.noConfusion h

/-- The registered handlers store all but the value of `alpha/length`. -/
theorem run_alphaItem {order : List LengthKey} (hnodup : order.Nodup) (k : LengthKey) :
    run (alphaItem S v) s order k.toKey =
      if k ∈ order ∧ k ≠ .length then v k.toKey else s k.toKey := by
  have hrun : run (alphaItem S v) s order =
      run (loadItem S) s ((order.map LengthKey.toKey).map (item v)) := by
    rw [run, run, List.foldl_map, List.foldl_map]
    rfl
  have hmem : k.toKey ∈ order.map LengthKey.toKey ↔ k ∈ order :=
    List.mem_map_of_injective toKey_injective
  rw [hrun, run_items S v s ((List.nodup_map_iff toKey_injective).mpr hnodup)]
  by_cases hk : k ∈ order
  · rw [if_pos (hmem.mpr hk)]
    by_cases hlength : k = .length
    · subst hlength
      rw [if_neg fun h => h.2 rfl]
      exact if_neg id
    · rw [if_pos ⟨hk, hlength⟩]
      cases k with
      | length => exact absurd rfl hlength
      | length1 => exact loaded_eq S v s (by decide) (by decide)
      | length2 => exact loaded_eq S v s (by decide) (by decide)
  · rw [if_neg (mt hmem.mp hk), if_neg fun h => hk h.1]

end

/-- The two loads agree on every set of stored keys, in any two orders, exactly when `alpha/length`
is not stored or has the value that `length_val` has already. -/
theorem sameLoad_iff (S : SettingsSubsystem) (null : Bool) (v s : Vars) (dest : DirectLengthData)
    {order order' : List LengthKey} (hnodup : order.Nodup) (hperm : order'.Perm order) :
    SameLoad order dest (run (directItem S null v) dest order') s (run (alphaItem S v) s order) ↔
      (.length ∈ order → s .length = v .length) := by
  constructor
  · intro h hlength
    have hsame := h.stored .length hlength
    rw [run_directItem, run_alphaItem S v s hnodup, if_pos (hperm.mem_iff.mpr hlength),
      if_neg fun h => h.2 rfl] at hsame
    exact hsame.symm
  · intro h
    refine ⟨fun k hk => ?_, fun k hk => ?_⟩
    · rw [run_directItem, run_alphaItem S v s hnodup, if_pos (hperm.mem_iff.mpr hk)]
      by_cases hlength : k = .length
      · subst hlength
        rw [if_neg fun h => h.2 rfl]
        exact (h hk).symm
      · rw [if_pos ⟨hk, hlength⟩]
    · rw [run_directItem, run_alphaItem S v s hnodup, if_neg (mt hperm.mem_iff.mp hk),
        if_neg fun h => hk h.1]
      exact ⟨rfl, rfl⟩

/-- Variables of which only `length_val` is as in `lengthOf 1`. -/
def otherThanLength : Vars := fun k =>
  { bytes := List.replicate k.size (if k = .length then 1 else 7)
    length_eq := List.length_replicate }

/-- All three keys, in two orders. -/
theorem sameLoad_iff_threeKeys :
    [LengthKey.length1, .length, .length2].Nodup ∧
      [LengthKey.length2, .length1, .length].Perm [.length1, .length, .length2] ∧
      SameLoad [.length1, .length, .length2] (fun k => lengthOf 0 k.toKey)
        (run (directItem zephyr false otherThanLength) (fun k => lengthOf 0 k.toKey)
          [.length2, .length1, .length])
        (lengthOf 1)
        (run (alphaItem zephyr otherThanLength) (lengthOf 1) [.length1, .length, .length2]) := by
  have hnodup : [LengthKey.length1, .length, .length2].Nodup := by decide
  have hperm : [LengthKey.length2, .length1, .length].Perm [.length1, .length, .length2] := by
    decide
  exact ⟨hnodup, hperm, (sameLoad_iff zephyr false otherThanLength (lengthOf 1)
    (fun k => lengthOf 0 k.toKey) hnodup hperm).mpr fun _ => rfl⟩

/-- A stored `alpha/length` reaches only the destination of the direct load. -/
theorem length_loaded_directly :
    ¬ ∀ (S : SettingsSubsystem) (null : Bool) (v s : Vars) (dest : DirectLengthData)
        (order order' : List LengthKey), order.Nodup → order'.Perm order →
          SameLoad order dest (run (directItem S null v) dest order') s
            (run (alphaItem S v) s order) := by
  intro h
  have hsame := (h zephyr true (lengthOf 1) (lengthOf 0) (fun k => lengthOf 0 k.toKey) [.length]
    [.length] (by decide) (List.Perm.refl _)).stored .length List.mem_cons_self
  rw [run_directItem, run_alphaItem zephyr (lengthOf 1) (lengthOf 0) (by decide),
    if_pos List.mem_cons_self, if_neg fun h => h.2 rfl] at hsame
  have hbytes : List.replicate 8 (1 : Byte) = List.replicate 8 0 := congrArg Var.bytes hsame
  exact absurd hbytes (by decide)

end SettingsSample
end ZephyrSamples
