import Mathlib.Data.List.TakeWhile
import ZephyrSamples.Lib.Runs
import ZephyrSamples.Lighting.Server
import ZephyrSamples.Lighting.Storage

/-!
# Loading what was saved

`settings_load` calls `ps_set` once for each stored item.  The comparison of a key is limited to
the length of the key, so the item `ll` is also read into the variable of `llt`.  Every other item
goes to its own variable alone, and the file ends with the exact condition under which a load in a
given order restores every variable and lets no key touch the variable of another.
-/

namespace ZephyrSamples
namespace Lighting

open Runs

/-- The settings subsystem, as far as `ps_set` relies on it: `settings_name_next` finds the last
component of a name, and `read_cb` copies the stored bytes that fit. -/
structure SettingsSubsystem where
  nameNext : List Char → Nat × Option (List Char)
  readCb : Buf → Nat → Int × Buf
  nameNext_last : ∀ name, '/' ∉ name → '=' ∉ name → nameNext name = (name.length, none)
  readCb_copies : ∀ stored size, (readCb stored size).2 = stored.take size

/-! ## Words in memory -/

theorem pullLe16_putLe16 (w : UInt16) (buf : Buf) : pullLe16 (putLe16 w ++ buf) = (w, buf) := by
  show (UInt16.ofNat (w.toUInt8.toNat + 256 * (w >>> 8).toUInt8.toNat), buf) = _
  congr 1
  apply UInt16.toNat_inj.mp
  have hw := w.toNat_lt
  simp only [UInt16.toNat_ofNat', UInt16.toNat_toUInt8, UInt16.toNat_shiftRight,
    Nat.shiftRight_eq_div_pow]
  simp
  omega

theorem pullLe32_putLe32 (w : UInt32) : (pullLe32 (putLe32 w)).1 = w := by
  unfold pullLe32 putLe32
  rw [pullLe16_putLe16]
  dsimp only
  rw [← List.append_nil (putLe16 _), pullLe16_putLe16]
  apply UInt32.toNat_inj.mp
  have hw := w.toNat_lt
  simp [Nat.shiftRight_eq_div_pow]
  omega

theorem putLe16_inj {v w : UInt16} (h : putLe16 v = putLe16 w) : v = w := by
  have hv := pullLe16_putLe16 v []
  rw [h, pullLe16_putLe16] at hv
  exact (congrArg Prod.fst hv).symm

theorem putLe32_inj {v w : UInt32} (h : putLe32 v = putLe32 w) : v = w := by
  rw [← pullLe32_putLe32 v, h, pullLe32_putLe32]

theorem pack_toUInt16 (lo hi : UInt16) :
    ((hi.toUInt32 <<< 16) ||| lo.toUInt32).toUInt16 = lo ∧
      (((hi.toUInt32 <<< 16) ||| lo.toUInt32) >>> 16).toUInt16 = hi := by
  have hlo := lo.toNat_lt
  have hhi := hi.toNat_lt
  have hpack : ((hi.toUInt32 <<< 16) ||| lo.toUInt32).toNat = hi.toNat * 65536 + lo.toNat := by
    have hor : hi.toNat <<< 16 + lo.toNat = hi.toNat <<< 16 ||| lo.toNat :=
      Nat.shiftLeft_add_eq_or_of_lt hlo hi.toNat
    have hshift : hi.toNat <<< 16 = hi.toNat * 65536 := Nat.shiftLeft_eq _ _
    have hlt : hi.toNat <<< 16 < 2 ^ 32 := by omega
    show hi.toNat <<< 16 % 2 ^ 32 ||| lo.toNat = _
    rw [Nat.mod_eq_of_lt hlt, ← hor, hshift]
  constructor
  · apply UInt16.toNat_inj.mp
    rw [UInt32.toNat_toUInt16, hpack]
    omega
  · apply UInt16.toNat_inj.mp
    rw [UInt32.toNat_toUInt16, UInt32.toNat_shiftRight, hpack]
    simp [Nat.shiftRight_eq_div_pow]
    omega

/-! ## One key -/

namespace PsKey

theorem image_write (k : PsKey) (m s : Server) : k.image (k.write (k.image m) s) = k.image m := by
  have hword (w : UInt16) : (pullLe16 (putLe16 w)).1 = w := by
    rw [← List.append_nil (putLe16 w), pullLe16_putLe16]
  cases k
  case rc | gdtt | gpo => rfl
  case dd => exact congrArg putLe16 ((UInt16.toUInt16_toInt16 _).trans (hword _))
  case dlt => exact congrArg putLe16 ((UInt16.toUInt16_toInt16 _).trans (hword _))
  case lr => exact congrArg putLe32 (pullLe32_putLe32 _)
  case tr => exact congrArg putLe32 (pullLe32_putLe32 _)
  all_goals exact congrArg putLe16 (hword _)

theorem image_write_of_ne {k k' : PsKey} (h : k' ≠ k) (bytes : Buf) (s : Server) :
    k'.image (k.write bytes s) = k'.image s := by
  cases k <;> cases k' <;> first | rfl | exact absurd rfl h

theorem size_eq (k : PsKey) (m s : Server) : (k.image m).length = k.size s := by
  cases k <;> rfl

/-- `ll` is the one key that is a prefix of another. -/
theorem filter_strncmp (k : PsKey) :
    all.filter (fun k' => strncmp k.name k'.name k.name.length = 0) =
      if k = ll then [ll, llt] else [k] := by
  cases k <;> rfl

theorem read_of_length {k : PsKey} (S : SettingsSubsystem) {bytes : Buf} {s : Server}
    (h : bytes.length = k.size s) : (k.read (S.readCb bytes) s).2 = k.write bytes s := by
  have hcopied : (S.readCb bytes (k.size s)).2 = bytes := by
    rw [S.readCb_copies, ← h, List.take_length]
  have hrest : (k.image s).drop bytes.length = [] := by
    rw [h]
    exact List.drop_length
  show k.write ((S.readCb bytes (k.size s)).2 ++
    (k.image s).drop (S.readCb bytes (k.size s)).2.length) s = _
  rw [hcopied, hrest, List.append_nil]

end PsKey

/-- What one call of `ps_set` does to the memory when `k` was saved with the values of `m`. -/
def loadItem (S : SettingsSubsystem) (m s : Server) (k : PsKey) : Server :=
  (psSet S.nameNext k.name (S.readCb (k.saved m)) s).2

variable {S : SettingsSubsystem} {m s : Server}

theorem loadItem_eq (k : PsKey) : loadItem S m s k =
    if k = .ll then PsKey.llt.write (PsKey.ll.saved m) (PsKey.ll.write (PsKey.ll.saved m) s)
    else k.write (k.saved m) s := by
  have hname : S.nameNext k.name = (k.name.length, none) :=
    S.nameNext_last k.name (by cases k <;> decide) (by cases k <;> decide)
  have hfold (keys : List PsKey) (out : Int × Server) :
      keys.foldl (fun out k' =>
        if strncmp k.name k'.name k.name.length = 0 then k'.read (S.readCb (k.saved m)) out.2
        else out) out =
      (keys.filter (fun k' => strncmp k.name k'.name k.name.length = 0)).foldl
        (fun out k' => k'.read (S.readCb (k.saved m)) out.2) out := by
    rw [List.foldl_filter]
    simp only [decide_eq_true_eq]
  unfold loadItem psSet
  rw [hname]
  dsimp only
  rw [hfold, PsKey.filter_strncmp]
  by_cases hk : k = .ll
  · subst hk
    rw [if_pos rfl, if_pos rfl]
    have hsize : (PsKey.ll.saved m).length = PsKey.ll.size s := PsKey.ll.size_eq _ s
    show (PsKey.llt.read (S.readCb (PsKey.ll.saved m))
      (PsKey.ll.read (S.readCb (PsKey.ll.saved m)) s).2).2 = _
    rw [PsKey.read_of_length S hsize]
    exact PsKey.read_of_length S rfl
  · rw [if_neg hk, if_neg hk]
    exact PsKey.read_of_length S (k.size_eq _ s)

/-- The key changes no variable but its own. -/
def KeepsOthers (S : SettingsSubsystem) (m s : Server) (k : PsKey) : Prop :=
  ∀ k', k' ≠ k → k'.image (loadItem S m s k) = k'.image s

theorem image_loadItem (k : PsKey) : k.image (loadItem S m s k) = k.saved m := by
  rw [loadItem_eq]
  split
  case isTrue hk =>
    subst hk
    rw [PsKey.image_write_of_ne (by decide)]
    exact PsKey.ll.image_write _ _
  case isFalse => exact k.image_write _ _

theorem keepsOthers_of_ne {k : PsKey} (hk : k ≠ .ll) : KeepsOthers S m s k := by
  intro k' hk'
  rw [loadItem_eq, if_neg hk]
  exact PsKey.image_write_of_ne hk' _ _

/-- Loading `ll` overwrites the target with the last lightness. -/
theorem keepsOthers_ll_iff : KeepsOthers S m s .ll ↔ m.light.last = s.light.target := by
  have htarget : PsKey.llt.image (loadItem S m s .ll) = putLe16 m.light.last := by
    rw [loadItem_eq, if_pos rfl]
    exact PsKey.llt.image_write { m with light := { m.light with target := m.light.last } } _
  constructor
  · intro h
    exact putLe16_inj (htarget.symm.trans (h .llt (by decide)))
  · intro h k' hk'
    by_cases hllt : k' = .llt
    · subst hllt
      exact htarget.trans (congrArg putLe16 h)
    · rw [loadItem_eq, if_pos rfl, PsKey.image_write_of_ne hllt, PsKey.image_write_of_ne hk']

/-! ## A whole load -/

/-- If no key touches the variable of another, each variable gets what was saved under its key. -/
theorem image_run {es : List PsKey} (h : Along (loadItem S m) (KeepsOthers S m) s es) (k : PsKey) :
    k.image (run (loadItem S m) s es) = if k ∈ es then k.saved m else k.image s := by
  induction es generalizing s with
  | nil => exact (if_neg List.not_mem_nil).symm
  | cons e es ih =>
    rw [run_cons, ih h.2]
    by_cases hlater : k ∈ es
    · rw [if_pos hlater, if_pos (List.mem_cons_of_mem e hlater)]
    · rw [if_neg hlater]
      by_cases hnow : k = e
      · subst hnow
        rw [if_pos List.mem_cons_self, image_loadItem]
      · rw [if_neg fun hk => (List.mem_cons.mp hk).elim hnow hlater, h.1 k hnow]

/-- The fields of `s` are those saved from `m`; the ranges are those that
`light_default_status_init` unpacks. -/
structure Restored (m s : Server) : Prop where
  resetCounter : s.resetCounter = m.resetCounter
  tt : s.tt = m.tt
  onpowerup : s.onpowerup = m.onpowerup
  lightDflt : s.light.dflt = m.light.dflt
  tempDflt : s.temp.dflt = m.temp.dflt
  duvDflt : s.duv.dflt = m.duv.dflt
  lightLast : s.light.last = m.light.last
  lightTarget : s.light.target = m.light.target
  tempTarget : s.temp.target = m.temp.target
  duvTarget : s.duv.target = m.duv.target
  lightRangeMin : (lightDefaultStatusInit s).light.rangeMin = m.light.rangeMin
  lightRangeMax : (lightDefaultStatusInit s).light.rangeMax = m.light.rangeMax
  tempRangeMin : (lightDefaultStatusInit s).temp.rangeMin = m.temp.rangeMin
  tempRangeMax : (lightDefaultStatusInit s).temp.rangeMax = m.temp.rangeMax

/-- A saved range is not zero, so `light_default_status_init` unpacks it. -/
theorem pack_ne_zero {lo : UInt16} (hlo : 1 ≤ lo) (hi : UInt16) :
    (hi.toUInt32 <<< 16) ||| lo.toUInt32 ≠ 0 := by
  intro hzero
  have hunpack := (pack_toUInt16 lo hi).1
  rw [hzero] at hunpack
  rw [← hunpack] at hlo
  exact absurd hlo (by decide)

theorem retrieveRanges_of_image (hlight : 1 ≤ m.light.rangeMin) (htemp : 1 ≤ m.temp.rangeMin)
    (hlr : PsKey.lr.image s = PsKey.lr.saved m) (htr : PsKey.tr.image s = PsKey.tr.saved m) :
    (s.retrieveRanges.light.rangeMin = m.light.rangeMin ∧
        s.retrieveRanges.light.rangeMax = m.light.rangeMax) ∧
      s.retrieveRanges.temp.rangeMin = m.temp.rangeMin ∧
        s.retrieveRanges.temp.rangeMax = m.temp.rangeMax := by
  have hl : s.light.range = (m.light.rangeMax.toUInt32 <<< 16) ||| m.light.rangeMin.toUInt32 :=
    putLe32_inj hlr
  have ht : s.temp.range = (m.temp.rangeMax.toUInt32 <<< 16) ||| m.temp.rangeMin.toUInt32 :=
    putLe32_inj htr
  unfold Server.retrieveRanges
  dsimp only
  rw [hl, ht, if_pos (pack_ne_zero hlight _), if_pos (pack_ne_zero htemp _)]
  exact ⟨pack_toUInt16 _ _, pack_toUInt16 _ _⟩

theorem restored_of_image (hlight : 1 ≤ m.light.rangeMin) (htemp : 1 ≤ m.temp.rangeMin)
    (h : ∀ k : PsKey, k.image s = k.saved m) : Restored m s := by
  have hbyte {b c : UInt8} (h : ([b] : Buf) = [c]) : b = c := List.singleton_inj.mp h
  have hneg {v w : Int16} (h : putLe16 v.toUInt16 = putLe16 w.toUInt16) : v = w := by
    rw [← Int16.toInt16_toUInt16 v, putLe16_inj h, Int16.toInt16_toUInt16]
  obtain ⟨_, _, _, heq, -, -, -, hlmin, hlmax, htmin, htmax⟩ := lightDefaultStatusInit_eq s
  obtain ⟨⟨hlight0, hlight1⟩, htemp0, htemp1⟩ :=
    retrieveRanges_of_image hlight htemp (h .lr) (h .tr)
  exact {
    resetCounter := hbyte (h .rc)
    tt := hbyte (h .gdtt)
    onpowerup := hbyte (h .gpo)
    lightDflt := putLe16_inj (h .ld)
    tempDflt := putLe16_inj (h .td)
    duvDflt := hneg (h .dd)
    lightLast := putLe16_inj (h .ll)
    lightTarget := putLe16_inj (h .llt)
    tempTarget := putLe16_inj (h .tlt)
    duvTarget := hneg (h .dlt)
    lightRangeMin := by rw [heq]; exact hlmin.trans hlight0
    lightRangeMax := by rw [heq]; exact hlmax.trans hlight1
    tempRangeMin := by rw [heq]; exact htmin.trans htemp0
    tempRangeMax := by rw [heq]; exact htmax.trans htemp1 }

theorem loaded_loadItem (hlight : 1 ≤ m.light.rangeMin ∧ m.light.rangeMin ≤ m.light.rangeMax)
    (htemp : tempMin ≤ m.temp.rangeMin ∧ m.temp.rangeMin ≤ m.temp.rangeMax ∧
      m.temp.rangeMax ≤ tempMax) (h : Loaded s) (k : PsKey) : Loaded (loadItem S m s k) := by
  rw [loadItem_eq]
  split
  case isTrue => exact { h with }
  case isFalse =>
    cases k
    case lr =>
      have hrange : ((PsKey.lr.write (PsKey.lr.saved m) s).light.range) =
          (m.light.rangeMax.toUInt32 <<< 16) ||| m.light.rangeMin.toUInt32 := pullLe32_putLe32 _
      refine { h with lightRange := fun _ => ?_ }
      rw [hrange, (pack_toUInt16 _ _).1, (pack_toUInt16 _ _).2]
      exact hlight
    case tr =>
      have hrange : ((PsKey.tr.write (PsKey.tr.saved m) s).temp.range) =
          (m.temp.rangeMax.toUInt32 <<< 16) ||| m.temp.rangeMin.toUInt32 := pullLe32_putLe32 _
      refine { h with tempRange := fun _ => ?_ }
      rw [hrange, (pack_toUInt16 _ _).1, (pack_toUInt16 _ _).2]
      exact htemp
    all_goals exact { h with }

/-- A load, whatever the order of the items, leaves a state a node can boot from. -/
theorem loaded_run (hlight : 1 ≤ m.light.rangeMin ∧ m.light.rangeMin ≤ m.light.rangeMax)
    (htemp : tempMin ≤ m.temp.rangeMin ∧ m.temp.rangeMin ≤ m.temp.rangeMax ∧
      m.temp.rangeMax ≤ tempMax) (order : List PsKey) :
    Loaded (run (loadItem S m) lightDefaultVarInit order) :=
  run_invariant (I := Loaded) (loadItem S m) (fun _ k h => loaded_loadItem hlight htemp h k)
    loaded_lightDefaultVarInit order

theorem target_run {pre : List PsKey} (hpre : PsKey.ll ∉ pre) :
    (run (loadItem S m) s pre).light.target =
      if PsKey.llt ∈ pre then m.light.target else s.light.target := by
  have hkeeps : Along (loadItem S m) (KeepsOthers S m) s pre :=
    along_of_forall _ fun _ k hk => keepsOthers_of_ne fun hll => hpre (hll ▸ hk)
  have himage := image_run hkeeps .llt
  apply putLe16_inj
  rw [show putLe16 _ = PsKey.llt.image _ from rfl, himage]
  split <;> rfl

/-- A load in the given order restores every variable and lets no key change the variable of
another, if and only if the saved last lightness is what the target is when `ll` is loaded. -/
theorem restores_iff (S : SettingsSubsystem) (m s : Server) (order : List PsKey)
    (horder : order.Perm PsKey.all) (hlight : 1 ≤ m.light.rangeMin)
    (htemp : 1 ≤ m.temp.rangeMin) :
    (Restored m (run (loadItem S m) s order) ∧
        Along (loadItem S m) (KeepsOthers S m) s order) ↔
      m.light.last =
        if PsKey.llt ∈ order.takeWhile (· ≠ .ll) then m.light.target else s.light.target := by
  have hall (k : PsKey) : k ∈ order := horder.mem_iff.mpr (by cases k <;> decide)
  have hnodup : order.Nodup := horder.nodup_iff.mpr (by decide)
  obtain ⟨pre, post, hsplit, hpre⟩ := List.eq_append_cons_of_mem (hall .ll)
  have hpost : PsKey.ll ∉ post := by
    rw [hsplit] at hnodup
    exact (List.nodup_cons.mp (List.nodup_append.mp hnodup).2.1).1
  have hbefore : order.takeWhile (· ≠ .ll) = pre := by
    have hother : ∀ k ∈ pre, decide (k ≠ PsKey.ll) = true := fun k hk =>
      decide_eq_true fun h => hpre (h ▸ hk)
    rw [hsplit, List.takeWhile_append_of_pos hother]
    simp
  have hkeeps : Along (loadItem S m) (KeepsOthers S m) s order ↔
      KeepsOthers S m (run (loadItem S m) s pre) .ll := by
    have hothers (s : Server) {es : List PsKey} (hes : PsKey.ll ∉ es) :
        Along (loadItem S m) (KeepsOthers S m) s es :=
      along_of_forall _ fun _ k hk => keepsOthers_of_ne fun hll => hes (hll ▸ hk)
    rw [hsplit, along_append]
    exact ⟨fun h => h.2.1, fun h => ⟨hothers s hpre, h, hothers _ hpost⟩⟩
  rw [hbefore, ← target_run (S := S) hpre, ← keepsOthers_ll_iff (S := S), ← hkeeps]
  refine ⟨fun h => h.2, fun h => ⟨restored_of_image hlight htemp fun k => ?_, h⟩⟩
  rw [image_run h, if_pos (hall k)]

/-- Settings whose names end at a `/` or a `=`. -/
def flatSettings : SettingsSubsystem where
  nameNext name :=
    let head := name.takeWhile fun c => c ≠ '/' ∧ c ≠ '='
    (head.length, match name.drop head.length with
      | '/' :: rest => some rest
      | _ => none)
  readCb stored size := ((min size stored.length : Nat), stored.take size)
  nameNext_last name hslash heq := by
    have hhead : name.takeWhile (fun c => c ≠ '/' ∧ c ≠ '=') = name :=
      List.takeWhile_eq_self_iff.mpr fun c hc =>
        decide_eq_true ⟨fun h => hslash (h ▸ hc), fun h => heq (h ▸ hc)⟩
    dsimp only
    rw [hhead, List.drop_length]
  readCb_copies stored size := rfl

/-- A node saved at full lightness on its way down. -/
def dimming (last : UInt16) : Server :=
  { lightDefaultVarInit with
    light := { lightDefaultVarInit.light with last := last, target := 300 } }

/-- The items in the order of `ps_set`, where `ll` finds the target at its default. -/
theorem restores_dimming :
    Restored (dimming lightnessMax)
        (run (loadItem flatSettings (dimming lightnessMax)) lightDefaultVarInit PsKey.all) ∧
      Along (loadItem flatSettings (dimming lightnessMax))
        (KeepsOthers flatSettings (dimming lightnessMax)) lightDefaultVarInit PsKey.all :=
  (restores_iff flatSettings (dimming lightnessMax) lightDefaultVarInit PsKey.all
    (List.Perm.refl _) (by decide) (by decide)).mpr (by decide)

/-- With `llt` loaded before `ll`, the target comes back as the last lightness. -/
theorem not_restored_dimming :
    [PsKey.rc, .gdtt, .gpo, .ld, .td, .dd, .llt, .ll, .tlt, .dlt, .lr, .tr].Perm PsKey.all ∧
      ¬Restored (dimming 500) (run (loadItem flatSettings (dimming 500)) lightDefaultVarInit
        [.rc, .gdtt, .gpo, .ld, .td, .dd, .llt, .ll, .tlt, .dlt, .lr, .tr]) :=
  ⟨by decide, fun h => absurd h.lightTarget (by decide)⟩

end Lighting
end ZephyrSamples
