import ZephyrSamples.Lib.Runs
import Mathlib.Logic.Function.Basic

/-!
# The NVS sample across reboots

A boot checks five items and adds those that are missing, two of them only while the reboot counter
is 0; it deletes the string when the counter is 10, and ends by storing the next counter.  The power
may be lost between any two operations on the store.  What holds of the store at any time is what
the next boot needs: past 0 the long item is there, up to 9 the string as well, and from 11 on the
string is gone; at 0 and at 10 the boot itself sees to what is missing.
-/

namespace ZephyrSamples
namespace NvsSample

open Runs

abbrev Byte := UInt8

/-- `ADDRESS_ID`, `KEY_ID`, `RBT_CNT_ID`, `STRING_ID`, `LONG_ID` -/
inductive Item where
  | address
  | key
  | rbtCnt
  | string
  | long
  deriving DecidableEq

/-- The store: the items that are there, with their values. -/
abbrev Nvs := Item → Option (List Byte)

/-- `-ENOENT` -/
def enoent : Int := -2

/-- `nvs_read`: its result, and what it reads -/
def nvsRead (nvs : Nvs) (item : Item) : Int × List Byte :=
  match nvs item with
  | none => (enoent, [])
  | some value => (value.length, value)

/-- `nvs_write` -/
def nvsWrite (nvs : Nvs) (item : Item) (value : List Byte) : Nvs :=
  Function.update nvs item (some value)

/-- `nvs_delete` -/
def nvsDelete (nvs : Nvs) (item : Item) : Nvs := Function.update nvs item none

/-- `"192.168.1.1"`, with its end -/
def addressValue : List Byte :=
  [0x31, 0x39, 0x32, 0x2e, 0x31, 0x36, 0x38, 0x2e, 0x31, 0x2e, 0x31, 0]

def keyValue : List Byte := [0xFF, 0xFE, 0xFD, 0xFC, 0xFB, 0xFA, 0xF9, 0xF8]

/-- `"DATA"`, with its end -/
def stringValue : List Byte := [0x44, 0x41, 0x54, 0x41, 0]

def longValue : List Byte := (List.range 128).map UInt8.ofNat

/-- The bytes of `reboot_counter`. -/
def bytesOf (counter : UInt32) : List Byte :=
  [counter.toUInt8, (counter >>> 8).toUInt8, (counter >>> 16).toUInt8, (counter >>> 24).toUInt8]

/-- The counter of these bytes. -/
def counterOf (bytes : List Byte) : UInt32 :=
  UInt32.ofNat (bytes.foldr (fun b n => b.toNat + 256 * n) 0)

/-- Where a boot is: before an operation on the store, at the end of the item checks, in the middle
of the reboot, or after the end of `main`. -/
inductive Pc where
  | readAddress
  | writeAddress
  | readKey
  | writeKey
  | readCounter
  | writeCounter
  | readString
  | deleteString
  | writeString
  | readLong
  | writeLong
  | checked
  | increment
  | reset
  | reboot
  | ended
  deriving DecidableEq

/-- The store, and what is lost without power: where the boot is, and `reboot_counter`. -/
structure Board where
  nvs : Nvs
  pc : Pc := .readAddress
  counter : UInt32 := 0

/-- `main` starts. -/
def boot (nvs : Nvs) : Board := { nvs }

/-- All items but the counter have one proper value, and none is empty. -/
def Item.value : Item → List Byte
  | .address => addressValue
  | .key => keyValue
  | .rbtCnt => []
  | .string => stringValue
  | .long => longValue

section

variable (maxReboot : Nat)

/-- `main` goes on to its next operation.  The loop at the end waits, and reads the history of the
counter, before it gets to `increment`. -/
def next (s : Board) : Board :=
  match s.pc with
  | .readAddress =>
    let (rc, _) := nvsRead s.nvs .address
    { s with pc := if 0 < rc then .readKey else .writeAddress }
  | .writeAddress => { s with nvs := nvsWrite s.nvs .address addressValue, pc := .readKey }
  | .readKey =>
    let (rc, _) := nvsRead s.nvs .key
    { s with pc := if 0 < rc then .readCounter else .writeKey }
  | .writeKey => { s with nvs := nvsWrite s.nvs .key keyValue, pc := .readCounter }
  | .readCounter =>
    let (rc, bytes) := nvsRead s.nvs .rbtCnt
    if 0 < rc then { s with counter := counterOf bytes, pc := .readString }
    else { s with pc := .writeCounter }
  | .writeCounter =>
    { s with nvs := nvsWrite s.nvs .rbtCnt (bytesOf s.counter), pc := .readString }
  | .readString =>
    let (rc, _) := nvsRead s.nvs .string
    if 0 < rc then { s with pc := if s.counter = 10 then .deleteString else .readLong }
    else { s with pc := if s.counter = 0 then .writeString else .readLong }
  | .deleteString => { s with nvs := nvsDelete s.nvs .string, pc := .readLong }
  | .writeString => { s with nvs := nvsWrite s.nvs .string stringValue, pc := .readLong }
  | .readLong =>
    let (rc, _) := nvsRead s.nvs .long
    { s with pc := if 0 < rc then .checked else if s.counter = 0 then .writeLong else .checked }
  | .writeLong => { s with nvs := nvsWrite s.nvs .long longValue, pc := .checked }
  | .checked => { s with pc := if s.counter.toNat < maxReboot then .increment else .reset }
  | .increment =>
    let counter := s.counter + 1
    { nvs := nvsWrite s.nvs .rbtCnt (bytesOf counter), pc := .reboot, counter }
  | .reset => { nvs := nvsWrite s.nvs .rbtCnt (bytesOf 0), pc := .ended, counter := 0 }
  | .reboot => boot s.nvs
  | .ended => s

/-- `main` goes on, or the power is lost and comes back. -/
inductive Event where
  | run
  | powerLoss

def step (s : Board) : Event → Board
  | .run => next maxReboot s
  | .powerLoss => boot s.nvs

/-! ## What is to hold -/

/-- The counter that is stored. -/
def storedCounter (nvs : Nvs) : Option UInt32 := (nvs .rbtCnt).map counterOf

/-- The stored counter stays, starts at 0, goes up by 1 from below `MAX_REBOOT`, or goes from there
to 0. -/
def Counted (old new : Option UInt32) : Prop :=
  new = old ∨ old = none ∧ new = some 0 ∨
    (∃ c, old = some c ∧ new = some (c + 1) ∧ c.toNat < maxReboot) ∨
    ∃ c, old = some c ∧ new = some 0 ∧ c.toNat = maxReboot

/-- What a step leaves of the store: the counter, but for counting, and the three items that are
never changed. -/
structure Kept (nvs nvs' : Nvs) : Prop where
  counted : Counted maxReboot (storedCounter nvs) (storedCounter nvs')
  unchanged : ∀ item, item = .address ∨ item = .key ∨ item = .long →
    ∀ value, nvs item = some value → nvs' item = some value

/-- At the end of the item checks every item is as it should be. -/
def Checked (s : Board) : Prop :=
  s.pc = .checked →
    s.nvs .address = some addressValue ∧ s.nvs .key = some keyValue ∧
      s.nvs .rbtCnt = some (bytesOf s.counter) ∧ s.nvs .long = some longValue ∧
      s.nvs .string = if s.counter.toNat ≤ 9 then some stringValue else none

/-! ## The store -/

/-- The values that an item can have. -/
def Item.Proper : Item → List Byte → Prop
  | .address, value => value = addressValue
  | .key, value => value = keyValue
  | .rbtCnt, value => ∃ c : UInt32, value = bytesOf c ∧ c.toNat ≤ maxReboot
  | .string, value => value = stringValue
  | .long, value => value = longValue

/-- What the boots before have done for the counter that is stored. -/
def Passed (nvs : Nvs) : Prop :=
  ∀ c, nvs .rbtCnt = some (bytesOf c) → 0 < c.toNat →
    nvs .long = some longValue ∧ (c.toNat ≤ 9 → nvs .string = some stringValue) ∧
      (11 ≤ c.toNat → nvs .string = none)

structure Durable (nvs : Nvs) : Prop where
  proper : ∀ item value, nvs item = some value → item.Proper maxReboot value
  passed : Passed nvs

/-- The first three items are as they should be. -/
structure Loaded (s : Board) : Prop where
  address : s.nvs .address = some addressValue
  key : s.nvs .key = some keyValue
  rbtCnt : s.nvs .rbtCnt = some (bytesOf s.counter)

/-- The string is there up to 9. -/
def StringRight (s : Board) : Prop :=
  s.nvs .string = if s.counter.toNat ≤ 9 then some stringValue else none

/-- What a boot knows where it is. -/
def At (s : Board) : Prop :=
  match s.pc with
  | .readAddress | .writeAddress => s.counter = 0
  | .readKey | .writeKey => s.counter = 0 ∧ s.nvs .address = some addressValue
  | .readCounter =>
    s.counter = 0 ∧ s.nvs .address = some addressValue ∧ s.nvs .key = some keyValue
  | .writeCounter =>
    s.counter = 0 ∧ s.nvs .address = some addressValue ∧ s.nvs .key = some keyValue ∧
      s.nvs .rbtCnt = none
  | .readString => Loaded s
  | .deleteString => Loaded s ∧ s.counter = 10
  | .writeString => Loaded s ∧ s.counter = 0
  | .readLong => Loaded s ∧ StringRight s
  | .writeLong => Loaded s ∧ StringRight s ∧ s.counter = 0
  | .checked => Loaded s ∧ StringRight s ∧ s.nvs .long = some longValue
  | .increment =>
    Loaded s ∧ StringRight s ∧ s.nvs .long = some longValue ∧ s.counter.toNat < maxReboot
  | .reset => Loaded s ∧ s.counter.toNat = maxReboot
  | .reboot | .ended => True

structure Sound (s : Board) : Prop where
  durable : Durable maxReboot s.nvs
  here : At maxReboot s

end

section

variable {nvs : Nvs} {item other : Item} {value : List Byte} {maxReboot : Nat}

@[simp] theorem nvsWrite_self (nvs : Nvs) (item : Item) (value : List Byte) :
    nvsWrite nvs item value item = some value := by
  rw [nvsWrite, Function.update_self]

@[simp] theorem nvsWrite_of_ne (h : other ≠ item) : nvsWrite nvs item value other = nvs other := by
  rw [nvsWrite, Function.update_of_ne h]

@[simp] theorem nvsDelete_self (nvs : Nvs) (item : Item) : nvsDelete nvs item item = none := by
  rw [nvsDelete, Function.update_self]

@[simp] theorem nvsDelete_of_ne (h : other ≠ item) : nvsDelete nvs item other = nvs other := by
  rw [nvsDelete, Function.update_of_ne h]

@[simp] theorem counterOf_bytesOf (c : UInt32) : counterOf (bytesOf c) = c := by
  have hlt := c.toNat_lt
  have hbyte (k : UInt32) (n : Nat) (hk : k.toNat % 32 = n) :
      (c >>> k).toUInt8.toNat = c.toNat / 2 ^ n % 256 := by
    rw [UInt32.toNat_toUInt8, UInt32.toNat_shiftRight, hk, Nat.shiftRight_eq_div_pow]
  have hsum : (bytesOf c).foldr (fun b n => b.toNat + 256 * n) 0 = c.toNat := by
    simp only [bytesOf, List.foldr_cons, List.foldr_nil, UInt32.toNat_toUInt8,
      hbyte 8 8 rfl, hbyte 16 16 rfl, hbyte 24 24 rfl]
    omega
  rw [counterOf, hsum, UInt32.ofNat_toNat]

theorem bytesOf_inj {c c' : UInt32} (h : bytesOf c = bytesOf c') : c = c' := by
  rw [← counterOf_bytesOf c, h, counterOf_bytesOf]

theorem Item.Proper.eq_value (h : item.Proper maxReboot value) (hitem : item ≠ .rbtCnt) :
    value = item.value := by
  cases item with
  | rbtCnt => exact absurd rfl hitem
  | address | key | string | long => exact h

theorem Item.Proper.ne_nil (h : item.Proper maxReboot value) : value ≠ [] := by
  by_cases hitem : item = .rbtCnt
  · subst hitem
    obtain ⟨c, rfl, -⟩ := h
    exact List.cons_ne_nil _ _
  · rw [h.eq_value hitem]
    revert hitem
    cases item <;> decide

/-- A read finds an item, or there is none. -/
theorem nvsRead_cases (h : Durable maxReboot nvs) (item : Item) :
    (∃ value, nvs item = some value ∧ item.Proper maxReboot value ∧ 0 < (nvsRead nvs item).1 ∧
        (nvsRead nvs item).2 = value) ∨
      nvs item = none ∧ ¬ 0 < (nvsRead nvs item).1 := by
  unfold nvsRead
  cases hitem : nvs item with
  | none => exact Or.inr ⟨rfl, by decide⟩
  | some value =>
    have hproper := h.proper item value hitem
    have hlength := List.length_pos_iff.mpr hproper.ne_nil
    exact Or.inl ⟨value, rfl, hproper, by show (0 : Int) < value.length; omega, rfl⟩

theorem durable_empty (maxReboot : Nat) : Durable maxReboot fun _ => none where
  proper _ _ h := nomatch h
  passed _ h := nomatch h

theorem Durable.write (h : Durable maxReboot nvs) (hvalue : item.Proper maxReboot value)
    (hpassed : Passed (nvsWrite nvs item value)) : Durable maxReboot (nvsWrite nvs item value) where
  passed := hpassed
  proper other v hv := by
    by_cases hother : other = item
    · subst hother
      rw [nvsWrite_self] at hv
      exact Option.some.inj hv ▸ hvalue
    · rw [nvsWrite_of_ne hother] at hv
      exact h.proper other v hv

theorem Durable.delete (h : Durable maxReboot nvs) (hpassed : Passed (nvsDelete nvs item)) :
    Durable maxReboot (nvsDelete nvs item) where
  passed := hpassed
  proper other v hv := by
    by_cases hother : other = item
    · subst hother
      rw [nvsDelete_self] at hv
      exact nomatch hv
    · rw [nvsDelete_of_ne hother] at hv
      exact h.proper other v hv

/-- Past 0 the store is as `Passed` says, for the counter that the boot has loaded. -/
theorem Passed.of_counter {c : UInt32} (hc : nvs .rbtCnt = some (bytesOf c))
    (h : 0 < c.toNat → nvs .long = some longValue ∧
      (c.toNat ≤ 9 → nvs .string = some stringValue) ∧ (11 ≤ c.toNat → nvs .string = none)) :
    Passed nvs := by
  intro c' hc'
  obtain rfl := bytesOf_inj (Option.some.inj (hc.symm.trans hc'))
  exact h

/-! ## Steps -/

theorem kept_refl (maxReboot : Nat) (nvs : Nvs) : Kept maxReboot nvs nvs where
  counted := Or.inl rfl
  unchanged _ _ _ h := h

theorem Durable.kept_write (h : Durable maxReboot nvs) (hvalue : item.Proper maxReboot value)
    (hitem : item ≠ .rbtCnt) : Kept maxReboot nvs (nvsWrite nvs item value) where
  counted := Or.inl (by rw [storedCounter, storedCounter, nvsWrite_of_ne hitem.symm])
  unchanged other _ v hv := by
    by_cases hother : other = item
    · subst hother
      rw [nvsWrite_self, hvalue.eq_value hitem, (h.proper other v hv).eq_value hitem]
    · rw [nvsWrite_of_ne hother]
      exact hv

theorem kept_delete (maxReboot : Nat) (nvs : Nvs) :
    Kept maxReboot nvs (nvsDelete nvs .string) where
  counted := Or.inl (by rw [storedCounter, storedCounter, nvsDelete_of_ne (by decide)])
  unchanged other hother v hv := by
    rw [nvsDelete_of_ne (by rcases hother with rfl | rfl | rfl <;> decide)]
    exact hv

theorem kept_count {c : UInt32} (h : Counted maxReboot (storedCounter nvs) (some c)) :
    Kept maxReboot nvs (nvsWrite nvs .rbtCnt (bytesOf c)) where
  counted := by
    have hnew : storedCounter (nvsWrite nvs .rbtCnt (bytesOf c)) = some c := by
      rw [storedCounter, nvsWrite_self, Option.map_some, counterOf_bytesOf]
    rw [hnew]
    exact h
  unchanged other hother v hv := by
    rw [nvsWrite_of_ne (by rcases hother with rfl | rfl | rfl <;> decide)]
    exact hv

theorem Loaded.storedCounter {s : Board} (h : Loaded s) :
    NvsSample.storedCounter s.nvs = some s.counter := by
  rw [NvsSample.storedCounter, h.rbtCnt, Option.map_some, counterOf_bytesOf]

theorem Loaded.counter_le {s : Board} (h : Loaded s) (hs : Durable maxReboot s.nvs) :
    s.counter.toNat ≤ maxReboot := by
  obtain ⟨c, hc, hle⟩ := hs.proper .rbtCnt _ h.rbtCnt
  rw [bytesOf_inj hc]
  exact hle

/-- The string as the boots before have left it. -/
theorem Loaded.stringRight_of_some {s : Board} (h : Loaded s) (hs : Durable maxReboot s.nvs)
    {value : List Byte} (hstring : s.nvs .string = some value) (hne : s.counter.toNat ≠ 10) :
    StringRight s := by
  have hproper : value = stringValue := hs.proper .string value hstring
  have hle : s.counter.toNat ≤ 9 := by
    by_contra hgt
    have hnone := (hs.passed s.counter h.rbtCnt (by omega)).2.2 (by omega)
    exact nomatch hstring.symm.trans hnone
  rw [StringRight, if_pos hle, hstring, hproper]

theorem Loaded.stringRight_of_none {s : Board} (h : Loaded s) (hs : Durable maxReboot s.nvs)
    (hstring : s.nvs .string = none) (hne : s.counter.toNat ≠ 0) : StringRight s := by
  have hgt : ¬ s.counter.toNat ≤ 9 := by
    intro hle
    have hsome := (hs.passed s.counter h.rbtCnt (by omega)).2.1 hle
    exact nomatch hstring.symm.trans hsome
  rw [StringRight, if_neg hgt, hstring]

theorem toNat_eq_iff {c : UInt32} {n : Nat} (hn : n < UInt32.size) :
    c.toNat = n ↔ c = UInt32.ofNat n := by
  have hof : (UInt32.ofNat n).toNat = n := UInt32.toNat_ofNat_of_lt hn
  exact ⟨fun h => UInt32.toNat_inj.mp (h.trans hof.symm), fun h => h ▸ hof⟩

theorem Loaded.goto {s : Board} (h : Loaded s) (pc : Pc) : Loaded { s with pc } :=
  ⟨h.address, h.key, h.rbtCnt⟩

/-- The string and the long item are not among those that are loaded. -/
theorem Loaded.set {s : Board} (h : Loaded s) (nvs' : Nvs) {item : Item}
    (hitem : item = .string ∨ item = .long)
    (hnvs : ∀ other, other ≠ item → nvs' other = s.nvs other) (pc : Pc) :
    Loaded { s with nvs := nvs', pc } := by
  have hne : Item.address ≠ item ∧ Item.key ≠ item ∧ Item.rbtCnt ≠ item := by
    rcases hitem with rfl | rfl <;> decide
  exact ⟨(hnvs _ hne.1).trans h.address, (hnvs _ hne.2.1).trans h.key,
    (hnvs _ hne.2.2).trans h.rbtCnt⟩

/-- A step from here leads to a sound state, and changes the store as it may. -/
def Good (maxReboot : Nat) (s : Board) : Prop :=
  Sound maxReboot (next maxReboot s) ∧ Kept maxReboot s.nvs (next maxReboot s).nvs

section

variable {counter : UInt32}

theorem good_readAddress (h : Sound maxReboot ⟨nvs, .readAddress, counter⟩) :
    Good maxReboot ⟨nvs, .readAddress, counter⟩ := by
  obtain rfl : counter = 0 := h.here
  refine ⟨⟨h.durable, ?_⟩, kept_refl maxReboot nvs⟩
  rcases nvsRead_cases h.durable .address with ⟨value, hvalue, hproper, hrc, -⟩ | ⟨-, hrc⟩
  · obtain rfl : value = addressValue := hproper
    simp only [next, if_pos hrc]
    exact ⟨rfl, hvalue⟩
  · simp only [next, if_neg hrc]
    rfl

theorem good_readKey (h : Sound maxReboot ⟨nvs, .readKey, counter⟩) :
    Good maxReboot ⟨nvs, .readKey, counter⟩ := by
  obtain ⟨rfl, haddress⟩ : counter = 0 ∧ nvs .address = some addressValue := h.here
  refine ⟨⟨h.durable, ?_⟩, kept_refl maxReboot nvs⟩
  rcases nvsRead_cases h.durable .key with ⟨value, hvalue, hproper, hrc, -⟩ | ⟨-, hrc⟩
  · obtain rfl : value = keyValue := hproper
    simp only [next, if_pos hrc]
    exact ⟨rfl, haddress, hvalue⟩
  · simp only [next, if_neg hrc]
    exact ⟨rfl, haddress⟩

/-- The address and the key are written whatever the counter is. -/
theorem passed_write (h : Passed nvs) (hitem : item = .address ∨ item = .key)
    (value : List Byte) : Passed (nvsWrite nvs item value) := by
  intro c hc hpos
  have hne : Item.rbtCnt ≠ item ∧ Item.long ≠ item ∧ Item.string ≠ item := by
    rcases hitem with rfl | rfl <;> decide
  rw [nvsWrite_of_ne hne.1] at hc
  rw [nvsWrite_of_ne hne.2.1, nvsWrite_of_ne hne.2.2]
  exact h c hc hpos

theorem good_writeAddress (h : Sound maxReboot ⟨nvs, .writeAddress, counter⟩) :
    Good maxReboot ⟨nvs, .writeAddress, counter⟩ := by
  obtain rfl : counter = 0 := h.here
  have hproper : Item.address.Proper maxReboot addressValue := rfl
  have hpassed := passed_write h.durable.passed (Or.inl rfl) addressValue
  exact ⟨⟨h.durable.write hproper hpassed, rfl, nvsWrite_self nvs .address addressValue⟩,
    h.durable.kept_write hproper (by decide)⟩

theorem good_writeKey (h : Sound maxReboot ⟨nvs, .writeKey, counter⟩) :
    Good maxReboot ⟨nvs, .writeKey, counter⟩ := by
  obtain ⟨rfl, haddress⟩ : counter = 0 ∧ nvs .address = some addressValue := h.here
  have hproper : Item.key.Proper maxReboot keyValue := rfl
  have hpassed := passed_write h.durable.passed (Or.inr rfl) keyValue
  have hkept : nvsWrite nvs .key keyValue .address = some addressValue := by
    rw [nvsWrite_of_ne (by decide), haddress]
  exact ⟨⟨h.durable.write hproper hpassed, rfl, hkept, nvsWrite_self nvs .key keyValue⟩,
    h.durable.kept_write hproper (by decide)⟩

theorem good_readCounter (h : Sound maxReboot ⟨nvs, .readCounter, counter⟩) :
    Good maxReboot ⟨nvs, .readCounter, counter⟩ := by
  obtain ⟨rfl, haddress, hkey⟩ :
    counter = 0 ∧ nvs .address = some addressValue ∧ nvs .key = some keyValue := h.here
  rcases nvsRead_cases h.durable .rbtCnt with ⟨value, hvalue, hproper, hrc, hread⟩ | ⟨hnone, hrc⟩
  · obtain ⟨c, rfl, -⟩ := hproper
    have hnext : next maxReboot ⟨nvs, .readCounter, 0⟩ = ⟨nvs, .readString, c⟩ := by
      simp only [next, if_pos hrc, hread, counterOf_bytesOf]
    rw [Good, hnext]
    exact ⟨⟨h.durable, haddress, hkey, hvalue⟩, kept_refl maxReboot nvs⟩
  · have hnext : next maxReboot ⟨nvs, .readCounter, 0⟩ = ⟨nvs, .writeCounter, 0⟩ := by
      simp only [next, if_neg hrc]
    rw [Good, hnext]
    exact ⟨⟨h.durable, rfl, haddress, hkey, hnone⟩, kept_refl maxReboot nvs⟩

theorem good_writeCounter (h : Sound maxReboot ⟨nvs, .writeCounter, counter⟩) :
    Good maxReboot ⟨nvs, .writeCounter, counter⟩ := by
  obtain ⟨rfl, haddress, hkey, hnone⟩ :
    counter = 0 ∧ nvs .address = some addressValue ∧ nvs .key = some keyValue ∧
      nvs .rbtCnt = none := h.here
  have hproper : Item.rbtCnt.Proper maxReboot (bytesOf 0) := ⟨0, rfl, Nat.zero_le _⟩
  have hnew : nvsWrite nvs .rbtCnt (bytesOf 0) .rbtCnt = some (bytesOf 0) := nvsWrite_self _ _ _
  have hpassed : Passed (nvsWrite nvs .rbtCnt (bytesOf 0)) :=
    Passed.of_counter hnew fun hpos => absurd hpos (Nat.lt_irrefl 0)
  have hstored : storedCounter nvs = none := by rw [storedCounter, hnone]; rfl
  have haddress' : nvsWrite nvs .rbtCnt (bytesOf 0) .address = some addressValue := by
    rw [nvsWrite_of_ne (by decide), haddress]
  have hkey' : nvsWrite nvs .rbtCnt (bytesOf 0) .key = some keyValue := by
    rw [nvsWrite_of_ne (by decide), hkey]
  exact ⟨⟨h.durable.write hproper hpassed, haddress', hkey', hnew⟩,
    kept_count (Or.inr (Or.inl ⟨hstored, rfl⟩))⟩

theorem good_readString (h : Sound maxReboot ⟨nvs, .readString, counter⟩) :
    Good maxReboot ⟨nvs, .readString, counter⟩ := by
  have hloaded : Loaded ⟨nvs, .readString, counter⟩ := h.here
  rcases nvsRead_cases h.durable .string with ⟨value, hvalue, -, hrc, -⟩ | ⟨hnone, hrc⟩
  · by_cases hten : counter = 10
    · have hnext : next maxReboot ⟨nvs, .readString, counter⟩ = ⟨nvs, .deleteString, counter⟩ := by
        simp only [next, if_pos hrc, if_pos hten]
      rw [Good, hnext]
      exact ⟨⟨h.durable, hloaded.goto .deleteString, hten⟩, kept_refl maxReboot nvs⟩
    · have hnext : next maxReboot ⟨nvs, .readString, counter⟩ = ⟨nvs, .readLong, counter⟩ := by
        simp only [next, if_pos hrc, if_neg hten]
      have hne : counter.toNat ≠ 10 := fun h10 => hten ((toNat_eq_iff (by decide)).mp h10)
      rw [Good, hnext]
      exact ⟨⟨h.durable, hloaded.goto .readLong,
        hloaded.stringRight_of_some h.durable hvalue hne⟩, kept_refl maxReboot nvs⟩
  · by_cases hzero : counter = 0
    · have hnext : next maxReboot ⟨nvs, .readString, counter⟩ = ⟨nvs, .writeString, counter⟩ := by
        simp only [next, if_neg hrc, if_pos hzero]
      rw [Good, hnext]
      exact ⟨⟨h.durable, hloaded.goto .writeString, hzero⟩, kept_refl maxReboot nvs⟩
    · have hnext : next maxReboot ⟨nvs, .readString, counter⟩ = ⟨nvs, .readLong, counter⟩ := by
        simp only [next, if_neg hrc, if_neg hzero]
      have hne : counter.toNat ≠ 0 := fun h0 => hzero ((toNat_eq_iff (by decide)).mp h0)
      rw [Good, hnext]
      exact ⟨⟨h.durable, hloaded.goto .readLong,
        hloaded.stringRight_of_none h.durable hnone hne⟩, kept_refl maxReboot nvs⟩

theorem good_deleteString (h : Sound maxReboot ⟨nvs, .deleteString, counter⟩) :
    Good maxReboot ⟨nvs, .deleteString, counter⟩ := by
  obtain ⟨hloaded, rfl⟩ : Loaded ⟨nvs, .deleteString, counter⟩ ∧ counter = 10 := h.here
  have hset := hloaded.set (nvsDelete nvs .string) (Or.inl rfl)
    (fun other hother => nvsDelete_of_ne hother) .readLong
  have hlong : nvsDelete nvs .string .long = some longValue := by
    rw [nvsDelete_of_ne (by decide)]
    exact (h.durable.passed 10 hloaded.rbtCnt (by decide)).1
  have hle : ¬ (10 : UInt32).toNat ≤ 9 := by decide
  have hge : ¬ 11 ≤ (10 : UInt32).toNat := by decide
  have hpassed : Passed (nvsDelete nvs .string) :=
    Passed.of_counter hset.rbtCnt fun _ => ⟨hlong, fun h => absurd h hle, fun h => absurd h hge⟩
  exact ⟨⟨h.durable.delete hpassed, hset, nvsDelete_self nvs .string⟩, kept_delete maxReboot nvs⟩

theorem good_writeString (h : Sound maxReboot ⟨nvs, .writeString, counter⟩) :
    Good maxReboot ⟨nvs, .writeString, counter⟩ := by
  obtain ⟨hloaded, rfl⟩ : Loaded ⟨nvs, .writeString, counter⟩ ∧ counter = 0 := h.here
  have hproper : Item.string.Proper maxReboot stringValue := rfl
  have hset := hloaded.set (nvsWrite nvs .string stringValue) (Or.inl rfl)
    (fun other hother => nvsWrite_of_ne hother) .readLong
  have hpassed : Passed (nvsWrite nvs .string stringValue) :=
    Passed.of_counter hset.rbtCnt fun hpos => absurd hpos (Nat.lt_irrefl 0)
  exact ⟨⟨h.durable.write hproper hpassed, hset, nvsWrite_self nvs .string stringValue⟩,
    h.durable.kept_write hproper (by decide)⟩

theorem good_readLong (h : Sound maxReboot ⟨nvs, .readLong, counter⟩) :
    Good maxReboot ⟨nvs, .readLong, counter⟩ := by
  obtain ⟨hloaded, hstring⟩ :
    Loaded ⟨nvs, .readLong, counter⟩ ∧ StringRight ⟨nvs, .readLong, counter⟩ := h.here
  rcases nvsRead_cases h.durable .long with ⟨value, hvalue, hproper, hrc, -⟩ | ⟨hnone, hrc⟩
  · obtain rfl : value = longValue := hproper
    have hnext : next maxReboot ⟨nvs, .readLong, counter⟩ = ⟨nvs, .checked, counter⟩ := by
      simp only [next, if_pos hrc]
    rw [Good, hnext]
    exact ⟨⟨h.durable, hloaded.goto .checked, hstring, hvalue⟩, kept_refl maxReboot nvs⟩
  · have hzero : counter = 0 := by
      by_contra hne
      have hpos : counter.toNat ≠ 0 := fun h0 => hne ((toNat_eq_iff (by decide)).mp h0)
      have hsome := (h.durable.passed counter hloaded.rbtCnt (by omega)).1
      exact nomatch hnone.symm.trans hsome
    have hnext : next maxReboot ⟨nvs, .readLong, counter⟩ = ⟨nvs, .writeLong, counter⟩ := by
      simp only [next, if_neg hrc, if_pos hzero]
    rw [Good, hnext]
    exact ⟨⟨h.durable, hloaded.goto .writeLong, hstring, hzero⟩, kept_refl maxReboot nvs⟩

theorem good_writeLong (h : Sound maxReboot ⟨nvs, .writeLong, counter⟩) :
    Good maxReboot ⟨nvs, .writeLong, counter⟩ := by
  obtain ⟨hloaded, hstring, rfl⟩ : Loaded ⟨nvs, .writeLong, counter⟩ ∧
    StringRight ⟨nvs, .writeLong, counter⟩ ∧ counter = 0 := h.here
  have hproper : Item.long.Proper maxReboot longValue := rfl
  have hset := hloaded.set (nvsWrite nvs .long longValue) (Or.inr rfl)
    (fun other hother => nvsWrite_of_ne hother) .checked
  have hpassed : Passed (nvsWrite nvs .long longValue) :=
    Passed.of_counter hset.rbtCnt fun hpos => absurd hpos (Nat.lt_irrefl 0)
  have hstring' : nvsWrite nvs .long longValue .string = some stringValue := by
    rw [nvsWrite_of_ne (by decide)]
    exact hstring
  exact ⟨⟨h.durable.write hproper hpassed, hset, hstring', nvsWrite_self nvs .long longValue⟩,
    h.durable.kept_write hproper (by decide)⟩

theorem good_checked (h : Sound maxReboot ⟨nvs, .checked, counter⟩) :
    Good maxReboot ⟨nvs, .checked, counter⟩ := by
  obtain ⟨hloaded, hstring, hlong⟩ : Loaded ⟨nvs, .checked, counter⟩ ∧
    StringRight ⟨nvs, .checked, counter⟩ ∧ nvs .long = some longValue := h.here
  have hle : counter.toNat ≤ maxReboot := hloaded.counter_le h.durable
  by_cases hlt : counter.toNat < maxReboot
  · have hnext : next maxReboot ⟨nvs, .checked, counter⟩ = ⟨nvs, .increment, counter⟩ := by
      simp only [next, if_pos hlt]
    rw [Good, hnext]
    exact ⟨⟨h.durable, hloaded.goto .increment, hstring, hlong, hlt⟩, kept_refl maxReboot nvs⟩
  · have hnext : next maxReboot ⟨nvs, .checked, counter⟩ = ⟨nvs, .reset, counter⟩ := by
      simp only [next, if_neg hlt]
    have heq : counter.toNat = maxReboot := by omega
    rw [Good, hnext]
    exact ⟨⟨h.durable, hloaded.goto .reset, heq⟩, kept_refl maxReboot nvs⟩

/-- The next boot finds what it needs, also past 9 and past 10. -/
theorem good_increment (h : Sound maxReboot ⟨nvs, .increment, counter⟩) :
    Good maxReboot ⟨nvs, .increment, counter⟩ := by
  obtain ⟨hloaded, hstring, hlong, hlt⟩ : Loaded ⟨nvs, .increment, counter⟩ ∧
    StringRight ⟨nvs, .increment, counter⟩ ∧ nvs .long = some longValue ∧
      counter.toNat < maxReboot := h.here
  have hbound := counter.toNat_lt
  have hnat : (counter + 1).toNat = (counter.toNat + 1) % 2 ^ 32 := UInt32.toNat_add counter 1
  have hproper : Item.rbtCnt.Proper maxReboot (bytesOf (counter + 1)) :=
    ⟨counter + 1, rfl, by omega⟩
  have hstored : storedCounter nvs = some counter := hloaded.storedCounter
  have hstring' : nvs .string = if counter.toNat ≤ 9 then some stringValue else none := hstring
  have hpassed : Passed (nvsWrite nvs .rbtCnt (bytesOf (counter + 1))) := by
    refine Passed.of_counter (nvsWrite_self nvs .rbtCnt _) fun hpos => ?_
    rw [nvsWrite_of_ne (by decide), nvsWrite_of_ne (by decide), hstring']
    refine ⟨hlong, fun hle => if_pos ?_, fun hge => if_neg ?_⟩ <;> omega
  exact ⟨⟨h.durable.write hproper hpassed, trivial⟩,
    kept_count (Or.inr (Or.inr (Or.inl ⟨counter, hstored, rfl, hlt⟩)))⟩

theorem good_reset (h : Sound maxReboot ⟨nvs, .reset, counter⟩) :
    Good maxReboot ⟨nvs, .reset, counter⟩ := by
  obtain ⟨hloaded, heq⟩ : Loaded ⟨nvs, .reset, counter⟩ ∧ counter.toNat = maxReboot := h.here
  have hproper : Item.rbtCnt.Proper maxReboot (bytesOf 0) := ⟨0, rfl, Nat.zero_le _⟩
  have hstored : storedCounter nvs = some counter := hloaded.storedCounter
  have hpassed : Passed (nvsWrite nvs .rbtCnt (bytesOf 0)) :=
    Passed.of_counter (nvsWrite_self nvs .rbtCnt _) fun hpos => absurd hpos (Nat.lt_irrefl 0)
  exact ⟨⟨h.durable.write hproper hpassed, trivial⟩,
    kept_count (Or.inr (Or.inr (Or.inr ⟨counter, hstored, rfl, heq⟩)))⟩

end

theorem sound_boot (h : Durable maxReboot nvs) : Sound maxReboot (boot nvs) := ⟨h, rfl⟩

theorem good_of_sound {s : Board} (h : Sound maxReboot s) : Good maxReboot s := by
  obtain ⟨nvs, pc, counter⟩ := s
  cases pc with
  | readAddress => exact good_readAddress h
  | writeAddress => exact good_writeAddress h
  | readKey => exact good_readKey h
  | writeKey => exact good_writeKey h
  | readCounter => exact good_readCounter h
  | writeCounter => exact good_writeCounter h
  | readString => exact good_readString h
  | deleteString => exact good_deleteString h
  | writeString => exact good_writeString h
  | readLong => exact good_readLong h
  | writeLong => exact good_writeLong h
  | checked => exact good_checked h
  | increment => exact good_increment h
  | reset => exact good_reset h
  | reboot => exact ⟨sound_boot h.durable, kept_refl maxReboot nvs⟩
  | ended => exact ⟨h, kept_refl maxReboot nvs⟩

theorem step_spec {s : Board} (h : Sound maxReboot s) (e : Event) :
    Sound maxReboot (step maxReboot s e) ∧ Kept maxReboot s.nvs (step maxReboot s e).nvs := by
  cases e with
  | run => exact good_of_sound h
  | powerLoss => exact ⟨sound_boot h.durable, kept_refl maxReboot s.nvs⟩

theorem Sound.checked {s : Board} (h : Sound maxReboot s) : Checked s := by
  intro hpc
  obtain ⟨nvs, pc, counter⟩ := s
  obtain rfl : pc = .checked := hpc
  obtain ⟨hloaded, hstring, hlong⟩ : Loaded ⟨nvs, .checked, counter⟩ ∧
    StringRight ⟨nvs, .checked, counter⟩ ∧ nvs .long = some longValue := h.here
  exact ⟨hloaded.address, hloaded.key, hloaded.rbtCnt, hlong, hstring⟩

end

end NvsSample
end ZephyrSamples
