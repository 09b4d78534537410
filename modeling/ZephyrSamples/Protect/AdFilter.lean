import ZephyrSamples.Lib.Ltv
import ZephyrSamples.Lib.Message

/-!
# The advertisement filter

`is_tended_protect` of the central's `ble.c`.  The loop goes from one length byte to the next and
copies names byte by byte, with no look at where the payload or the copy ends, and an empty
structure does not end it. -/

namespace ZephyrSamples
namespace Protect

open Ltv

def btDataNameShortened : UInt8 := 0x08

def btDataNameComplete : UInt8 := 0x09

/-- `"Tended Protect"` -/
def tendedProtect : List UInt8 :=
  [0x54, 0x65, 0x6e, 0x64, 0x65, 0x64, 0x20, 0x50, 0x72, 0x6f, 0x74, 0x65, 0x63, 0x74]

/-- `sizeof(name)` -/
def nameSize : Nat := 20

/-- The locals and `g_addr`, and whether a byte was read from behind the payload or written behind
the end of `name`. -/
structure Scan (Addr : Type) where
  found : Bool := false
  gAddr : Option Addr
  outside : Bool := false
  overrun : Bool := false

/-- The bytes of a C string. -/
def cString (chars : List UInt8) : List UInt8 := chars.takeWhile (· ≠ 0)

variable {Addr : Type}

/-- The loop that copies a name: `x` goes through `n` more bytes, and `name` has been copied. -/
def copyName (ad : Message) : Nat → Nat → List UInt8 → Scan Addr → Scan Addr
  | 0, _, _, s => s
  | n + 1, x, name, s =>
    -- `name[y] = ad->data[x]` and then `name[++y] = 0`
    let name := name ++ [ad.mem x]
    copyName ad n (x + 1) name
      { s with
        found := s.found || decide (cString name = tendedProtect)
        outside := s.outside || ad.outside x 1
        overrun := s.overrun || decide (nameSize ≤ name.length) }

def isName (dataType : UInt8) : Prop :=
  dataType = btDataNameShortened ∨ dataType = btDataNameComplete

instance (dataType : UInt8) : Decidable (isName dataType) :=
  inferInstanceAs (Decidable (_ ∨ _))

/-- What is done with a name of so many bytes. -/
def scanName (ad : Message) (addr : Addr) (s : Scan Addr) (x n : Nat) : Scan Addr :=
  let s := copyName ad n x [] s
  if s.found then { s with gAddr := some addr } else s

/-- One turn of the outer loop. -/
def scanStructure (ad : Message) (addr : Addr) (s : Scan Addr) (count : Nat) : Scan Addr :=
  let len := (ad.mem count).toNat
  let dataType := ad.mem (count + 1)
  let s := { s with outside := s.outside || ad.outside count 1 || ad.outside (count + 1) 1 }
  if isName dataType then scanName ad addr s (count + 2) (len - 1) else s

/-- The outer loop. -/
def scanFrom (ad : Message) (addr : Addr) (s : Scan Addr) (count : Nat) : Scan Addr :=
  if count < ad.len then
    scanFrom ad addr (scanStructure ad addr s count) (count + 2 + (ad.mem count).toNat - 1)
  else s
termination_by ad.len - count

def isTendedProtect (ad : Message) (addr : Addr) (gAddr : Option Addr) : Scan Addr :=
  scanFrom ad addr { gAddr := gAddr } 0

/-! ## The places the loop visits -/

/-- The values of `count` at which the loop reads a length byte, from one of them on. -/
def visited (ad : Message) (count : Nat) : List Nat :=
  if count < ad.len then count :: visited ad (count + 2 + (ad.mem count).toNat - 1) else []
termination_by ad.len - count

/-- The structure here has a type within the payload, and if it is a name, it ends within the
payload and fits `name` with a zero behind it. -/
structure Inside (ad : Message) (count : Nat) : Prop where
  type : count + 1 < ad.len
  name : isName (ad.mem (count + 1)) → 1 < (ad.mem count).toNat →
    count + 1 + (ad.mem count).toNat ≤ ad.len
  room : isName (ad.mem (count + 1)) → (ad.mem count).toNat ≤ nameSize

/-- The structure here is a name that starts with `"Tended Protect"`. -/
def Matches (ad : Message) (count : Nat) : Prop :=
  isName (ad.mem (count + 1)) ∧
    tendedProtect <+: ad.read (count + 2) ((ad.mem count).toNat - 1)

/-- A name of the well-formed prefix starts with `"Tended Protect"`. -/
def Tended (payload : List UInt8) : Prop :=
  ∃ s ∈ structures payload, isName s.1 ∧ tendedProtect <+: s.2

/-- The places before the first empty structure. -/
def early (ad : Message) : List Nat := (visited ad 0).takeWhile fun count => ad.mem count ≠ 0

/-- What the filter is to do with a payload. -/
structure Filters (ad : Message) (s : Scan Addr) : Prop where
  outside : s.outside = false
  overrun : s.overrun = false
  found : s.found = true ↔ Tended (ad.read 0 ad.len)

variable {ad : Message} {addr : Addr} {s : Scan Addr} {n x count : Nat} {name : List UInt8}

/-! ## Copying a name -/

theorem copyName_found : (copyName ad n x name s).found = true ↔
    s.found = true ∨ ∃ k < n, cString (name ++ ad.read x (k + 1)) = tendedProtect := by
  induction n generalizing x name s with
  | zero => simp [copyName]
  | succ n ih =>
    rw [copyName, ih]
    simp only [Bool.or_eq_true, decide_eq_true_eq, List.append_assoc, List.singleton_append,
      ← Message.read_succ]
    constructor
    · rintro ((h | h) | ⟨k, hk, h⟩)
      · exact .inl h
      · exact .inr ⟨0, Nat.succ_pos n, h⟩
      · exact .inr ⟨k + 1, Nat.succ_lt_succ hk, h⟩
    · rintro (h | ⟨k, hk, h⟩)
      · exact .inl (.inl h)
      · cases k with
        | zero => exact .inl (.inr h)
        | succ k => exact .inr ⟨k, Nat.lt_of_succ_lt_succ hk, h⟩

theorem copyName_outside :
    (copyName ad n x name s).outside = (s.outside || ad.outside x n) := by
  induction n generalizing x name s with
  | zero => simp [copyName, Message.outside]
  | succ n ih =>
    rw [copyName, ih, Bool.or_assoc]
    congr 1
    rw [Message.outside, Message.outside, Message.outside, ← Bool.decide_or, decide_eq_decide]
    omega

theorem copyName_overrun : (copyName ad n x name s).overrun =
    (s.overrun || decide (0 < n ∧ nameSize ≤ name.length + n)) := by
  induction n generalizing x name s with
  | zero => simp [copyName]
  | succ n ih =>
    rw [copyName, ih, Bool.or_assoc, List.length_append, List.length_singleton]
    congr 1
    rw [← Bool.decide_or, decide_eq_decide]
    omega

/-- One of the strings compared is `"Tended Protect"` exactly when the name starts with it. -/
theorem exists_cString_iff : (∃ k < n, cString (ad.read x (k + 1)) = tendedProtect) ↔
    tendedProtect <+: ad.read x n := by
  constructor
  · rintro ⟨k, hk, h⟩
    have hcopied : ad.read x (k + 1) <+: ad.read x n := by
      refine ⟨ad.read (x + (k + 1)) (n - (k + 1)), ?_⟩
      rw [Message.read_append, Nat.add_sub_cancel' hk]
    rw [← h]
    exact (List.takeWhile_prefix _).trans hcopied
  · intro h
    have hlen := h.length_le
    rw [Message.length_read] at hlen
    have hlong : 14 ≤ n := hlen
    refine ⟨13, hlong, ?_⟩
    have htake := List.prefix_iff_eq_take.mp h
    rw [Message.take_read] at htake
    have hmin : min tendedProtect.length n = 13 + 1 := Nat.min_eq_left hlong
    rw [hmin] at htake
    rw [← htake]
    rfl

/-! ## One structure -/

instance : DecidablePred (Matches ad) := fun _ => inferInstanceAs (Decidable (_ ∧ _))

/-- The bytes read here that are behind the payload. -/
def readsOutside (ad : Message) (count : Nat) : Bool :=
  ad.outside count 1 || ad.outside (count + 1) 1 ||
    (decide (isName (ad.mem (count + 1))) && ad.outside (count + 2) ((ad.mem count).toNat - 1))

def copiesOver (ad : Message) (count : Nat) : Bool :=
  decide (isName (ad.mem (count + 1)) ∧ nameSize < (ad.mem count).toNat)

theorem scanName_found : (scanName ad addr s x n).found = true ↔
    s.found = true ∨ tendedProtect <+: ad.read x n := by
  rw [← exists_cString_iff]
  unfold scanName
  dsimp only
  split <;> exact copyName_found

theorem scanName_outside : (scanName ad addr s x n).outside = (s.outside || ad.outside x n) := by
  unfold scanName
  dsimp only
  split <;> exact copyName_outside

theorem scanName_overrun : (scanName ad addr s x n).overrun =
    (s.overrun || decide (0 < n ∧ nameSize ≤ n)) := by
  unfold scanName
  dsimp only
  split <;> simp only [copyName_overrun, List.length_nil, Nat.zero_add]

theorem scanStructure_outside :
    (scanStructure ad addr s count).outside = (s.outside || readsOutside ad count) := by
  unfold scanStructure readsOutside
  dsimp only
  split
  case isTrue hname =>
    rw [scanName_outside, decide_eq_true hname, Bool.true_and, Bool.or_assoc, Bool.or_assoc,
      Bool.or_assoc]
  case isFalse hname =>
    rw [decide_eq_false hname, Bool.false_and, Bool.or_false, Bool.or_assoc]

theorem scanStructure_overrun :
    (scanStructure ad addr s count).overrun = (s.overrun || copiesOver ad count) := by
  unfold scanStructure copiesOver
  dsimp only
  split
  case isTrue hname =>
    rw [scanName_overrun]
    congr 1
    rw [decide_eq_decide, and_iff_right hname, nameSize]
    omega
  case isFalse hname => simp [hname]

theorem scanStructure_found :
    (scanStructure ad addr s count).found = (s.found || decide (Matches ad count)) := by
  rw [Bool.eq_iff_iff, Bool.or_eq_true, decide_eq_true_eq]
  unfold scanStructure Matches
  dsimp only
  split
  case isTrue hname => rw [scanName_found, and_iff_right hname]
  case isFalse hname => simp [hname]

/-! ## The loop -/

theorem scanFrom_eq :
    scanFrom ad addr s count = (visited ad count).foldl (scanStructure ad addr) s := by
  fun_induction scanFrom ad addr s count with
  | case1 s count h ih =>
    rw [visited.eq_def, if_pos h]
    exact ih
  | case2 s count h =>
    rw [visited.eq_def, if_neg h]
    rfl

/-- A flag that each step may raise is up in the end if one of them does. -/
theorem foldl_or {σ α : Type} {f : σ → α → σ} (flag : σ → Bool) (raised : α → Bool)
    (h : ∀ s a, flag (f s a) = (flag s || raised a)) (s : σ) (as : List α) :
    flag (as.foldl f s) = (flag s || as.any raised) := by
  induction as generalizing s with
  | nil => exact (Bool.or_false _).symm
  | cons a as ih => rw [List.foldl_cons, ih, h, List.any_cons, Bool.or_assoc]

theorem lt_of_mem_visited {c : Nat} (h : c ∈ visited ad count) : c < ad.len := by
  fun_induction visited ad count with
  | case1 count hcount ih =>
    rcases List.mem_cons.mp h with rfl | h
    · exact hcount
    · exact ih h
  | case2 => exact absurd h List.not_mem_nil

theorem inside_iff (h : count < ad.len) :
    Inside ad count ↔ readsOutside ad count = false ∧ copiesOver ad count = false := by
  have hoff (n k : Nat) : ad.outside n k = false ↔ ¬ (0 < k ∧ ad.len < n + k) :=
    decide_eq_false_iff_not
  simp only [readsOutside, copiesOver, Bool.or_eq_false_iff, hoff, Bool.and_eq_false_imp,
    decide_eq_true_eq, decide_eq_false_iff_not]
  constructor
  · intro hinside
    have htype := hinside.type
    refine ⟨⟨⟨by omega, by omega⟩, fun hname => ?_⟩, fun hover => ?_⟩
    · have hend := hinside.name hname
      omega
    · have hroom := hinside.room hover.1
      omega
  · rintro ⟨⟨⟨_, htype⟩, hend⟩, hroom⟩
    refine ⟨by omega, fun hname hlong => ?_, fun hname => ?_⟩
    · have := hend hname
      omega
    · exact Nat.not_lt.mp fun h => hroom ⟨hname, h⟩

/-- What the filter comes to, by the places it visits. -/
theorem isTendedProtect_eq (ad : Message) (addr : Addr) (gAddr : Option Addr) :
    (isTendedProtect ad addr gAddr).outside = (visited ad 0).any (readsOutside ad) ∧
    (isTendedProtect ad addr gAddr).overrun = (visited ad 0).any (copiesOver ad) ∧
    (isTendedProtect ad addr gAddr).found = (visited ad 0).any fun c => decide (Matches ad c) := by
  unfold isTendedProtect
  rw [scanFrom_eq]
  exact ⟨foldl_or Scan.outside (readsOutside ad) (fun _ _ => scanStructure_outside) _ _,
    foldl_or Scan.overrun (copiesOver ad) (fun _ _ => scanStructure_overrun) _ _,
    foldl_or Scan.found (fun c => decide (Matches ad c)) (fun _ _ => scanStructure_found) _ _⟩

/-- Where all places are inside, the names of the well-formed prefix are those of the places before
the first empty structure. -/
theorem tended_iff (h : ∀ c ∈ visited ad count, Inside ad c) :
    Tended (ad.read count (ad.len - count)) ↔
      ∃ c ∈ (visited ad count).takeWhile (fun c => ad.mem c ≠ 0), Matches ad c := by
  fun_induction visited ad count with
  | case1 count hcount ih =>
    have hinside := h count List.mem_cons_self
    have htype := hinside.type
    obtain ⟨k, hk⟩ : ∃ k, ad.len - count = k + 1 + 1 := ⟨ad.len - count - 2, by omega⟩
    rw [hk, Message.read_succ, Message.read_succ]
    by_cases hempty : ad.mem count = 0
    · rw [Tended, structures_of_malformed (.inl hempty),
        List.takeWhile_cons_of_neg (by simp [hempty])]
      simp
    · have hpos : (ad.mem count).toNat ≠ 0 := fun h => hempty (UInt8.toNat.inj h)
      rw [List.takeWhile_cons_of_pos (by simp [hempty])]
      by_cases hend : count + 1 + (ad.mem count).toNat ≤ ad.len
      · have hvalue : (ad.read (count + 1 + 1) k).take ((ad.mem count).toNat - 1) =
            ad.read (count + 2) ((ad.mem count).toNat - 1) := by
          rw [Message.take_read, Nat.min_eq_left (by omega)]
        have hrest : (ad.read (count + 1 + 1) k).drop ((ad.mem count).toNat - 1) =
            ad.read (count + 2 + (ad.mem count).toNat - 1)
              (ad.len - (count + 2 + (ad.mem count).toNat - 1)) := by
          rw [Message.drop_read]
          congr 1 <;> omega
        have hlong : (ad.mem count).toNat ≤ (ad.read (count + 1 + 1) k).length + 1 := by
          rw [Message.length_read]
          omega
        have hnext := ih fun c hc => h c (List.mem_cons_of_mem count hc)
        rw [Tended, structures_cons hempty hlong, hvalue, hrest]
        simp only [List.mem_cons, exists_eq_or_imp]
        exact or_congr Iff.rfl hnext
      · have hlast : visited ad (count + 2 + (ad.mem count).toNat - 1) = [] := by
          rw [visited.eq_def, if_neg (by omega)]
        have hlong : (ad.read (count + 1 + 1) k).length + 1 < (ad.mem count).toNat := by
          rw [Message.length_read]
          omega
        have hno : ¬ Matches ad count := fun hmatch =>
          hend (hinside.name hmatch.1 (by omega))
        rw [Tended, structures_of_malformed (.inr hlong), hlast]
        simp [hno]
  | case2 count hcount =>
    rw [Nat.sub_eq_zero_of_le (Nat.not_lt.mp hcount), Message.read_zero, Tended, structures_nil]
    simp

/-- The filter is right exactly when the structures it visits are inside, and no name behind an
empty structure is the first that matches. -/
theorem isTendedProtect_filters_iff (ad : Message) (addr : Addr) (gAddr : Option Addr) :
    Filters ad (isTendedProtect ad addr gAddr) ↔
      (∀ c ∈ visited ad 0, Inside ad c) ∧
        ((∃ c ∈ visited ad 0, Matches ad c) → ∃ c ∈ early ad, Matches ad c) := by
  obtain ⟨houtside, hover, hfound⟩ := isTendedProtect_eq ad addr gAddr
  have hplaces : (∀ c ∈ visited ad 0, Inside ad c) ↔
      (isTendedProtect ad addr gAddr).outside = false ∧
        (isTendedProtect ad addr gAddr).overrun = false := by
    rw [houtside, hover, List.any_eq_false, List.any_eq_false, ← forall₂_and]
    refine forall₂_congr fun c hc => ?_
    rw [inside_iff (lt_of_mem_visited hc), Bool.not_eq_true, Bool.not_eq_true]
  have hresult : (isTendedProtect ad addr gAddr).found = true ↔
      ∃ c ∈ visited ad 0, Matches ad c := by
    rw [hfound, List.any_eq_true]
    simp only [decide_eq_true_eq]
  have hearly : (∃ c ∈ early ad, Matches ad c) → ∃ c ∈ visited ad 0, Matches ad c :=
    fun ⟨c, hc, h⟩ => ⟨c, (List.takeWhile_prefix _).subset hc, h⟩
  constructor
  · intro h
    have hinside := hplaces.mpr ⟨h.outside, h.overrun⟩
    refine ⟨hinside, fun hmatch => ?_⟩
    exact (tended_iff hinside).mp (h.found.mp (hresult.mpr hmatch))
  · rintro ⟨hinside, hfirst⟩
    obtain ⟨hread, hwrite⟩ := hplaces.mp hinside
    refine ⟨hread, hwrite, ?_⟩
    rw [hresult, ← Nat.sub_zero ad.len, tended_iff hinside]
    exact ⟨hfirst, hearly⟩

/-- A payload of some bytes, with zeros behind it. -/
def payload (bytes : List UInt8) : Message :=
  { mem := fun i => bytes.getD i 0, len := bytes.length }

/-- A payload of one byte, a name that is too long for its copy, and a name behind an empty
structure. -/
theorem isTendedProtect_wrong :
    ¬ Filters (payload [2]) (isTendedProtect (payload [2]) () none) ∧
    ¬ Filters (payload (21 :: 9 :: List.replicate 20 0x41))
      (isTendedProtect (payload (21 :: 9 :: List.replicate 20 0x41)) () none) ∧
    ¬ Filters (payload (0 :: 15 :: 9 :: tendedProtect))
      (isTendedProtect (payload (0 :: 15 :: 9 :: tendedProtect)) () none) := by
  refine ⟨fun h => ?_, fun h => ?_, fun h => ?_⟩
  · exact absurd h.outside (by decide +kernel)
  · exact absurd h.overrun (by decide +kernel)
  · have hnone : structures ((payload (0 :: 15 :: 9 :: tendedProtect)).read 0 17) = [] := by
      decide +kernel
    have hfound :
        (isTendedProtect (payload (0 :: 15 :: 9 :: tendedProtect)) () none).found = true := by
      decide +kernel
    obtain ⟨s, hs, _⟩ := h.found.mp hfound
    exact absurd (hnone ▸ hs) List.not_mem_nil

end Protect
end ZephyrSamples
