import Mathlib.Data.List.Nodup
import Mathlib.Order.Bounds.Basic
import Mathlib.Order.Fin.Basic
import ZephyrSamples.Lib.Runs
import ZephyrSamples.Lib.SlotTable

/-!
# The statistics of the mesh badge

The table of `reel_board.c`, to which `board_add_hello` and `board_add_heartbeat` add the messages
of the other badges.  An entry that a hello creates starts with the extremes 127 and 0, and its
first heartbeat replaces only one of them. -/

namespace ZephyrSamples
namespace MeshBadge

open Runs SlotTable

/-- `STAT_COUNT` -/
def statCountMax : Nat := 128

/-- `BT_MESH_TTL_MAX` -/
def ttlMax : Fin 256 := 0x7f

/-- An address that is not 0, which marks an unused entry. -/
abbrev Address := { addr : BitVec 16 // addr ≠ 0 }

/-- `struct stat` -/
structure Stat where
  addr : BitVec 16
  name : List UInt8
  minHops : Fin 256
  maxHops : Fin 256
  helloCount : Nat
  heartbeatCount : Nat
  deriving DecidableEq, Repr

/-- The initial value of an entry. -/
def Stat.unused : Stat := ⟨0, List.replicate 9 0, ttlMax, 0, 0, 0⟩

/-- `strncpy` with the size of the name less 1, which leaves its last byte as it is. -/
def Stat.copyName (s : Stat) (name : List UInt8) : Stat :=
  let chars := (name.takeWhile (· ≠ 0)).take 8
  { s with name := chars ++ List.replicate (8 - chars.length) 0 ++ s.name.drop 8 }

structure Table where
  stats : List Stat
  statCount : Nat
  deriving DecidableEq, Repr

/-- The loop of the two functions.  `create` and `update` fill an entry, and `update` tells whether
its index is returned; `none` is `NO_UPDATE`. -/
def Table.add (t : Table) (addr : BitVec 16) (create : Stat → Stat) (update : Stat → Stat × Bool) :
    Table × Option Nat :=
  match t.stats.findIdx? (fun s => s.addr = 0 || s.addr = addr) with
  | none => (t, none)
  | some i =>
    let s := t.stats.getD i .unused
    if s.addr = 0 then
      (⟨t.stats.set i (create { s with addr := addr }), t.statCount + 1⟩, some i)
    else ({ t with stats := t.stats.set i (update s).1 }, if (update s).2 then some i else none)

def createHello (name : List UInt8) (s : Stat) : Stat := { s.copyName name with helloCount := 1 }

def updateHello (name : List UInt8) (s : Stat) : Stat × Bool :=
  let s := s.copyName name
  if s.helloCount < 0xffff then ({ s with helloCount := s.helloCount + 1 }, true) else (s, false)

def addHello (t : Table) (addr : BitVec 16) (name : List UInt8) : Table × Option Nat :=
  t.add addr (createHello name) (updateHello name)

def createHeartbeat (hops : Fin 256) (s : Stat) : Stat :=
  { s with heartbeatCount := 1, minHops := hops, maxHops := hops }

/-- The hop count replaces one of the extremes. -/
def Stat.extend (s : Stat) (hops : Fin 256) : Stat :=
  if hops < s.minHops then { s with minHops := hops }
  else if s.maxHops < hops then { s with maxHops := hops }
  else s

def updateHeartbeat (hops : Fin 256) (s : Stat) : Stat × Bool :=
  let s := s.extend hops
  if s.heartbeatCount < 0xffff then ({ s with heartbeatCount := s.heartbeatCount + 1 }, true)
  else (s, false)

def addHeartbeat (t : Table) (addr : BitVec 16) (hops : Fin 256) : Table × Option Nat :=
  t.add addr (createHeartbeat hops) (updateHeartbeat hops)

inductive Msg where
  | hello (addr : Address) (name : List UInt8)
  | heartbeat (addr : Address) (hops : Fin 256)
  deriving DecidableEq

def Msg.addr : Msg → Address
  | .hello addr _ => addr
  | .heartbeat addr _ => addr

/-- The table with the messages it was made from, the newest first. -/
structure Badge where
  table : Table
  heard : List Msg

def Badge.start : Badge := ⟨⟨List.replicate statCountMax .unused, 0⟩, []⟩

/-- `board_add_hello` and `board_add_heartbeat` -/
def Badge.receive (b : Badge) (m : Msg) : Badge where
  table :=
    match m with
    | .hello addr name => (addHello b.table addr name).1
    | .heartbeat addr hops => (addHeartbeat b.table addr hops).1
  heard := m :: b.heard

section Heard

variable (heard : List Msg) (addr : BitVec 16)

/-- The distinct senders, in the order of their first messages. -/
def senders : List Address := arrivals (heard.map Msg.addr)

def hellos : Nat :=
  heard.countP fun
    | .hello a _ => a.val = addr
    | .heartbeat _ _ => false

def heartbeats : Nat :=
  heard.countP fun
    | .hello _ _ => false
    | .heartbeat a _ => a.val = addr

/-- The hop counts of the heartbeats from `addr`. -/
def hops : Set (Fin 256) := { h | ∃ a : Address, a.val = addr ∧ Msg.heartbeat a h ∈ heard }

/-- An entry has the numbers of the messages, and the extremes of the hops if there are any. -/
structure Counts (s : Stat) : Prop where
  hello : s.helloCount = min 65535 (hellos heard s.addr)
  heartbeat : s.heartbeatCount = min 65535 (heartbeats heard s.addr)
  least : 0 < s.heartbeatCount → IsLeast (hops heard s.addr) s.minHops
  greatest : 0 < s.heartbeatCount → IsGreatest (hops heard s.addr) s.maxHops

end Heard

/-- The table as it is to be: a prefix is in use, with an entry for each of the first senders. -/
structure Sound (b : Badge) : Prop where
  used : ∃ used free, b.table.stats = used ++ free ∧ (∀ s ∈ used, s.addr ≠ 0) ∧
    (∀ s ∈ free, s.addr = 0) ∧ (used.map Stat.addr).Nodup ∧ b.table.statCount = used.length
  entry : ∀ a ∈ (senders b.heard).take statCountMax, ∃ s ∈ b.table.stats, s.addr = a
  counts : ∀ s ∈ b.table.stats, s.addr ≠ 0 → Counts b.heard s

/-- The first heartbeat of a sender whose entry a hello has created has 0 or 127 hops. -/
def Careful (b : Badge) (m : Msg) : Prop :=
  ∀ a h, m = .heartbeat a h → a ∈ (senders b.heard).take statCountMax → heartbeats b.heard a = 0 →
    h = 0 ∨ h = ttlMax

variable {heard : List Msg} {m : Msg} {a : Address} {s : Stat} {h : Fin 256} {t : Table} {i : Nat}
  {create : Stat → Stat} {update : Stat → Stat × Bool}

theorem hellos_hello (name : List UInt8) :
    hellos (.hello a name :: heard) a = hellos heard a + 1 :=
  List.countP_cons_of_pos (decide_eq_true rfl)

theorem heartbeats_heartbeat : heartbeats (.heartbeat a h :: heard) a = heartbeats heard a + 1 :=
  List.countP_cons_of_pos (decide_eq_true rfl)

theorem hellos_heartbeat : hellos (.heartbeat a h :: heard) a = hellos heard a :=
  List.countP_cons_of_neg Bool.false_ne_true

theorem heartbeats_hello (name : List UInt8) :
    heartbeats (.hello a name :: heard) a = heartbeats heard a :=
  List.countP_cons_of_neg Bool.false_ne_true

theorem hops_hello (name : List UInt8) : hops (.hello a name :: heard) a = hops heard a := by
  ext h
  simp [hops]

theorem hops_heartbeat : hops (.heartbeat a h :: heard) a = insert h (hops heard a) := by
  ext h'
  simp only [hops, List.mem_cons, Msg.heartbeat.injEq, Set.mem_ofPred_eq, Set.mem_insert_iff]
  constructor
  · rintro ⟨a', ha', ⟨_, rfl⟩ | hmem⟩
    · exact Or.inl rfl
    · exact Or.inr ⟨a', ha', hmem⟩
  · rintro (rfl | ⟨a', ha', hmem⟩)
    · exact ⟨a, rfl, Or.inl ⟨rfl, rfl⟩⟩
    · exact ⟨a', ha', Or.inr hmem⟩

/-- A message of another sender changes nothing. -/
theorem heard_of_ne (heard : List Msg) (hne : m.addr ≠ a) : hellos (m :: heard) a = hellos heard a ∧
    heartbeats (m :: heard) a = heartbeats heard a ∧ hops (m :: heard) a = hops heard a := by
  cases m with
  | hello b name =>
    have hb : b.val ≠ a.val := fun hval => hne (Subtype.ext hval)
    refine ⟨List.countP_cons_of_neg (by simp [hb]),
      List.countP_cons_of_neg Bool.false_ne_true, ?_⟩
    ext h
    simp [hops]
  | heartbeat b hops' =>
    have hb : b.val ≠ a.val := fun hval => hne (Subtype.ext hval)
    refine ⟨List.countP_cons_of_neg Bool.false_ne_true,
      List.countP_cons_of_neg (by simp [hb]), ?_⟩
    ext h
    simp only [hops, List.mem_cons, Msg.heartbeat.injEq, Set.mem_ofPred_eq]
    constructor
    · rintro ⟨a', ha', ⟨rfl, _⟩ | hmem⟩
      · exact absurd ha' hb
      · exact ⟨a', ha', hmem⟩
    · rintro ⟨a', ha', hmem⟩
      exact ⟨a', ha', Or.inr hmem⟩

theorem hops_eq_empty (hnone : heartbeats heard a = 0) : hops heard a = ∅ := by
  have hzero := List.countP_eq_zero.mp hnone
  refine Set.eq_empty_iff_forall_notMem.mpr fun h => ?_
  rintro ⟨a', ha', hmem⟩
  exact hzero _ hmem (decide_eq_true ha')

theorem not_heard (hnew : a ∉ senders heard) : hellos heard a = 0 ∧ heartbeats heard a = 0 := by
  have hne : ∀ m ∈ heard, m.addr.val ≠ a.val := fun m hm hval =>
    hnew (mem_arrivals.mpr (List.mem_map.mpr ⟨m, hm, Subtype.ext hval⟩))
  constructor
  · refine List.countP_eq_zero.mpr fun m hm => ?_
    cases m with
    | hello b name => exact fun hb => hne _ hm (of_decide_eq_true hb)
    | heartbeat b hops => exact Bool.false_ne_true
  · refine List.countP_eq_zero.mpr fun m hm => ?_
    cases m with
    | hello b name => exact Bool.false_ne_true
    | heartbeat b hops => exact fun hb => hne _ hm (of_decide_eq_true hb)

/-- The entry of the sender `a`.  Without a heartbeat its extremes are the initial ones. -/
structure Entry (heard : List Msg) (a : Address) (s : Stat) : Prop where
  addr : s.addr = a
  hello : s.helloCount = min 65535 (hellos heard a)
  heartbeat : s.heartbeatCount = min 65535 (heartbeats heard a)
  initial : heartbeats heard a = 0 → s.minHops = ttlMax ∧ s.maxHops = 0
  extremes : 0 < heartbeats heard a →
    IsLeast (hops heard a) s.minHops ∧ IsGreatest (hops heard a) s.maxHops

theorem Entry.counts (he : Entry heard a s) : Counts heard s := by
  have hpos : 0 < s.heartbeatCount → 0 < heartbeats heard a := by
    rw [he.heartbeat]
    omega
  constructor
  case hello => rw [he.addr]; exact he.hello
  case heartbeat => rw [he.addr]; exact he.heartbeat
  case least => rw [he.addr]; exact fun h => (he.extremes (hpos h)).1
  case greatest => rw [he.addr]; exact fun h => (he.extremes (hpos h)).2

theorem Entry.cons_of_ne (hne : m.addr ≠ a) (he : Entry heard a s) : Entry (m :: heard) a s := by
  obtain ⟨hhello, hheartbeat, hhops⟩ := heard_of_ne heard hne
  obtain ⟨haddr, hello, heartbeat, initial, extremes⟩ := he
  rw [← hhello] at hello
  rw [← hheartbeat] at heartbeat initial extremes
  rw [← hhops] at extremes
  exact ⟨haddr, hello, heartbeat, initial, extremes⟩

theorem createHello_entry (hnew : a ∉ senders heard) (name : List UInt8) :
    Entry (.hello a name :: heard) a (createHello name { Stat.unused with addr := a }) := by
  obtain ⟨hhello, hheartbeat⟩ := not_heard hnew
  constructor
  case addr => rfl
  case hello => rw [hellos_hello, hhello]; rfl
  case heartbeat => rw [heartbeats_hello, hheartbeat]; rfl
  case initial => exact fun _ => ⟨rfl, rfl⟩
  case extremes =>
    rw [heartbeats_hello, hheartbeat]
    exact fun h => absurd h (Nat.lt_irrefl 0)

theorem createHeartbeat_entry (hnew : a ∉ senders heard) (h : Fin 256) :
    Entry (.heartbeat a h :: heard) a (createHeartbeat h { Stat.unused with addr := a }) := by
  obtain ⟨hhello, hheartbeat⟩ := not_heard hnew
  constructor
  case addr => rfl
  case hello => rw [hellos_heartbeat, hhello]; rfl
  case heartbeat => rw [heartbeats_heartbeat, hheartbeat]; rfl
  case initial =>
    rw [heartbeats_heartbeat]
    exact fun h => absurd h (Nat.succ_ne_zero _)
  case extremes =>
    rw [hops_heartbeat, hops_eq_empty hheartbeat, insert_empty_eq]
    exact fun _ => ⟨isLeast_singleton, isGreatest_singleton⟩

theorem count_capped {n c : Nat} (hn : n = min 65535 c) :
    (if n < 0xffff then n + 1 else n) = min 65535 (c + 1) := by
  split
  case isTrue h => omega
  case isFalse h => omega

theorem updateHello_fst (name : List UInt8) (s : Stat) : (updateHello name s).1 =
    { s.copyName name with
      helloCount := if s.helloCount < 0xffff then s.helloCount + 1 else s.helloCount } := by
  show (ite ((s.copyName name).helloCount < 0xffff) _ _ : Stat × Bool).1 = _
  show (ite (s.helloCount < 0xffff) _ _ : Stat × Bool).1 = _
  split
  case isTrue => rfl
  case isFalse => rfl

theorem updateHello_entry (he : Entry heard a s) (name : List UInt8) :
    Entry (.hello a name :: heard) a (updateHello name s).1 := by
  rw [updateHello_fst, count_capped he.hello]
  constructor
  case addr => exact he.addr
  case hello => rw [hellos_hello]
  case heartbeat => rw [heartbeats_hello]; exact he.heartbeat
  case initial => rw [heartbeats_hello]; exact he.initial
  case extremes => rw [heartbeats_hello, hops_hello]; exact he.extremes

theorem extend_minHops (s : Stat) (h : Fin 256) : (s.extend h).minHops = min h s.minHops := by
  rw [Stat.extend]
  split
  case isTrue hlow => exact (min_eq_left hlow.le).symm
  case isFalse hlow =>
    rw [min_eq_right (not_lt.mp hlow)]
    split
    case isTrue => rfl
    case isFalse => rfl

theorem extend_maxHops_of_le (hle : s.minHops ≤ s.maxHops) (h : Fin 256) :
    (s.extend h).maxHops = max h s.maxHops := by
  rw [Stat.extend]
  split
  case isTrue hlow => exact (max_eq_right (hlow.le.trans hle)).symm
  case isFalse hlow =>
    split
    case isTrue hhigh => exact (max_eq_left hhigh.le).symm
    case isFalse hhigh => exact (max_eq_right (not_lt.mp hhigh)).symm

/-- From the initial extremes both become `h` only if it is one of them. -/
theorem extend_initial (hmin : s.minHops = ttlMax) (hmax : s.maxHops = 0) :
    ((s.extend h).minHops = h ∧ (s.extend h).maxHops = h) ↔ h = 0 ∨ h = ttlMax := by
  rw [extend_minHops, Stat.extend, hmin]
  by_cases hlow : h < ttlMax
  · rw [if_pos hlow, min_eq_left hlow.le]
    show h = h ∧ s.maxHops = h ↔ _
    rw [hmax]
    exact ⟨fun heq => Or.inl heq.2.symm, fun heq => ⟨rfl, (heq.resolve_right hlow.ne).symm⟩⟩
  · have hzero : 0 < ttlMax := by decide
    have hhigh : s.maxHops < h := hmax ▸ hzero.trans_le (not_lt.mp hlow)
    rw [if_neg hlow, if_pos hhigh, min_eq_right (not_lt.mp hlow)]
    show ttlMax = h ∧ h = h ↔ _
    have hpos : h ≠ 0 := fun hzero => hlow (hzero ▸ by decide)
    exact ⟨fun heq => Or.inr heq.1.symm, fun heq => ⟨(heq.resolve_left hpos).symm, rfl⟩⟩

theorem extend_frame (s : Stat) (h : Fin 256) : (s.extend h).addr = s.addr ∧
    (s.extend h).helloCount = s.helloCount ∧ (s.extend h).heartbeatCount = s.heartbeatCount := by
  rw [Stat.extend]
  split
  case isTrue => exact ⟨rfl, rfl, rfl⟩
  case isFalse =>
    split
    case isTrue => exact ⟨rfl, rfl, rfl⟩
    case isFalse => exact ⟨rfl, rfl, rfl⟩

theorem updateHeartbeat_fst (h : Fin 256) (s : Stat) : (updateHeartbeat h s).1 =
    { s.extend h with
      heartbeatCount :=
        if s.heartbeatCount < 0xffff then s.heartbeatCount + 1 else s.heartbeatCount } := by
  show (ite ((s.extend h).heartbeatCount < 0xffff) _ _ : Stat × Bool).1 = _
  obtain ⟨_, _, hcount⟩ := extend_frame s h
  rw [hcount]
  split
  case isTrue => rfl
  case isFalse => rw [← hcount]

/-- The first heartbeat is the one that the update can get wrong. -/
theorem updateHeartbeat_entry (he : Entry heard a s)
    (hfirst : heartbeats heard a = 0 → h = 0 ∨ h = ttlMax) :
    Entry (.heartbeat a h :: heard) a (updateHeartbeat h s).1 := by
  obtain ⟨haddr, hhello, _⟩ := extend_frame s h
  rw [updateHeartbeat_fst, count_capped he.heartbeat]
  constructor
  case addr => exact haddr.trans he.addr
  case hello => rw [hellos_heartbeat]; exact hhello.trans he.hello
  case heartbeat => rw [heartbeats_heartbeat]
  case initial =>
    rw [heartbeats_heartbeat]
    exact fun hzero => absurd hzero (Nat.succ_ne_zero _)
  case extremes =>
    intro _
    rw [hops_heartbeat]
    show IsLeast _ (s.extend h).minHops ∧ IsGreatest _ (s.extend h).maxHops
    rcases Nat.eq_zero_or_pos (heartbeats heard a) with hzero | hpos
    · obtain ⟨hmin, hmax⟩ := he.initial hzero
      obtain ⟨hmin', hmax'⟩ := (extend_initial hmin hmax).mpr (hfirst hzero)
      rw [hmin', hmax', hops_eq_empty hzero, insert_empty_eq]
      exact ⟨isLeast_singleton, isGreatest_singleton⟩
    · obtain ⟨hleast, hgreatest⟩ := he.extremes hpos
      rw [extend_minHops, extend_maxHops_of_le (hgreatest.2 hleast.1)]
      exact ⟨hleast.insert h, hgreatest.insert h⟩

/-- Every entry belongs to the sender of its index. -/
structure Inv (b : Badge) : Prop where
  length : b.table.stats.length = statCountMax
  entry : ∀ i a, (senders b.heard)[i]? = some a → i < statCountMax →
    ∃ s, b.table.stats[i]? = some s ∧ Entry b.heard a s
  free : ∀ i, (senders b.heard).length ≤ i → i < statCountMax →
    b.table.stats[i]? = some Stat.unused
  count : b.table.statCount = min statCountMax (senders b.heard).length

theorem start_inv : Inv Badge.start := by
  constructor
  case length => exact List.length_replicate
  case entry => exact fun i a ha => absurd ha (by simp [Badge.start, senders, arrivals])
  case free => exact fun i _ hi => List.getElem?_replicate_of_lt hi
  case count => rfl

variable {b : Badge}

/-- Where the scan for a sender stops, as its predicate is written. -/
theorem stop_iff {s : Stat} {a : Address} :
    (decide (s.addr = 0) || decide (s.addr = a.val)) = true ↔ s.addr = 0 ∨ s.addr = a.val := by
  rw [Bool.or_eq_true, decide_eq_true_iff, decide_eq_true_iff]

theorem Entry.not_stop {a' : Address} (he : Entry heard a' s) (hne : a' ≠ a) :
    ¬ (decide (s.addr = 0) || decide (s.addr = a.val)) = true := by
  rw [stop_iff, he.addr]
  rintro (h0 | hval)
  · exact a'.property h0
  · exact hne (Subtype.ext hval)

/-- What is stored for the sender that arrived so. -/
theorem Inv.entry_of_get (hI : Inv b) (hi : i < (senders b.heard).length) (hlt : i < statCountMax)
    (hs : b.table.stats[i]? = some s) : Entry b.heard (senders b.heard)[i] s := by
  obtain ⟨s', hs', he⟩ := hI.entry i _ (List.getElem?_eq_getElem hi) hlt
  obtain rfl := Option.some.inj (hs'.symm.trans hs)
  exact he

theorem Inv.find_old (hI : Inv b) (hi : (senders b.heard)[i]? = some a) (hlt : i < statCountMax) :
    b.table.stats.findIdx? (fun s => s.addr = 0 || s.addr = a.val) = some i := by
  obtain ⟨s, hs, he⟩ := hI.entry i a hi hlt
  refine findIdx?_eq_some.mpr ⟨⟨s, hs, stop_iff.mpr (Or.inr he.addr)⟩, fun j hj s' hs' => ?_⟩
  have hin := (List.getElem?_eq_some_iff.mp hi).1
  have hjin : j < (senders b.heard).length := Nat.lt_trans hj hin
  refine (hI.entry_of_get hjin (by omega) hs').not_stop fun heq => ?_
  have hji : (senders b.heard)[j]? = (senders b.heard)[i]? := by
    rw [List.getElem?_eq_getElem hjin, hi, heq]
  have := (List.getElem?_inj hjin (nodup_arrivals _)).mp hji
  omega

theorem Inv.find_new (hI : Inv b) (hnew : a ∉ senders b.heard)
    (hlt : (senders b.heard).length < statCountMax) :
    b.table.stats.findIdx? (fun s => s.addr = 0 || s.addr = a.val) =
      some (senders b.heard).length := by
  have hs := hI.free _ (Nat.le_refl _) hlt
  refine findIdx?_eq_some.mpr ⟨⟨_, hs, stop_iff.mpr (Or.inl rfl)⟩, fun j hj s' hs' => ?_⟩
  have he := hI.entry_of_get hj (by omega) hs'
  exact he.not_stop fun heq => hnew (heq ▸ List.getElem_mem hj)

theorem Inv.find_full (hI : Inv b) (hnew : a ∉ (senders b.heard).take statCountMax)
    (hle : statCountMax ≤ (senders b.heard).length) :
    b.table.stats.findIdx? (fun s => s.addr = 0 || s.addr = a.val) = none := by
  refine findIdx?_eq_none.mpr fun j s' hs' => ?_
  have hj := (List.getElem?_eq_some_iff.mp hs').1
  rw [hI.length] at hj
  have he := hI.entry_of_get (by omega) hj hs'
  exact he.not_stop fun heq => hnew (heq ▸ List.mem_take_iff_getElem.mpr ⟨j, by omega, rfl⟩)

/-- An update touches the entry of its sender alone. -/
theorem Inv.add_old (hI : Inv b) (create : Stat → Stat) (update : Stat → Stat × Bool)
    (hi : (senders b.heard)[i]? = some a) (hlt : i < statCountMax) :
    ∃ s, b.table.stats[i]? = some s ∧ Entry b.heard a s ∧
      (b.table.add a create update).1 =
        { b.table with stats := b.table.stats.set i (update s).1 } := by
  obtain ⟨s, hs, he⟩ := hI.entry i a hi hlt
  have hne : ¬ s.addr = 0 := fun h0 => a.property (he.addr.symm.trans h0)
  refine ⟨s, hs, he, ?_⟩
  rw [Table.add, hI.find_old hi hlt]
  show (ite ((b.table.stats.getD i .unused).addr = 0) _ _ : Table × Option Nat).1 = _
  rw [List.getD_eq_getElem?_getD, hs, Option.getD_some, if_neg hne]

theorem Inv.add_new (hI : Inv b) (hnew : a ∉ senders b.heard)
    (hlt : (senders b.heard).length < statCountMax) :
    (b.table.add a create update).1 =
      ⟨b.table.stats.set (senders b.heard).length (create { Stat.unused with addr := a }),
        b.table.statCount + 1⟩ := by
  rw [Table.add, hI.find_new hnew hlt]
  show (ite ((b.table.stats.getD (senders b.heard).length .unused).addr = 0) _ _ :
    Table × Option Nat).1 = _
  rw [List.getD_eq_getElem?_getD, hI.free _ (Nat.le_refl _) hlt, Option.getD_some]
  rfl

theorem Inv.add_full (hI : Inv b) (hnew : a ∉ (senders b.heard).take statCountMax)
    (hle : statCountMax ≤ (senders b.heard).length) :
    (b.table.add a create update).1 = b.table := by
  rw [Table.add, hI.find_full hnew hle]

theorem senders_cons_old (hold : m.addr ∈ senders heard) : senders (m :: heard) = senders heard :=
  arrivals_cons_old hold

theorem senders_cons_new (hnew : m.addr ∉ senders heard) :
    senders (m :: heard) = senders heard ++ [m.addr] :=
  arrivals_cons_new hnew

theorem Inv.add_of_old (hI : Inv b) (hi : (senders b.heard)[i]? = some m.addr)
    (hlt : i < statCountMax)
    (hupdate : ∀ s, Entry b.heard m.addr s → Entry (m :: b.heard) m.addr (update s).1) :
    Inv ⟨(b.table.add m.addr create update).1, m :: b.heard⟩ := by
  obtain ⟨s, hs, he, hadd⟩ := hI.add_old create update hi hlt
  have hsenders := senders_cons_old (List.mem_of_getElem? hi)
  rw [hadd]
  constructor
  case length => exact List.length_set.trans hI.length
  case entry =>
    intro j a hj hjlt
    rw [hsenders] at hj
    by_cases hij : i = j
    · subst hij
      obtain rfl := Option.some.inj (hi.symm.trans hj)
      have hin := (List.getElem?_eq_some_iff.mp hs).1
      exact ⟨(update s).1, List.getElem?_set_self hin, hupdate s he⟩
    · obtain ⟨s', hs', he'⟩ := hI.entry j a hj hjlt
      have hin := (List.getElem?_eq_some_iff.mp hi).1
      have hne : m.addr ≠ a := fun heq =>
        hij ((List.getElem?_inj hin (nodup_arrivals _)).mp (hi.trans (heq ▸ hj.symm)))
      exact ⟨s', (List.getElem?_set_ne hij).trans hs', he'.cons_of_ne hne⟩
  case free =>
    intro j hj hjlt
    rw [hsenders] at hj
    have hin := (List.getElem?_eq_some_iff.mp hi).1
    have hij : i ≠ j := by omega
    exact (List.getElem?_set_ne hij).trans (hI.free j hj hjlt)
  case count => rw [hsenders]; exact hI.count

theorem Inv.add_of_new (hI : Inv b) (hnew : m.addr ∉ senders b.heard)
    (hlt : (senders b.heard).length < statCountMax)
    (hcreate : Entry (m :: b.heard) m.addr (create { Stat.unused with addr := m.addr })) :
    Inv ⟨(b.table.add m.addr create update).1, m :: b.heard⟩ := by
  have hsenders := senders_cons_new hnew
  have hlen : (senders (m :: b.heard)).length = (senders b.heard).length + 1 := by
    rw [hsenders, List.length_append]
    rfl
  have hin : (senders b.heard).length < b.table.stats.length := hI.length ▸ hlt
  rw [hI.add_new hnew hlt]
  constructor
  case length => exact List.length_set.trans hI.length
  case entry =>
    intro j a hj hjlt
    have hjin : j < (senders (m :: b.heard)).length := (List.getElem?_eq_some_iff.mp hj).1
    rw [hsenders] at hj
    by_cases hjl : j = (senders b.heard).length
    · subst hjl
      rw [List.getElem?_append_right (Nat.le_refl _), Nat.sub_self] at hj
      obtain rfl := Option.some.inj hj
      exact ⟨_, List.getElem?_set_self hin, hcreate⟩
    · rw [List.getElem?_append_left (by omega)] at hj
      obtain ⟨s, hs, he⟩ := hI.entry j a hj hjlt
      have hne : m.addr ≠ a := fun heq => hnew (heq ▸ List.mem_of_getElem? hj)
      exact ⟨s, (List.getElem?_set_ne (Ne.symm hjl)).trans hs, he.cons_of_ne hne⟩
  case free =>
    intro j (hj : (senders (m :: b.heard)).length ≤ j) hjlt
    have hjl : (senders b.heard).length ≠ j := by omega
    exact (List.getElem?_set_ne hjl).trans (hI.free j (by omega) hjlt)
  case count =>
    have := hI.count
    show b.table.statCount + 1 = min statCountMax (senders (m :: b.heard)).length
    omega

/-- A sender that comes after the table is full changes nothing in it. -/
theorem Inv.add_of_full (hI : Inv b) (hnew : m.addr ∉ (senders b.heard).take statCountMax)
    (hle : statCountMax ≤ (senders b.heard).length) :
    Inv ⟨(b.table.add m.addr create update).1, m :: b.heard⟩ := by
  have hsenders : ∃ rest, senders (m :: b.heard) = senders b.heard ++ rest := by
    by_cases hmem : m.addr ∈ senders b.heard
    · exact ⟨[], (senders_cons_old hmem).trans (List.append_nil _).symm⟩
    · exact ⟨[m.addr], senders_cons_new hmem⟩
  obtain ⟨rest, hrest⟩ := hsenders
  have hlen : (senders (m :: b.heard)).length = (senders b.heard).length + rest.length := by
    rw [hrest, List.length_append]
  rw [hI.add_full hnew hle]
  constructor
  case length => exact hI.length
  case entry =>
    intro j a hj hjlt
    rw [hrest, List.getElem?_append_left (by omega)] at hj
    obtain ⟨s, hs, he⟩ := hI.entry j a hj hjlt
    refine ⟨s, hs, he.cons_of_ne fun heq => hnew ?_⟩
    obtain ⟨hjin, hget⟩ := List.getElem?_eq_some_iff.mp hj
    exact List.mem_take_iff_getElem.mpr ⟨j, by omega, hget.trans heq.symm⟩
  case free =>
    intro j (hj : (senders (m :: b.heard)).length ≤ j) hjlt
    omega
  case count =>
    have := hI.count
    show b.table.statCount = min statCountMax (senders (m :: b.heard)).length
    omega

/-- The invariant is kept by any filling of the entries that keeps the entry of the sender right. -/
theorem Inv.add (hI : Inv b)
    (hcreate : m.addr ∉ senders b.heard →
      Entry (m :: b.heard) m.addr (create { Stat.unused with addr := m.addr }))
    (hupdate : ∀ s, m.addr ∈ (senders b.heard).take statCountMax → Entry b.heard m.addr s →
      Entry (m :: b.heard) m.addr (update s).1) :
    Inv ⟨(b.table.add m.addr create update).1, m :: b.heard⟩ := by
  by_cases hold : m.addr ∈ (senders b.heard).take statCountMax
  · obtain ⟨i, hi, hget⟩ := List.mem_take_iff_getElem.mp hold
    have hi' : (senders b.heard)[i]? = some m.addr := hget ▸ List.getElem?_eq_getElem (by omega)
    exact hI.add_of_old hi' (by omega) fun s => hupdate s hold
  · by_cases hfull : statCountMax ≤ (senders b.heard).length
    · exact hI.add_of_full hold hfull
    · have hlt : (senders b.heard).length < statCountMax := by omega
      rw [List.take_of_length_le hlt.le] at hold
      exact hI.add_of_new hold hlt (hcreate hold)

theorem receive_inv (hI : Inv b) (hm : Careful b m) : Inv (b.receive m) := by
  cases m with
  | hello a name =>
    exact hI.add (m := .hello a name) (fun hnew => createHello_entry hnew name)
      fun s _ he => updateHello_entry he name
  | heartbeat a h =>
    exact hI.add (m := .heartbeat a h) (fun hnew => createHeartbeat_entry hnew h)
      fun s hold he => updateHeartbeat_entry he (hm a h rfl hold)

theorem Inv.entry_of_mem (hI : Inv b) (hs : s ∈ b.table.stats) (haddr : s.addr ≠ 0) :
    ∃ a, Entry b.heard a s := by
  obtain ⟨i, hi⟩ := List.getElem?_of_mem hs
  have hlt : i < statCountMax := hI.length ▸ (List.getElem?_eq_some_iff.mp hi).1
  rcases Nat.lt_or_ge i (senders b.heard).length with hin | hout
  · obtain ⟨s', hs', he⟩ := hI.entry i _ (List.getElem?_eq_getElem hin) hlt
    obtain rfl := Option.some.inj (hs'.symm.trans hi)
    exact ⟨_, he⟩
  · obtain rfl := Option.some.inj ((hI.free i hout hlt).symm.trans hi)
    exact absurd rfl haddr

theorem Inv.take_addr (hI : Inv b) : (b.table.stats.take (senders b.heard).length).map Stat.addr =
    ((senders b.heard).take statCountMax).map Subtype.val := by
  refine List.ext_getElem? fun i => ?_
  rw [List.getElem?_map, List.getElem?_map]
  by_cases hin : i < (senders b.heard).length
  · by_cases hlt : i < statCountMax
    · obtain ⟨s, hs, he⟩ := hI.entry i _ (List.getElem?_eq_getElem hin) hlt
      rw [List.getElem?_take_of_lt hin, List.getElem?_take_of_lt hlt, hs,
        List.getElem?_eq_getElem hin]
      exact congrArg some he.addr
    · have hnone : b.table.stats[i]? = none := List.getElem?_eq_none (by rw [hI.length]; omega)
      rw [List.getElem?_take_of_lt hin, hnone, List.getElem?_take_eq_none (by omega)]
      rfl
  · rw [List.getElem?_take_eq_none (by omega),
      List.getElem?_eq_none (by rw [List.length_take]; omega)]
    rfl

theorem Inv.sound (hI : Inv b) : Sound b := by
  constructor
  case used =>
    refine ⟨b.table.stats.take (senders b.heard).length,
      b.table.stats.drop (senders b.heard).length, (List.take_append_drop _ _).symm, ?_, ?_, ?_, ?_⟩
    · intro s hs
      have hmem := List.mem_map_of_mem (f := Stat.addr) hs
      rw [hI.take_addr] at hmem
      obtain ⟨a, _, ha⟩ := List.mem_map.mp hmem
      exact ha ▸ a.property
    · intro s hs
      obtain ⟨i, hi⟩ := List.getElem?_of_mem hs
      rw [List.getElem?_drop] at hi
      have hlt := hI.length ▸ (List.getElem?_eq_some_iff.mp hi).1
      rw [hI.free _ (Nat.le_add_right _ _) hlt] at hi
      exact (Option.some.inj hi) ▸ rfl
    · rw [hI.take_addr]
      have hnodup := (nodup_arrivals (b.heard.map Msg.addr)).sublist
        (List.take_sublist statCountMax _)
      exact List.Nodup.map Subtype.val_injective hnodup
    · rw [List.length_take, hI.length, hI.count, Nat.min_comm]
  case entry =>
    intro a ha
    obtain ⟨i, hi, hget⟩ := List.mem_take_iff_getElem.mp ha
    have hi' : (senders b.heard)[i]? = some a := hget ▸ List.getElem?_eq_getElem (by omega)
    obtain ⟨s, hs, he⟩ := hI.entry i a hi' (by omega)
    exact ⟨s, List.mem_of_getElem? hs, he.addr⟩
  case counts =>
    intro s hs haddr
    obtain ⟨a, he⟩ := hI.entry_of_mem hs haddr
    exact he.counts

/-- A first heartbeat that is not careful leaves one of the extremes at its initial value. -/
theorem receive_not_sound (hI : Inv b) (hm : ¬ Careful b m) : ¬ Sound (b.receive m) := by
  intro hsound
  refine hm fun a h hheartbeat hold hfirst => ?_
  subst hheartbeat
  obtain ⟨i, hi, hget⟩ := List.mem_take_iff_getElem.mp hold
  have hi' : (senders b.heard)[i]? = some a := hget ▸ List.getElem?_eq_getElem (by omega)
  obtain ⟨s, hs, he, hadd⟩ := hI.add_old (createHeartbeat h)
    (updateHeartbeat h) hi' (by omega)
  have hin := (List.getElem?_eq_some_iff.mp hs).1
  have hmem : (updateHeartbeat h s).1 ∈ (b.receive (.heartbeat a h)).table.stats := by
    show _ ∈ (b.table.add a (createHeartbeat h) (updateHeartbeat h)).1.stats
    rw [hadd]
    exact List.mem_of_getElem? (List.getElem?_set_self hin)
  rw [updateHeartbeat_fst, count_capped he.heartbeat, hfirst] at hmem
  have haddr := (extend_frame s h).1.trans he.addr
  obtain ⟨_, _, hleast, hgreatest⟩ := hsound.counts _ hmem (haddr ▸ a.property)
  have hhops : hops (Msg.heartbeat a h :: b.heard) a = {h} := by
    rw [hops_heartbeat, hops_eq_empty hfirst, insert_empty_eq]
  have hpos : 0 < min 65535 (0 + 1) := by decide
  have hmin : (s.extend h).minHops ∈ hops (Msg.heartbeat a h :: b.heard) (s.extend h).addr :=
    (hleast hpos).1
  have hmax : (s.extend h).maxHops ∈ hops (Msg.heartbeat a h :: b.heard) (s.extend h).addr :=
    (hgreatest hpos).1
  rw [haddr, hhops] at hmin hmax
  obtain ⟨hminHops, hmaxHops⟩ := he.initial hfirst
  exact (extend_initial hminHops hmaxHops).mp ⟨hmin, hmax⟩

/-- The table is as it is to be throughout a run exactly if every first heartbeat after a hello has
0 or 127 hops. -/
theorem stats_sound_iff (ms : List Msg) :
    Always Badge.receive Sound Badge.start ms ↔ Along Badge.receive Careful Badge.start ms :=
  always_iff_along_kept Badge.receive (fun _ _ => receive_inv)
    (fun _ _ hI => ⟨fun hs => by
      by_contra hm
      exact receive_not_sound hI hm hs, fun hm => (receive_inv hI hm).sound⟩)
    start_inv start_inv.sound ms

/-- A hello and a heartbeat with 5 hops leave the maximum at 0. -/
theorem first_heartbeat_not_sound :
    ¬ ∀ ms : List Msg, Sound (run Badge.receive Badge.start ms) := by
  intro h
  let a : Address := ⟨1, by decide⟩
  let b := run Badge.receive Badge.start [.hello a [0x41], .heartbeat a 5]
  have hmem : b.table.stats.head? = some ⟨1, [0x41, 0, 0, 0, 0, 0, 0, 0, 0], 5, 0, 1, 1⟩ := by
    decide +kernel
  have hgreatest := ((h _).counts _ (List.mem_of_head? hmem) (by decide)).greatest (by decide)
  have hle : (5 : Fin 256) ≤ 0 := hgreatest.2 ⟨a, rfl, List.mem_cons_self⟩
  exact absurd hle (by decide)

end MeshBadge
end ZephyrSamples
