import Mathlib.Data.List.TakeWhile
import ZephyrSamples.MeshBadge.Statistics

/-!
# What the table of a badge rests on

An entry may have a wrong extreme, but whatever it says of its sender the badge has heard: the name
and the hops came with a message, and the counts are no more than the messages there were. -/

namespace ZephyrSamples
namespace MeshBadge

/-- A C string without its NUL. -/
abbrev Name := { name : List UInt8 // 0 ∉ name }

/-- The C string at the head of some bytes. -/
def cString (bytes : List UInt8) : List UInt8 := bytes.takeWhile (· ≠ 0)

theorem ne_zero_of_mem_cString {bytes : List UInt8} {c : UInt8} (h : c ∈ cString bytes) :
    c ≠ 0 := by
  have hc := List.mem_takeWhile_imp h
  exact of_decide_eq_true hc

theorem zero_notMem_cString (bytes : List UInt8) : 0 ∉ cString bytes := fun h =>
  ne_zero_of_mem_cString h rfl

/-- The name of an entry. -/
def Stat.text (e : Stat) : List UInt8 := cString e.name

/-- An entry in use says only what the badge has heard. -/
structure Supported (heard : List Msg) (e : Stat) : Prop where
  tail : e.name.drop 8 = [0]
  addr : ∃ m ∈ heard, e.addr = m.addr
  hello : e.helloCount ≤ hellos heard e.addr
  heartbeat : e.heartbeatCount ≤ heartbeats heard e.addr
  name : 0 < e.helloCount →
    ∃ (b : Address) (name : List UInt8),
      .hello b name ∈ heard ∧ e.addr = b ∧ e.text = (cString name).take 8
  minHops : e.minHops = ttlMax ∨ ∃ b : Address, .heartbeat b e.minHops ∈ heard ∧ e.addr = b
  maxHops : e.maxHops = 0 ∨ ∃ b : Address, .heartbeat b e.maxHops ∈ heard ∧ e.addr = b

variable {heard : List Msg} {m : Msg} {e s : Stat} {t : Table} {addr : BitVec 16} {a b : Address}

theorem Supported.addr_ne_zero (h : Supported heard e) : e.addr ≠ 0 := by
  obtain ⟨m, -, heq⟩ := h.addr
  exact heq ▸ m.addr.property

theorem hellos_le_cons (m : Msg) (addr : BitVec 16) :
    hellos heard addr ≤ hellos (m :: heard) addr :=
  (List.sublist_cons_self m heard).countP_le

theorem heartbeats_le_cons (m : Msg) (addr : BitVec 16) :
    heartbeats heard addr ≤ heartbeats (m :: heard) addr :=
  (List.sublist_cons_self m heard).countP_le

theorem Supported.cons (h : Supported heard e) (m : Msg) : Supported (m :: heard) e where
  tail := h.tail
  addr := h.addr.imp fun _ => And.imp_left (List.mem_cons_of_mem m)
  hello := h.hello.trans (hellos_le_cons m _)
  heartbeat := h.heartbeat.trans (heartbeats_le_cons m _)
  name hpos := by
    obtain ⟨b, name, hmem, h⟩ := h.name hpos
    exact ⟨b, name, List.mem_cons_of_mem m hmem, h⟩
  minHops := h.minHops.imp_right fun ⟨b, hmem, h⟩ => ⟨b, List.mem_cons_of_mem m hmem, h⟩
  maxHops := h.maxHops.imp_right fun ⟨b, hmem, h⟩ => ⟨b, List.mem_cons_of_mem m hmem, h⟩

theorem cString_append_zeros {chars : List UInt8} (h : 0 ∉ chars) (k : Nat) :
    cString (chars ++ List.replicate k 0 ++ [0]) = chars := by
  have hchars : ∀ c ∈ chars, decide (c ≠ 0) = true := fun c hc =>
    decide_eq_true fun hzero => h (hzero ▸ hc)
  have hzeros : (List.replicate k (0 : UInt8) ++ [0]).takeWhile (· ≠ 0) = [] := by
    cases k with
    | zero => rfl
    | succ k => rfl
  rw [cString, List.append_assoc, List.takeWhile_append_of_pos hchars, hzeros, List.append_nil]

/-- The name copied is the name there is, if the last byte is the NUL it has been from the start. -/
theorem text_copyName (h : e.name.drop 8 = [0]) (name : List UInt8) :
    (e.copyName name).text = (cString name).take 8 := by
  have hchars : 0 ∉ (cString name).take 8 := fun hmem =>
    zero_notMem_cString name (List.mem_of_mem_take hmem)
  show cString ((cString name).take 8 ++ List.replicate _ 0 ++ e.name.drop 8) = _
  rw [h, cString_append_zeros hchars]

theorem drop_copyName (h : e.name.drop 8 = [0]) (name : List UInt8) :
    (e.copyName name).name.drop 8 = [0] := by
  have hlen : ((cString name).take 8).length ≤ 8 := List.length_take_le 8 _
  show ((cString name).take 8 ++ List.replicate (8 - ((cString name).take 8).length) 0 ++
    e.name.drop 8).drop 8 = _
  rw [h]
  refine List.drop_left' ?_
  rw [List.length_append, List.length_replicate]
  omega

/-- What stands in a table after a message stood there before, was made of an unused entry or of the
sender's. -/
theorem mem_add {create : Stat → Stat} {update : Stat → Stat × Bool}
    (h : e ∈ (t.add addr create update).1.stats) :
    e ∈ t.stats ∨ (∃ s ∈ t.stats, s.addr = 0 ∧ e = create { s with addr := addr }) ∨
      ∃ s ∈ t.stats, s.addr = addr ∧ e = (update s).1 := by
  rw [Table.add] at h
  split at h
  case h_1 => exact Or.inl h
  case h_2 i hi =>
    obtain ⟨hlt, hstop, -⟩ := List.findIdx?_eq_some_iff_getElem.mp hi
    have hget : t.stats.getD i .unused = t.stats[i] := by
      rw [List.getD_eq_getElem?_getD, List.getElem?_eq_getElem hlt, Option.getD_some]
    rw [hget] at h
    have hmem : t.stats[i] ∈ t.stats := List.getElem_mem hlt
    dsimp only at h
    split at h
    case isTrue hzero =>
      rcases List.mem_or_eq_of_mem_set h with hold | rfl
      · exact Or.inl hold
      · exact Or.inr (Or.inl ⟨t.stats[i], hmem, hzero, rfl⟩)
    case isFalse hused =>
      rw [Bool.or_eq_true, decide_eq_true_iff, decide_eq_true_iff] at hstop
      rcases List.mem_or_eq_of_mem_set h with hold | rfl
      · exact Or.inl hold
      · exact Or.inr (Or.inr ⟨t.stats[i], hmem, hstop.resolve_left hused, rfl⟩)

/-- An entry is unused or supported. -/
def Stands (heard : List Msg) (e : Stat) : Prop := e = .unused ∨ Supported heard e

theorem Stands.eq_unused (h : Stands heard e) (hzero : e.addr = 0) : e = .unused :=
  h.resolve_right fun hs => hs.addr_ne_zero hzero

theorem Stands.supported (h : Stands heard e) (hused : e.addr ≠ 0) : Supported heard e :=
  h.resolve_left fun hs => hused (hs ▸ rfl)

theorem supported_createHello (name : List UInt8) :
    Supported (.hello a name :: heard) (createHello name { Stat.unused with addr := a }) where
  tail := drop_copyName (e := { Stat.unused with addr := a }) rfl name
  addr := ⟨_, List.mem_cons_self, rfl⟩
  hello := by
    show 1 ≤ hellos _ a.val
    rw [hellos_hello]
    exact Nat.le_add_left 1 _
  heartbeat := Nat.zero_le _
  name _ := ⟨a, name, List.mem_cons_self, rfl,
    text_copyName (e := { Stat.unused with addr := a }) rfl name⟩
  minHops := Or.inl rfl
  maxHops := Or.inl rfl

theorem Supported.updateHello (h : Supported heard e) (haddr : e.addr = a) (name : List UInt8) :
    Supported (.hello a name :: heard) (updateHello name e).1 := by
  rw [updateHello_fst]
  have hcons := h.cons (.hello a name)
  constructor
  case tail => exact drop_copyName h.tail name
  case addr => exact hcons.addr
  case hello =>
    show (if e.helloCount < 0xffff then e.helloCount + 1 else e.helloCount) ≤ hellos _ e.addr
    have hle := haddr ▸ h.hello
    rw [haddr, hellos_hello]
    split
    · exact Nat.succ_le_succ hle
    · exact hle.trans (Nat.le_succ _)
  case heartbeat => exact hcons.heartbeat
  case name => exact fun _ => ⟨a, name, List.mem_cons_self, haddr, text_copyName h.tail name⟩
  case minHops => exact hcons.minHops
  case maxHops => exact hcons.maxHops

theorem supported_createHeartbeat (h : Fin 256) :
    Supported (.heartbeat a h :: heard) (createHeartbeat h { Stat.unused with addr := a }) where
  tail := rfl
  addr := ⟨_, List.mem_cons_self, rfl⟩
  hello := Nat.zero_le _
  heartbeat := by
    show 1 ≤ heartbeats _ a.val
    rw [heartbeats_heartbeat]
    exact Nat.le_add_left 1 _
  name hpos := absurd hpos (Nat.lt_irrefl 0)
  minHops := Or.inr ⟨a, List.mem_cons_self, rfl⟩
  maxHops := Or.inr ⟨a, List.mem_cons_self, rfl⟩

theorem extend_hops (e : Stat) (h : Fin 256) :
    ((e.extend h).minHops = e.minHops ∨ (e.extend h).minHops = h) ∧
      ((e.extend h).maxHops = e.maxHops ∨ (e.extend h).maxHops = h) := by
  rw [Stat.extend]
  split
  case isTrue => exact ⟨Or.inr rfl, Or.inl rfl⟩
  case isFalse =>
    split
    case isTrue => exact ⟨Or.inl rfl, Or.inr rfl⟩
    case isFalse => exact ⟨Or.inl rfl, Or.inl rfl⟩

theorem extend_name (e : Stat) (h : Fin 256) : (e.extend h).name = e.name := by
  rw [Stat.extend]
  split
  case isTrue => rfl
  case isFalse =>
    split
    case isTrue => rfl
    case isFalse => rfl

theorem Supported.updateHeartbeat (hs : Supported heard e) (haddr : e.addr = a) (h : Fin 256) :
    Supported (.heartbeat a h :: heard) (updateHeartbeat h e).1 := by
  obtain ⟨haddr', hhello, -⟩ := extend_frame e h
  obtain ⟨hmin, hmax⟩ := extend_hops e h
  rw [updateHeartbeat_fst]
  have hcons := hs.cons (.heartbeat a h)
  constructor
  case tail => exact (congrArg (List.drop 8) (extend_name e h)).trans hs.tail
  case addr => exact haddr' ▸ hcons.addr
  case hello =>
    show (e.extend h).helloCount ≤ hellos _ (e.extend h).addr
    rw [hhello, haddr']
    exact hcons.hello
  case heartbeat =>
    show (if e.heartbeatCount < 0xffff then _ else _) ≤ heartbeats _ (e.extend h).addr
    have hle := haddr ▸ hs.heartbeat
    rw [haddr', haddr, heartbeats_heartbeat]
    split
    · exact Nat.succ_le_succ hle
    · exact hle.trans (Nat.le_succ _)
  case name =>
    show 0 < (e.extend h).helloCount → ∃ b name, _ ∧ (e.extend h).addr = _ ∧
      cString (e.extend h).name = _
    rw [hhello, haddr', extend_name]
    exact hcons.name
  case minHops =>
    show (e.extend h).minHops = _ ∨
      ∃ b : Address, Msg.heartbeat b (e.extend h).minHops ∈ _ ∧ (e.extend h).addr = b.val
    rw [haddr']
    rcases hmin with hold | hnew
    · rw [hold]
      exact hcons.minHops
    · rw [hnew]
      exact Or.inr ⟨a, List.mem_cons_self, haddr⟩
  case maxHops =>
    show (e.extend h).maxHops = _ ∨
      ∃ b : Address, Msg.heartbeat b (e.extend h).maxHops ∈ _ ∧ (e.extend h).addr = b.val
    rw [haddr']
    rcases hmax with hold | hnew
    · rw [hold]
      exact hcons.maxHops
    · rw [hnew]
      exact Or.inr ⟨a, List.mem_cons_self, haddr⟩

/-- Every entry stands. -/
def TableStands (b : Badge) : Prop := ∀ e ∈ b.table.stats, Stands b.heard e

theorem tableStands_start : TableStands .start := fun _ he => Or.inl (List.eq_of_mem_replicate he)

theorem TableStands.receive {badge : Badge} (h : TableStands badge) (m : Msg) :
    TableStands (badge.receive m) := by
  intro e he
  cases m with
  | hello a name =>
    rcases mem_add he with hold | ⟨s, hs, hzero, rfl⟩ | ⟨s, hs, haddr, rfl⟩
    · exact (h e hold).imp_right (·.cons _)
    · rw [(h s hs).eq_unused hzero]
      exact Or.inr (supported_createHello name)
    · have hused : s.addr ≠ 0 := haddr ▸ a.property
      exact Or.inr (((h s hs).supported hused).updateHello haddr name)
  | heartbeat a hops =>
    rcases mem_add he with hold | ⟨s, hs, hzero, rfl⟩ | ⟨s, hs, haddr, rfl⟩
    · exact (h e hold).imp_right (·.cons _)
    · rw [(h s hs).eq_unused hzero]
      exact Or.inr (supported_createHeartbeat hops)
    · have hused : s.addr ≠ 0 := haddr ▸ a.property
      exact Or.inr (((h s hs).supported hused).updateHeartbeat haddr hops)

end MeshBadge
end ZephyrSamples
