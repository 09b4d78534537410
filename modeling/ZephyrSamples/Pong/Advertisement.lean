import Mathlib.Algebra.GroupWithZero.Nat
import ZephyrSamples.Lib.Ltv
import ZephyrSamples.Lib.NetBuf
import ZephyrSamples.Pong.Ble

/-!
# The advertisement parser

`device_found` of `ble.c` with `pong_uuid_match`.  For any payload it connects exactly if a
structure of its well-formed prefix lists the service, and stops at the first that does. -/

namespace ZephyrSamples
namespace Pong
namespace Advertisement

open NetBuf Ltv

/-- `BT_GAP_ADV_TYPE_ADV_IND` -/
def advInd : UInt8 := 0x00

/-- `BT_DATA_UUID128_ALL` -/
def uuid128All : UInt8 := 0x07

def pongSvcUuid : List UInt8 :=
  [0x90, 0x6c, 0x55, 0x0f, 0xee, 0x6f, 0x4d, 0x0d, 0xa1, 0x7e, 0x24, 0x4e, 0x38, 0xea, 0x4f, 0xf9]

/-- `bt_le_scan_stop` and `create_conn`. -/
inductive Call where
  | leScanStop
  | createConn
  deriving DecidableEq

def pongUuidMatch (msg : Message) (data : Nat) (len : UInt8) : Bool :=
  if 16 ≤ len.toNat then
    if msg.read data 16 = pongSvcUuid then true else pongUuidMatch msg (data + 16) (len - 16)
  else false
termination_by len.toNat
decreasing_by
  rw [UInt8.toNat_sub_of_le _ _ (UInt8.le_iff_toNat_le.mpr (by assumption))]
  exact Nat.sub_lt (by omega) (by decide)

/-- A structure of length `n` and its length byte are pulled one after the other. -/
theorem toNat_len_skip {ad : NetBuf} {n : Nat} (h : 1 < ad.len.toNat) (hn : 0 < n)
    (hrest : n ≤ (ad.pull 1).len.toNat) :
    (((ad.pull 1).pull 1).pull (n - 1)).len.toNat = ad.len.toNat - 1 - n := by
  have hone : (ad.pull 1).len.toNat = ad.len.toNat - 1 :=
    toNat_len_pull (by rw [length_bytes]; omega)
  have htwo : ((ad.pull 1).pull 1).len.toNat = ad.len.toNat - 1 - 1 := by
    rw [toNat_len_pull (by rw [length_bytes]; omega), hone]
  rw [toNat_len_pull (by rw [length_bytes]; omega), htwo]
  omega

/-- The loop of `device_found`. -/
def parse (ad : NetBuf) : NetBuf × List Call :=
  if h : 1 < ad.len.toNat then
    let len := ad.pullU8.1
    let rest := ad.pullU8.2
    if hempty : len = 0 then (rest, [])
    else if hlong : rest.len.toNat < len.toNat then (rest, [])
    else
      let type := rest.pullU8.1
      let value := rest.pullU8.2
      if type = uuid128All ∧ pongUuidMatch value.message value.data (len - 1) then
        (value, [.leScanStop, .createConn])
      else parse (value.pull (len.toNat - 1))
  else (ad, [])
termination_by ad.len.toNat
decreasing_by
  have hpos : len.toNat ≠ 0 := fun h => hempty (UInt8.toNat.inj h)
  have hskip := toNat_len_skip h (Nat.pos_of_ne_zero hpos) (Nat.not_lt.mp hlong)
  exact hskip ▸ (by omega)

def deviceFound (type : UInt8) (ad : NetBuf) : NetBuf × List Call :=
  if type ≠ advInd then (ad, []) else parse ad

/-- The structure lists the service: it is at a multiple of 16. -/
def Lists (s : Structure) : Prop :=
  s.1 = uuid128All ∧ ∃ k, 16 * k + 16 ≤ s.2.length ∧ (s.2.drop (16 * k)).take 16 = pongSvcUuid

variable {ad : NetBuf} {msg : Message} {data : Nat} {len : UInt8}

theorem pongUuidMatch_iff : pongUuidMatch msg data len = true ↔
    ∃ k, 16 * k + 16 ≤ len.toNat ∧ msg.read (data + 16 * k) 16 = pongSvcUuid := by
  fun_induction pongUuidMatch msg data len with
  | case1 data len hlong hmatch => exact iff_of_true rfl ⟨0, hlong, hmatch⟩
  | case2 data len hlong hmatch ih =>
    have hrest : (len - 16).toNat = len.toNat - 16 :=
      UInt8.toNat_sub_of_le _ _ (UInt8.le_iff_toNat_le.mpr hlong)
    rw [ih, hrest]
    constructor
    · rintro ⟨k, hk, h⟩
      refine ⟨k + 1, by omega, ?_⟩
      rw [Nat.mul_succ, Nat.add_comm (16 * k), ← Nat.add_assoc]
      exact h
    · rintro ⟨k, hk, h⟩
      cases k with
      | zero => exact absurd h hmatch
      | succ k =>
        refine ⟨k, by omega, ?_⟩
        rw [Nat.mul_succ, Nat.add_comm (16 * k), ← Nat.add_assoc] at h
        exact h
  | case3 data len hshort =>
    exact iff_of_false Bool.false_ne_true fun ⟨k, hk, _⟩ => hshort (by omega)

/-- What `pong_uuid_match` finds is in the structure. -/
theorem lists_iff (hlen : len ≠ 0) (hrest : len.toNat - 1 ≤ ad.bytes.length) (type : UInt8) :
    Lists (type, ad.bytes.take (len.toNat - 1)) ↔
      type = uuid128All ∧ pongUuidMatch ad.message ad.data (len - 1) = true := by
  have hpos : len.toNat ≠ 0 := fun h => hlen (UInt8.toNat.inj h)
  have hone : (len - 1).toNat = len.toNat - 1 :=
    UInt8.toNat_sub_of_le _ _ (UInt8.le_iff_toNat_le.mpr (Nat.pos_of_ne_zero hpos))
  have hvalue : ad.bytes.take (len.toNat - 1) = ad.message.read ad.data (len.toNat - 1) := by
    rw [length_bytes] at hrest
    rw [bytes_eq_read, Message.take_read, Nat.min_eq_left hrest]
  rw [pongUuidMatch_iff, hone, Lists, hvalue, Message.length_read]
  refine and_congr_right fun _ => exists_congr fun k => and_congr_right fun hk => ?_
  rw [Message.drop_read, Message.take_read, Nat.min_eq_left (by omega)]

/-- The buffer is left at the value of the first structure that lists the service. -/
structure StopsAtFirst (ad : NetBuf) (result : NetBuf × List Call) : Prop where
  calls : result.2 = [.leScanStop, .createConn]
  first : ∃ before s after, structures ad.bytes = before ++ s :: after ∧
    (∀ b ∈ before, ¬ Lists b) ∧ Lists s ∧
      result.1.data = ad.data + (before.map fun b => b.2.length + 2).sum + 2

/-- No pull is short, and there is a connection exactly if a structure lists the service. -/
structure Parsed (ad : NetBuf) (result : NetBuf × List Call) : Prop where
  short : result.1.short = ad.short
  connects : .createConn ∈ result.2 ↔ ∃ s ∈ structures ad.bytes, Lists s
  stops : .createConn ∈ result.2 → StopsAtFirst ad result
  quiet : .createConn ∉ result.2 → result.2 = []

theorem parsed_of_nil (h : structures ad.bytes = []) {rest : NetBuf}
    (hshort : rest.short = ad.short) : Parsed ad (rest, []) where
  short := hshort
  connects := by simp [h]
  stops h := absurd h List.not_mem_nil
  quiet _ := rfl

theorem bytes_eq_cons_cons (h : 1 < ad.len.toNat) :
    ad.bytes = ad.mem ad.data :: ad.mem (ad.data + 1) :: ((ad.pull 1).pull 1).bytes := by
  have hone : (ad.pull 1).len.toNat = ad.len.toNat - 1 :=
    toNat_len_pull (by rw [length_bytes]; omega)
  rw [bytes_eq_cons (by omega), bytes_eq_cons (b := ad.pull 1) (by omega)]
  rfl

/-- A structure that is skipped does not list the service. -/
theorem Parsed.skip {rest : NetBuf} {s : Structure} {result : NetBuf × List Call}
    (hs : structures ad.bytes = s :: structures rest.bytes) (hno : ¬ Lists s)
    (hshort : rest.short = ad.short) (hdata : rest.data = ad.data + (s.2.length + 2))
    (h : Parsed rest result) : Parsed ad result where
  short := h.short.trans hshort
  connects := by
    rw [h.connects, hs]
    simp [hno]
  stops hconnects := by
    obtain ⟨hcalls, before, first, after, hsplit, hbefore, hfirst, hstop⟩ := h.stops hconnects
    refine ⟨hcalls, s :: before, first, after, by rw [hs, hsplit]; rfl, ?_, hfirst, ?_⟩
    · intro b hb
      rcases List.mem_cons.mp hb with rfl | hb
      · exact hno
      · exact hbefore b hb
    · rw [hstop, hdata, List.map_cons, List.sum_cons]
      omega
  quiet := h.quiet

theorem parsed_of_lists {value : NetBuf} {s : Structure} {after : List Structure}
    (hs : structures ad.bytes = s :: after) (hfirst : Lists s) (hshort : value.short = ad.short)
    (hdata : value.data = ad.data + 2) : Parsed ad (value, [.leScanStop, .createConn]) where
  short := hshort
  connects := by
    refine iff_of_true (by simp) ⟨s, ?_, hfirst⟩
    rw [hs]
    exact List.mem_cons_self
  stops _ := ⟨rfl, [], s, after, hs, nofun, hfirst, hdata⟩
  quiet h := absurd (List.mem_cons_of_mem _ (List.mem_singleton.mpr rfl)) h

theorem len_pull_one (h : 1 < ad.len.toNat) :
    (ad.pull 1).len.toNat = ((ad.pull 1).pull 1).bytes.length + 1 := by
  rw [← length_bytes, bytes_pull_one (bytes_eq_cons_cons h), List.length_cons]

theorem short_pull_pull (h : 1 < ad.len.toNat) : ((ad.pull 1).pull 1).short = ad.short := by
  have hbytes := bytes_eq_cons_cons h
  exact (short_pull_one (bytes_pull_one hbytes)).trans (short_pull_one hbytes)

/-- The structure that is read is the first of the payload. -/
theorem structures_of_fit (h : 1 < ad.len.toNat) (hempty : ad.mem ad.data ≠ 0)
    (hfit : (ad.mem ad.data).toNat ≤ (ad.pull 1).len.toNat) :
    structures ad.bytes =
      (ad.mem (ad.data + 1), ((ad.pull 1).pull 1).bytes.take ((ad.mem ad.data).toNat - 1)) ::
        structures (((ad.pull 1).pull 1).bytes.drop ((ad.mem ad.data).toNat - 1)) := by
  rw [bytes_eq_cons_cons h]
  exact structures_cons hempty (len_pull_one h ▸ hfit)

theorem parsed_parse (ad : NetBuf) : Parsed ad (parse ad) := by
  fun_induction parse ad with
  | case1 ad h len rest hempty =>
    have hbytes := bytes_eq_cons_cons h
    refine parsed_of_nil ?_ (short_pull_one hbytes)
    rw [hbytes]
    exact structures_of_malformed (.inl hempty)
  | case2 ad h len rest hempty hlong =>
    have hbytes := bytes_eq_cons_cons h
    refine parsed_of_nil ?_ (short_pull_one hbytes)
    rw [hbytes]
    exact structures_of_malformed (.inr (len_pull_one h ▸ hlong))
  | case3 ad h len rest hempty hlong type value hmatch =>
    have hfit := Nat.not_lt.mp hlong
    have hvalue := Nat.sub_le_of_le_add (len_pull_one h ▸ hfit)
    exact parsed_of_lists (structures_of_fit h hempty hfit)
      ((lists_iff hempty hvalue type).mpr hmatch) (short_pull_pull h) rfl
  | case4 ad h len rest hempty hlong type value hmatch ih =>
    have hfit := Nat.not_lt.mp hlong
    have hvalue : len.toNat - 1 ≤ value.bytes.length :=
      Nat.sub_le_of_le_add (len_pull_one h ▸ hfit)
    have hstructures : structures ad.bytes = (type, value.bytes.take (len.toNat - 1)) ::
        structures (value.bytes.drop (len.toNat - 1)) := structures_of_fit h hempty hfit
    rw [← bytes_pull hvalue] at hstructures
    refine ih.skip hstructures (fun hlists => hmatch ((lists_iff hempty hvalue type).mp hlists))
      ((short_pull_of_le hvalue).trans (short_pull_pull h)) ?_
    rw [List.length_take, Nat.min_eq_left hvalue]
    show ad.data + 1 + 1 + (len.toNat - 1) = ad.data + (len.toNat - 1 + 2)
    omega
  | case5 ad h =>
    refine parsed_of_nil (structures_of_short ?_) rfl
    rw [length_bytes]
    exact Nat.not_lt.mp h

theorem deviceFound_parsed (ad : NetBuf) : Parsed ad (deviceFound advInd ad) :=
  parsed_parse ad

/-! ## The link -/

/-- What a call does to the link; `created` is the object `bt_conn_le_create` has made, if it has.
-/
def Call.perform (created : Option Ble.Conn) (s : Ble.Link) : Call → Ble.Link
  | .leScanStop => { s with scanning := false }
  | .createConn => Ble.createConn s created

/-- An advertisement is the event of the link's state machine exactly if it lists the service. -/
theorem foldl_perform (ad : NetBuf) (s : Ble.Link) (created : Option Ble.Conn) :
    ((∃ x ∈ structures ad.bytes, Lists x) →
      (parse ad).2.foldl (Call.perform created) s = Ble.deviceFound s created) ∧
    ((¬ ∃ x ∈ structures ad.bytes, Lists x) → (parse ad).2.foldl (Call.perform created) s = s) := by
  have h := parsed_parse ad
  rw [← h.connects]
  constructor
  · intro hconnects
    rw [(h.stops hconnects).calls]
    rfl
  · intro hquiet
    rw [h.quiet hquiet]
    rfl

end Advertisement
end Pong
end ZephyrSamples
