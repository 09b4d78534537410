import ZephyrSamples.Zperf.UdpReceiver
import Mathlib.Data.BitVec
import Mathlib.Tactic.Ring

/-!
# What a UDP session reports

The statistics a session of one peer ends with, against what its datagrams say.  `Accounted` is the
account a reader of the packet expects: every data datagram counted, the next id after the highest,
and as many errors too many as datagrams are missing.  The receiver gives that account of the
datagrams after the one that opened the session, `session_accounts_rest`, and so never of all of
them.
-/

namespace ZephyrSamples
namespace Zperf

open SlotTable

/-- The id expected after the given ones, from `next` on. -/
def expectedId (next : Nat) (ids : List Nat) : Nat :=
  ids.foldl (fun next id => max next (id + 1)) next

/-- How many of the ids are below the one expected when they arrive. -/
def outOfOrder (next : Nat) : List Nat → Nat
  | [] => 0
  | id :: ids => (if id < next then 1 else 0) + outOfOrder (max next (id + 1)) ids

/-- The statistics and the next id account for the ids, in the 32 bits of the counters. -/
structure Accounted (ids : List Nat) (stat : ServerHdr) (nextId : BitVec 32) : Prop where
  datagrams : stat.datagrams = BitVec.ofNat 32 ids.length
  expected : nextId = BitVec.ofNat 32 (expectedId 0 ids)
  outorder : stat.outorderCnt = BitVec.ofNat 32 (outOfOrder 0 ids)
  error : stat.errorCnt - stat.outorderCnt = nextId - stat.datagrams

/-- A data datagram, whose id is not negative and has a successor. -/
structure DataDatagram where
  hdr : UdpDatagram
  remaining : BitVec 32 := 0
  time : BitVec 32 := 0
  id_lt : hdr.id.toNat < 2 ^ 31 - 1

def DataDatagram.id (d : DataDatagram) : Nat := d.hdr.id.toNat

def DataDatagram.from (d : DataDatagram) (e : Endpoint) : Packet :=
  { src := e, hdr := some d.hdr, remaining := d.remaining, time := d.time }

/-- A datagram that ends a session. -/
structure FinalDatagram where
  hdr : UdpDatagram
  remaining : BitVec 32 := 0
  time : BitVec 32 := 0
  id_neg : hdr.id.slt 0 = true

def FinalDatagram.from (d : FinalDatagram) (e : Endpoint) : Packet :=
  { src := e, hdr := some d.hdr, remaining := d.remaining, time := d.time }

variable {κ : Type*}

/-- The table after some data datagrams of an endpoint. -/
def afterData (hz : Nat) (e : Endpoint) (sessions : List (Session κ)) (data : List DataDatagram) :
    List (Session κ) :=
  data.foldl (fun sessions d => (udpReceived hz sessions (d.from e)).1) sessions

/-! ## The counters -/

theorem DataDatagram.id_nonneg (d : DataDatagram) : d.hdr.id.slt 0 = false := by
  have hlt := d.id_lt
  have hint : d.hdr.id.toInt = d.hdr.id.toNat := BitVec.toInt_eq_toNat_of_lt (by omega)
  rw [BitVec.slt_eq_decide, decide_eq_false_iff_not, hint, show (0 : BitVec 32).toInt = 0 from rfl]
  omega

namespace StatData

variable (hz : Nat) {data : StatData}

/-- The counters after some data datagrams. -/
def countAll (data : StatData) (ds : List DataDatagram) : StatData :=
  ds.foldl (fun data d => data.count hz d.time d.hdr d.remaining) data

variable (d : DataDatagram)

/-- What a data datagram does to the counters: it is the one expected, it is late, or some are
missing before it. -/
theorem count_cases :
    (data.count hz d.time d.hdr d.remaining).counter = data.counter + 1 ∧
      ((d.hdr.id = data.nextId ∧
          (data.count hz d.time d.hdr d.remaining).nextId = data.nextId + 1 ∧
          (data.count hz d.time d.hdr d.remaining).outorder = data.outorder ∧
          (data.count hz d.time d.hdr d.remaining).error = data.error) ∨
        (d.hdr.id < data.nextId ∧
          (data.count hz d.time d.hdr d.remaining).nextId = data.nextId ∧
          (data.count hz d.time d.hdr d.remaining).outorder = data.outorder + 1 ∧
          (data.count hz d.time d.hdr d.remaining).error = data.error) ∨
        (data.nextId < d.hdr.id ∧
          (data.count hz d.time d.hdr d.remaining).nextId = d.hdr.id + 1 ∧
          (data.count hz d.time d.hdr d.remaining).outorder = data.outorder ∧
          (data.count hz d.time d.hdr d.remaining).error =
            data.error + (d.hdr.id - data.nextId))) := by
  by_cases heq : d.hdr.id = data.nextId
  · refine ⟨?_, Or.inl ⟨heq, ?_, ?_, ?_⟩⟩ <;> simp [count, countJitter, checkId, heq]
  · by_cases hbelow : d.hdr.id < data.nextId
    · refine ⟨?_, Or.inr (Or.inl ⟨hbelow, ?_, ?_, ?_⟩)⟩ <;>
        simp [count, countJitter, checkId, heq, hbelow]
    · refine ⟨?_, Or.inr (Or.inr ⟨by bv_omega, ?_, ?_, ?_⟩)⟩ <;>
        simp [count, countJitter, checkId, heq, hbelow]

/-- The counters account for the ids received so far, the errors with the datagrams missing. -/
structure Accounts (data : StatData) (counter next late : Nat) : Prop where
  counter : data.counter = BitVec.ofNat 32 counter
  nextId : data.nextId.toNat = next
  outorder : data.outorder = BitVec.ofNat 32 late
  error : data.error - data.outorder = data.nextId - data.counter

theorem Accounts.count {counter next late : Nat} (h : data.Accounts counter next late) :
    (data.count hz d.time d.hdr d.remaining).Accounts (counter + 1) (max next (d.id + 1))
      (late + if d.id < next then 1 else 0) := by
  have hlt : d.hdr.id.toNat < 2 ^ 31 - 1 := d.id_lt
  have hid : d.id = d.hdr.id.toNat := rfl
  obtain ⟨hcounter, hnext, hlate, herror⟩ := h
  obtain ⟨hcounter', hcases⟩ := @count_cases hz data d
  have hone : ∀ n, BitVec.ofNat 32 n + 1 = BitVec.ofNat 32 (n + 1) := fun n => by
    rw [BitVec.ofNat_add]
    rfl
  refine ⟨by rw [hcounter', hcounter, hone], ?_, ?_, ?_⟩
  · rcases hcases with ⟨heq, hnext', _, _⟩ | ⟨hbelow, hnext', _, _⟩ | ⟨habove, hnext', _, _⟩ <;>
      rw [hnext'] <;> bv_omega
  · rcases hcases with ⟨heq, _, hlate', _⟩ | ⟨hbelow, _, hlate', _⟩ | ⟨habove, _, hlate', _⟩
    · rw [if_neg (by bv_omega), hlate', hlate, Nat.add_zero]
    · rw [if_pos (by bv_omega), hlate', hlate, hone]
    · rw [if_neg (by bv_omega), hlate', hlate, Nat.add_zero]
  · rcases hcases with
      ⟨heq, hnext', hlate', herror'⟩ | ⟨hbelow, hnext', hlate', herror'⟩ |
        ⟨habove, hnext', hlate', herror'⟩ <;>
      rw [hcounter', hnext', hlate', herror'] <;> bv_omega

theorem Accounts.countAll {counter next late : Nat} (ds : List DataDatagram)
    (h : data.Accounts counter next late) :
    (data.countAll hz ds).Accounts (counter + ds.length) (expectedId next (ds.map (·.id)))
      (late + outOfOrder next (ds.map (·.id))) := by
  induction ds generalizing data counter next late with
  | nil => exact h
  | cons d ds ih =>
    have hrest := ih (h.count hz d)
    rw [Nat.add_assoc, Nat.add_assoc, Nat.add_comm 1] at hrest
    exact hrest

end StatData

/-! ## The slot of a session -/

/-- Slot `i` is the endpoint's, and `session` is in it. -/
structure InSlot (sessions : List (Session κ)) (e : Endpoint) (i : Nat) (session : Session κ) :
    Prop where
  slot : sessions[i]? = some session
  isFor : session.isFor e = true
  before : ∀ j < i, ∀ b, sessions[j]? = some b → ¬ b.isFor e = true

namespace InSlot

variable (hz : Nat) {sessions : List (Session κ)} {e : Endpoint} {i : Nat} {session r : Session κ}

theorem lt_length (h : InSlot sessions e i session) : i < sessions.length :=
  (List.getElem?_eq_some_iff.mp h.slot).1

theorem getSession_eq (h : InSlot sessions e i session) :
    getSession sessions e = (some i, sessions.set i session) := by
  have hfirst : First (fun s => s.isFor e = true) sessions i :=
    ⟨⟨session, h.slot, h.isFor⟩, h.before⟩
  rw [set_self h.slot, getSession_of_supported (Session.isFor_supported h.isFor),
    findIdx?_eq_some.mpr hfirst]

theorem set (hi : i < sessions.length) (hbefore : ∀ j < i, ∀ b, sessions[j]? = some b →
    ¬ b.isFor e = true) (hr : r.isFor e = true) : InSlot (sessions.set i r) e i r where
  slot := List.getElem?_set_self hi
  isFor := hr
  before := by
    intro j hj b hb
    rw [List.getElem?_set_ne (by omega)] at hb
    exact hbefore j hj b hb

theorem udpReceived_eq (h : InSlot sessions e i session) (hdr : UdpDatagram)
    (remaining time : BitVec 32) :
    udpReceived hz sessions { src := e, hdr := some hdr, remaining := remaining, time := time } =
      (sessions.set i (session.receive hz time hdr remaining).1,
        if (session.receive hz time hdr remaining).2 then
          some { dst := e, hdr := hdr, stat := (session.receive hz time hdr remaining).1.stat }
        else none) :=
  udpReceived_of_getSession rfl h.lt_length h.getSession_eq

theorem afterData (h : InSlot sessions e i session) (hs : session.state = .ongoing)
    (ds : List DataDatagram) :
    InSlot (afterData hz e sessions ds) e i
      { session with toStatData := session.countAll hz ds } := by
  induction ds generalizing sessions session with
  | nil => exact h
  | cons d ds ih =>
    have hcount := Session.receive_count hz d.time d.remaining hs d.id_nonneg
    have hstep : (udpReceived hz sessions (d.from e)).1 =
        sessions.set i
          { session with toStatData := session.count hz d.time d.hdr d.remaining } := by
      rw [DataDatagram.from, h.udpReceived_eq hz, hcount]
    have hnext := @InSlot.set κ sessions e i
      { session with toStatData := session.count hz d.time d.hdr d.remaining }
      h.lt_length h.before h.isFor
    rw [← hstep] at hnext
    exact ih hnext hs

end InSlot

theorem inSlot_start (hz : Nat) {sessions : List (Session κ)} {e : Endpoint} {i : Nat}
    {s : Session κ} (hi : (getSession sessions e).1 = some i) (hs : sessions[i]? = some s)
    (hfree : s.isFree = true) (d : DataDatagram) :
    ∃ session, InSlot (udpReceived hz sessions (d.from e)).1 e i session ∧
      session.state = .ongoing ∧ session.toStatData = { startTime := d.time } := by
  obtain ⟨s₀, hresult, ⟨port, ip, htuple⟩, hfor, hbefore⟩ := getSession_slot hi hs
  have hlt : i < sessions.length := (List.getElem?_eq_some_iff.mp hs).1
  have hreceive := Session.receive_start hz d.time d.remaining (htuple ▸ hfree : s₀.isFree = true)
    d.id_nonneg
  have hstep : (udpReceived hz sessions (d.from e)).1 =
      sessions.set i
        { s₀ with toStatData := { startTime := d.time }, state := .ongoing } := by
    rw [DataDatagram.from, udpReceived_of_getSession rfl hlt hresult, hreceive]
  refine ⟨{ s₀ with toStatData := { startTime := d.time }, state := .ongoing }, ?_, rfl, rfl⟩
  rw [hstep]
  exact InSlot.set hlt hbefore hfor

/-! ## The report -/

section Report

variable (hz : Nat) {sessions : List (Session κ)} {e : Endpoint} {i : Nat} {s : Session κ}
  (first : DataDatagram) (data : List DataDatagram) (last : FinalDatagram)

/-- A session ends with the statistics of the datagrams after the one that opened it. -/
theorem session_end (hi : (getSession sessions e).1 = some i) (hs : sessions[i]? = some s)
    (hfree : s.isFree = true) :
    ∃ session : Session κ,
      session.toStatData = ({ startTime := first.time } : StatData).countAll hz data ∧
      (udpReceived hz (afterData hz e sessions (first :: data)) (last.from e)).2 =
        some { dst := e, hdr := last.hdr, stat := session.serverHdr hz last.time } ∧
      (udpReceived hz (afterData hz e sessions (first :: data)) (last.from e)).1[i]? =
        some session := by
  obtain ⟨opened, hopened, hstate, hdata⟩ := inSlot_start hz hi hs hfree first
  have hslot := hopened.afterData hz hstate data
  have hfinal := @Session.receive_final κ hz
    { opened with toStatData := opened.countAll hz data } last.time last.hdr last.remaining
    hstate last.id_neg
  have hreceived := hslot.udpReceived_eq hz last.hdr last.remaining last.time
  rw [hfinal] at hreceived
  let ended : Session κ :=
    { opened with
      toStatData := opened.countAll hz data
      state := .completed
      stat := (opened.countAll hz data).serverHdr hz last.time }
  have hended : (udpReceived hz (afterData hz e sessions (first :: data)) (last.from e)).1 =
      (afterData hz e sessions (first :: data)).set i ended := congrArg Prod.fst hreceived
  refine ⟨ended, congrArg (StatData.countAll hz · data) hdata, congrArg Prod.snd hreceived, ?_⟩
  rw [hended]
  exact List.getElem?_set_self hslot.lt_length

theorem accounts_start (time : BitVec 32) : ({ startTime := time } : StatData).Accounts 0 0 0 where
  counter := rfl
  nextId := rfl
  outorder := rfl
  error := rfl

/-- The statistics account for the datagrams after the first. -/
theorem session_accounts_rest (hi : (getSession sessions e).1 = some i)
    (hs : sessions[i]? = some s) (hfree : s.isFree = true) :
    ∃ reply session,
      (udpReceived hz (afterData hz e sessions (first :: data)) (last.from e)).2 = some reply ∧
      (udpReceived hz (afterData hz e sessions (first :: data)) (last.from e)).1[i]? =
        some session ∧
      reply.dst = e ∧ Accounted (data.map (·.id)) reply.stat session.nextId := by
  obtain ⟨session, hdata, hreply, hslot⟩ := session_end hz first data last hi hs hfree
  have haccounts := (accounts_start first.time).countAll hz data
  rw [← hdata, Nat.zero_add, Nat.zero_add] at haccounts
  refine ⟨_, session, hreply, hslot, rfl, ?_, ?_, haccounts.outorder, haccounts.error⟩
  · rw [List.length_map]
    exact haccounts.counter
  · rw [← haccounts.nextId, BitVec.ofNat_toNat, BitVec.setWidth_eq]

/-- They never account for all of them: the datagram that opens a session is not counted. -/
theorem session_never_accounted (hi : (getSession sessions e).1 = some i)
    (hs : sessions[i]? = some s) (hfree : s.isFree = true) :
    ∃ reply session,
      (udpReceived hz (afterData hz e sessions (first :: data)) (last.from e)).2 = some reply ∧
      (udpReceived hz (afterData hz e sessions (first :: data)) (last.from e)).1[i]? =
        some session ∧
      reply.dst = e ∧ ¬ Accounted ((first :: data).map (·.id)) reply.stat session.nextId := by
  obtain ⟨reply, session, hreply, hslot, hdst, hrest⟩ :=
    session_accounts_rest hz first data last hi hs hfree
  refine ⟨reply, session, hreply, hslot, hdst, fun hall => ?_⟩
  have hcount := hall.datagrams.symm.trans hrest.datagrams
  rw [List.map_cons, List.length_cons, ← BitVec.toNat_inj, BitVec.toNat_ofNat,
    BitVec.toNat_ofNat] at hcount
  omega

/-- A peer and the datagrams of a stream without loss. -/
def streamPeer : Endpoint := { addr := .inet 0x0A000001, port := 5001 }

def stream : List DataDatagram :=
  [{ hdr := { id := 0 }, id_lt := by decide }, { hdr := { id := 1 }, id_lt := by decide },
    { hdr := { id := 2 }, id_lt := by decide }]

def streamEnd : FinalDatagram := { hdr := { id := -2 }, id_neg := by decide }

theorem session_never_accounted_stream :
    ∃ reply session,
      (udpReceived 32768
        (afterData 32768 streamPeer (zeroedSessions Unit) stream) (streamEnd.from streamPeer)).2 =
          some reply ∧
      (udpReceived 32768
        (afterData 32768 streamPeer (zeroedSessions Unit) stream)
          (streamEnd.from streamPeer)).1[0]? = some session ∧
      reply.dst = streamPeer ∧ ¬ Accounted (stream.map (·.id)) reply.stat session.nextId :=
  session_never_accounted 32768 _ _ streamEnd (by decide) rfl rfl

/-- A stream of three without loss is reported as two datagrams and one error. -/
theorem not_session_accounted :
    ¬ ∀ data reply session,
      (udpReceived 32768
        (afterData 32768 streamPeer (zeroedSessions Unit) data) (streamEnd.from streamPeer)).2 =
          some reply →
      (udpReceived 32768
        (afterData 32768 streamPeer (zeroedSessions Unit) data)
          (streamEnd.from streamPeer)).1[0]? = some session →
      Accounted (data.map (·.id)) reply.stat session.nextId := by
  intro h
  have hdatagrams := (h stream _ _ rfl rfl).datagrams
  revert hdatagrams
  decide

end Report

end Zperf
end ZephyrSamples
