import ZephyrSamples.Zperf.UdpReceiver
import Mathlib.Logic.Function.Basic

/-!
# The peers of the UDP receiver

The table of `udp_received` is shared by all remote endpoints.  `Traced` keeps its history beside
it: the endpoint `get_session` last returned a slot for, the endpoint whose datagram started the
session in a slot, and each endpoint's datagrams since its last session start.  `Apart` says of a
datagram that it mixes no two peers; a run whose datagrams are all `Regular` mixes none. -/

namespace ZephyrSamples
namespace Zperf

open SlotTable Runs

variable {κ : Type*}

/-- A session that takes datagrams and nothing else happens to. -/
def replay (κ : Type*) (hz : Nat) (pkts : List Packet) : Session κ :=
  pkts.foldl
    (fun session pkt =>
      match pkt.hdr with
      | none => session
      | some hdr => (session.receive hz pkt.time hdr pkt.remaining).1)
    {}

theorem replay_append (hz : Nat) (pkts : List Packet) {pkt : Packet} {hdr : UdpDatagram}
    (hhdr : pkt.hdr = some hdr) :
    replay κ hz (pkts ++ [pkt]) =
      ((replay κ hz pkts).receive hz pkt.time hdr pkt.remaining).1 := by
  rw [replay, List.foldl_append, List.foldl_cons, List.foldl_nil, hhdr, replay]

/-- The table of the receiver with its history. -/
structure Traced (κ : Type*) where
  sessions : List (Session κ)
  holder : Nat → Option Endpoint := fun _ => none
  opener : Nat → Option Endpoint := fun _ => none
  log : Endpoint → List Packet := fun _ => []

namespace Traced

/-- The table after `zperf_session_init`. -/
def init (κ : Type*) : Traced κ := { sessions := sessionInit (zeroedSessions κ) }

/-- The history after a datagram for which `get_session` returns slot `i`, in state `state`. -/
def record (t : Traced κ) (pkt : Packet) (hdr : UdpDatagram) (i : Nat) (state : SessionState) :
    Traced κ :=
  let t := { t with holder := Function.update t.holder i (some pkt.src) }
  match state with
  | .completed | .null =>
    if hdr.id.slt 0 then t
    else
      { t with
        opener := Function.update t.opener i (some pkt.src)
        log := Function.update t.log pkt.src [pkt] }
  | .ongoing => { t with log := Function.update t.log pkt.src (t.log pkt.src ++ [pkt]) }
  | .lastPacketReceived => t

/-- `udp_received`, with the history. -/
def step (hz : Nat) (t : Traced κ) (pkt : Packet) : Traced κ :=
  let t' := { t with sessions := (udpReceived hz t.sessions pkt).1 }
  match pkt.hdr, (getSession t.sessions pkt.src).1 with
  | some hdr, some i =>
    match t.sessions[i]? with
    | some session => t'.record pkt hdr i session.state
    | none => t'
  | _, _ => t'

/-- A datagram that mixes no two peers: statistics it is answered with are those of its sender's
last session, or were never filled, and it changes no counters of a session another endpoint
started and has not ended. -/
structure Apart (hz : Nat) (t : Traced κ) (pkt : Packet) : Prop where
  own : ∀ reply, (udpReceived hz t.sessions pkt).2 = some reply →
    reply.dst = pkt.src ∧
      (reply.stat = {} ∨ reply.stat = (replay κ hz ((t.step hz pkt).log pkt.src)).stat)
  others : ∀ i e s s', t.opener i = some e → e ≠ pkt.src → t.sessions[i]? = some s →
    s.state = .ongoing → (t.step hz pkt).sessions[i]? = some s' → s'.toStatData = s.toStatData

/-- The first slot that compares equal with the endpoint. -/
def slotFor (t : Traced κ) (e : Endpoint) : Option Nat := t.sessions.findIdx? (·.isFor e)

/-- The first free slot. -/
def freeSlot (t : Traced κ) : Option Nat := t.sessions.findIdx? (·.isFree)

/-- A datagram that has no header, or that `get_session` has the right slot for.  The slot it
compares equal with was last returned for the same endpoint, or for none yet; and a final datagram
for which there is no such slot gets one in which no session was completed. -/
structure Regular (t : Traced κ) (pkt : Packet) : Prop where
  held : pkt.hdr ≠ none → ∀ i ∈ t.slotFor pkt.src, t.holder i = none ∨ t.holder i = some pkt.src
  unused : ∀ hdr ∈ pkt.hdr, hdr.id.slt 0 = true → t.slotFor pkt.src = none →
    ∀ i ∈ t.freeSlot, ∀ s ∈ t.sessions[i]?, s.state = .null

instance (t : Traced κ) (pkt : Packet) : Decidable (Regular t pkt) :=
  decidable_of_iff
    ((pkt.hdr ≠ none →
        ∀ i ∈ t.slotFor pkt.src, t.holder i = none ∨ t.holder i = some pkt.src) ∧
      ∀ hdr ∈ pkt.hdr, hdr.id.slt 0 = true → t.slotFor pkt.src = none →
        ∀ i ∈ t.freeSlot, ∀ s ∈ t.sessions[i]?, s.state = .null)
    ⟨fun h => ⟨h.1, h.2⟩, fun h => ⟨h.held, h.unused⟩⟩

/-! ## The invariant -/

/-- What a slot keeps of the session that was last started in it. -/
def Keeps (s r : Session κ) : Prop :=
  (s.state = .ongoing ∧ r.state = .ongoing ∧ s.toStatData = r.toStatData) ∨
    (s.state = .completed ∧ r.state = .completed ∧ s.stat = r.stat)

theorem Keeps.receive {s r : Session κ} (h : Keeps s r) (hs : s.state = .ongoing) (hz : Nat)
    (time : BitVec 32) (hdr : UdpDatagram) (remaining : BitVec 32) :
    Keeps (s.receive hz time hdr remaining).1 (r.receive hz time hdr remaining).1 := by
  rcases h with ⟨_, hr, hdata⟩ | ⟨hdone, _, _⟩
  · cases hid : hdr.id.slt 0 with
    | true =>
      rw [Session.receive_final _ _ _ hs hid, Session.receive_final _ _ _ hr hid]
      exact Or.inr ⟨rfl, rfl, congrArg (StatData.serverHdr hz · time) hdata⟩
    | false =>
      rw [Session.receive_count _ _ _ hs hid, Session.receive_count _ _ _ hr hid]
      exact Or.inl ⟨hs, hr, congrArg (StatData.count hz · time hdr remaining) hdata⟩
  · rw [hs] at hdone
    cases hdone

/-- Every slot compares equal with the endpoint that holds it, and no endpoint holds two. -/
structure Holders (sessions : List (Session κ)) (holder : Nat → Option Endpoint) : Prop where
  inRange : ∀ i e, holder i = some e → i < sessions.length
  pristine : ∀ i s, sessions[i]? = some s → holder i = none → s = {}
  held : ∀ i s e, sessions[i]? = some s → holder i = some e → s.isFor e = true
  once : ∀ i j e, holder i = some e → holder j = some e → i = j
  before : ∀ i j e, holder i = some e → j < i → holder j = none →
    ({} : Session κ).isFor e = false

/-- The peers of a table are separate. -/
structure Separate (hz : Nat) (t : Traced κ) : Prop extends Holders t.sessions t.holder where
  opened : ∀ i e, t.opener i = some e → t.holder i = some e
  idle : ∀ i s, t.sessions[i]? = some s → t.opener i = none → s.state = .null ∧ s.stat = {}
  keeps : ∀ i s e, t.sessions[i]? = some s → t.opener i = some e → Keeps s (replay κ hz (t.log e))

variable {hz : Nat} {t : Traced κ} {pkt : Packet}

theorem holders_init : Holders (init κ).sessions (init κ).holder where
  inRange := by intro i e h; cases h
  pristine := by
    intro i s hs _
    exact zeroedSessions_slot hs
  held := by intro i s e _ h; cases h
  once := by intro i j e h; cases h
  before := by intro i j e h; cases h

theorem separate_init : Separate hz (init κ) where
  toHolders := holders_init
  opened := by intro i e h; cases h
  idle := by
    intro i s hs _
    rw [zeroedSessions_slot hs]
    exact ⟨rfl, rfl⟩
  keeps := by intro i s e _ h; cases h

theorem update_holder_some {holder : Nat → Option Endpoint} {i m : Nat} {e f : Endpoint}
    (hm : Function.update holder i (some e) m = some f) :
    (m = i ∧ f = e) ∨ (m ≠ i ∧ holder m = some f) := by
  by_cases hmi : m = i
  · rw [hmi, Function.update_self] at hm
    exact Or.inl ⟨hmi, (Option.some.inj hm).symm⟩
  · rw [Function.update_of_ne hmi] at hm
    exact Or.inr ⟨hmi, hm⟩

theorem update_holder_none {holder : Nat → Option Endpoint} {i m : Nat} {e : Endpoint}
    (hm : Function.update holder i (some e) m = none) : m ≠ i ∧ holder m = none := by
  by_cases hmi : m = i
  · rw [hmi, Function.update_self] at hm
    cases hm
  · rw [Function.update_of_ne hmi] at hm
    exact ⟨hmi, hm⟩

/-- A slot may be written for an endpoint that holds no other slot, if none before it compares equal
with the endpoint. -/
theorem Holders.set {sessions : List (Session κ)} {holder : Nat → Option Endpoint}
    (h : Holders sessions holder) {i : Nat} {e : Endpoint} {r : Session κ}
    (hi : i < sessions.length) (hr : r.isFor e = true)
    (hbefore : ∀ j < i, ∀ b, sessions[j]? = some b → ¬ b.isFor e = true)
    (honly : ∀ m, holder m = some e → m = i) :
    Holders (sessions.set i r) (Function.update holder i (some e)) := by
  constructor
  case inRange =>
    intro m f hm
    rw [List.length_set]
    rcases update_holder_some hm with ⟨rfl, _⟩ | ⟨_, hold⟩
    · exact hi
    · exact h.inRange m f hold
  case pristine =>
    intro m s hs hm
    obtain ⟨hmi, hold⟩ := update_holder_none hm
    rw [List.getElem?_set_ne (Ne.symm hmi)] at hs
    exact h.pristine m s hs hold
  case held =>
    intro m s f hs hm
    rcases update_holder_some hm with ⟨rfl, rfl⟩ | ⟨hmi, hold⟩
    · rw [List.getElem?_set_self hi] at hs
      rw [← Option.some.inj hs]
      exact hr
    · rw [List.getElem?_set_ne (Ne.symm hmi)] at hs
      exact h.held m s f hs hold
  case once =>
    intro m n f hm hn
    rcases update_holder_some hm with ⟨rfl, rfl⟩ | ⟨hmi, hold⟩
    · rcases update_holder_some hn with ⟨rfl, _⟩ | ⟨_, hold⟩
      · rfl
      · exact (honly n hold).symm
    · rcases update_holder_some hn with ⟨rfl, rfl⟩ | ⟨_, hold'⟩
      · exact honly m hold
      · exact h.once m n f hold hold'
  case before =>
    intro m n f hm hnm hn
    obtain ⟨hni, hnone⟩ := update_holder_none hn
    rcases update_holder_some hm with ⟨rfl, rfl⟩ | ⟨hmi, hold⟩
    · have hlt : n < sessions.length := by omega
      have hslot := List.getElem?_eq_getElem hlt
      have hzero := h.pristine n _ hslot hnone
      have hnot := hbefore n hnm _ hslot
      rw [hzero] at hnot
      exact eq_false_of_ne_true hnot
    · exact h.before m n f hold hnm hnone

/-- The slot `get_session` returns for a regular datagram: it is the one its sender holds, or it is
free, and its sender holds none. -/
structure Target (t : Traced κ) (pkt : Packet) (hdr : UdpDatagram) (i : Nat) (s s₀ : Session κ) :
    Prop where
  slot : t.sessions[i]? = some s
  result : getSession t.sessions pkt.src = (some i, t.sessions.set i s₀)
  tuple : ∃ port ip, s₀ = { s with port := port, ip := ip }
  isFor : s₀.isFor pkt.src = true
  before : ∀ j < i, ∀ b, t.sessions[j]? = some b → ¬ b.isFor pkt.src = true
  holder : t.holder i = some pkt.src ∨
    (s.isFree = true ∧ (hdr.id.slt 0 = true → s.state = .null) ∧
      ∀ m, t.holder m ≠ some pkt.src)

theorem Separate.target (h : Separate hz t) (hpkt : Regular t pkt) {hdr : UdpDatagram}
    (hhdr : pkt.hdr = some hdr) (hsome : getSession t.sessions pkt.src ≠ (none, t.sessions)) :
    ∃ i s s₀, Target t pkt hdr i s s₀ := by
  rcases getSession_cases t.sessions pkt.src with
    ⟨i, hfirst, hresult⟩ | ⟨i, hnowhere, hfirst, hsupported, hresult⟩ | hnone
  · obtain ⟨⟨s, hs, hfor⟩, hbefore⟩ := hfirst
    have hcomplete : pkt.hdr ≠ none := by
      rw [hhdr]
      exact Option.some_ne_none hdr
    refine ⟨i, s, s, ⟨hs, ?_, ⟨s.port, s.ip, rfl⟩, hfor, hbefore, ?_⟩⟩
    · rw [hresult, set_self hs]
    · rcases hpkt.held hcomplete i (findIdx?_eq_some.mpr ⟨⟨s, hs, hfor⟩, hbefore⟩) with
        hnone | hheld
      · -- a zeroed slot compares equal with a zero tuple
        have hzero : s = {} := h.pristine i s hs hnone
        subst hzero
        refine Or.inr ⟨rfl, fun _ => rfl, fun m hm => ?_⟩
        have hr := List.getElem?_eq_getElem (h.inRange m _ hm)
        have hle : i ≤ m :=
          First.le_of_getElem? ⟨⟨_, hs, hfor⟩, hbefore⟩ hr (h.held m _ _ hr hm)
        have hne : i ≠ m := by
          intro heq
          rw [heq, hm] at hnone
          cases hnone
        rw [h.before m i _ hm (by omega) hnone] at hfor
        cases hfor
      · exact Or.inl hheld
  · obtain ⟨⟨s, hs, hfree⟩, hbefore⟩ := hfirst
    refine ⟨i, s, s.setTuple pkt.src, ⟨hs, ?_, ?_, Session.isFor_setTuple s hsupported,
      fun j _ b hb => hnowhere j b hb, Or.inr ⟨hfree, ?_, ?_⟩⟩⟩
    · rw [hresult, modify_eq_set hs]
    · exact s.setTuple_eq pkt.src
    · intro hid
      exact hpkt.unused hdr hhdr hid (findIdx?_eq_none.mpr hnowhere) i
        (findIdx?_eq_some.mpr ⟨⟨s, hs, hfree⟩, hbefore⟩) s hs
    · intro m hm
      have hlt := h.inRange m _ hm
      have hr := List.getElem?_eq_getElem hlt
      exact hnowhere m _ hr (h.held m _ _ hr hm)
  · exact absurd hnone hsome

namespace Target

variable {hdr : UdpDatagram} {i : Nat} {s s₀ : Session κ}

theorem lt_length (h : Target t pkt hdr i s s₀) : i < t.sessions.length :=
  (List.getElem?_eq_some_iff.mp h.slot).1

theorem only (h : Target t pkt hdr i s s₀) (hsep : Separate hz t) (m : Nat)
    (hm : t.holder m = some pkt.src) : m = i := by
  rcases h.holder with hheld | ⟨_, _, hnot⟩
  · exact hsep.once m i _ hm hheld
  · exact absurd hm (hnot m)

/-- The session in the slot, if there was one and it goes on or is asked about, is the sender's. -/
theorem opener_eq (h : Target t pkt hdr i s s₀) (hsep : Separate hz t) {e : Endpoint}
    (he : t.opener i = some e) (hs : s.isFree = false ∨ hdr.id.slt 0 = true) : e = pkt.src := by
  have hheld := hsep.opened i e he
  rcases h.holder with hsender | ⟨hfree, hnull, _⟩
  · exact Option.some.inj (hheld.symm.trans hsender)
  · rcases hs with hbusy | hid
    · rw [hfree] at hbusy
      cases hbusy
    · rcases hsep.keeps i s e h.slot he with ⟨hstate, _, _⟩ | ⟨hstate, _, _⟩ <;>
        · rw [hnull hid] at hstate
          cases hstate

theorem udpReceived_eq (h : Target t pkt hdr i s s₀) (hhdr : pkt.hdr = some hdr) :
    udpReceived hz t.sessions pkt =
      (t.sessions.set i (s₀.receive hz pkt.time hdr pkt.remaining).1,
        if (s₀.receive hz pkt.time hdr pkt.remaining).2 then
          some
            { dst := pkt.src
              hdr := hdr
              stat := (s₀.receive hz pkt.time hdr pkt.remaining).1.stat }
        else none) :=
  udpReceived_of_getSession hhdr h.lt_length h.result

theorem step_eq (h : Target t pkt hdr i s s₀) (hhdr : pkt.hdr = some hdr) :
    t.step hz pkt =
      ({ t with sessions := t.sessions.set i (s₀.receive hz pkt.time hdr pkt.remaining).1 } :
        Traced κ).record pkt hdr i s.state := by
  simp only [step, h.udpReceived_eq hhdr, hhdr, h.result, h.slot]

theorem others (h : Target t pkt hdr i s s₀) (hsep : Separate hz t) (r : Session κ) {m : Nat}
    {e : Endpoint} {b b' : Session κ} (he : t.opener m = some e) (hne : e ≠ pkt.src)
    (hb : t.sessions[m]? = some b) (hbusy : b.state = .ongoing)
    (hb' : (t.sessions.set i r)[m]? = some b') : b'.toStatData = b.toStatData := by
  rcases getElem?_set_cases hb' with ⟨rfl, _⟩ | ⟨_, hsame⟩
  · have hsb : s = b := Option.some.inj (h.slot.symm.trans hb)
    have hfree : s.isFree = false := by rw [hsb, Session.isFree, hbusy]; rfl
    exact absurd (h.opener_eq hsep he (Or.inl hfree)) hne
  · rw [Option.some.inj (hsame.symm.trans hb)]

/-- The slot is written with `r`, held by the sender from now on, and its session, if it has one, is
the sender's: what is known of the other slots stays. -/
theorem separate_write (h : Target t pkt hdr i s s₀) (hsep : Separate hz t) {r : Session κ}
    {opener : Nat → Option Endpoint} {log : Endpoint → List Packet} (hfor : r.isFor pkt.src = true)
    (hopener : ∀ m ≠ i, opener m = t.opener m) (hlog : ∀ e ≠ pkt.src, log e = t.log e)
    (howner : ∀ e, opener i = some e → e = pkt.src ∧ Keeps r (replay κ hz (log pkt.src)))
    (hidle : opener i = none → r.state = .null ∧ r.stat = {}) :
    Separate hz
      { sessions := t.sessions.set i r
        holder := Function.update t.holder i (some pkt.src)
        opener := opener
        log := log } := by
  refine ⟨hsep.toHolders.set h.lt_length hfor h.before (h.only hsep), ?_, ?_, ?_⟩
  · intro m e he
    change opener m = some e at he
    show Function.update t.holder i (some pkt.src) m = some e
    by_cases hmi : m = i
    · rw [hmi] at he ⊢
      rw [(howner e he).1, Function.update_self]
    · rw [hopener m hmi] at he
      rw [Function.update_of_ne hmi]
      exact hsep.opened m e he
  · intro m b hb hnone
    change opener m = none at hnone
    rcases getElem?_set_cases hb with ⟨rfl, rfl⟩ | ⟨hmi, hb⟩
    · exact hidle hnone
    · rw [hopener m hmi] at hnone
      exact hsep.idle m b hb hnone
  · intro m b e hb he
    change opener m = some e at he
    show Keeps b (replay κ hz (log e))
    rcases getElem?_set_cases hb with ⟨rfl, rfl⟩ | ⟨hmi, hb⟩
    · obtain ⟨rfl, hkeeps⟩ := howner e he
      exact hkeeps
    · rw [hopener m hmi] at he
      have hne : e ≠ pkt.src := by
        rintro rfl
        exact hmi (h.only hsep m (hsep.opened m _ he))
      rw [hlog e hne]
      exact hsep.keeps m b e hb he

/-- A repeated final datagram is answered with the statistics of its sender's last session, or with
those of a slot that was never used. -/
theorem resend (h : Target t pkt hdr i s s₀) (hsep : Separate hz t) (hhdr : pkt.hdr = some hdr)
    (hfree : s.isFree = true) (hid : hdr.id.slt 0 = true) :
    Separate hz (t.step hz pkt) ∧ Apart hz t pkt := by
  obtain ⟨port, ip, htuple⟩ := h.tuple
  have hfree₀ : s₀.isFree = true := by rw [htuple]; exact hfree
  have hreceive := Session.receive_resend hz pkt.time pkt.remaining hfree₀ hid
  have hstep : t.step hz pkt =
      { t with
        sessions := t.sessions.set i s₀
        holder := Function.update t.holder i (some pkt.src) } := by
    rw [h.step_eq hhdr, hreceive]
    rcases Session.isFree_iff.mp hfree with hs | hs <;> simp only [record, hs, hid, if_true]
  have hreply : (udpReceived hz t.sessions pkt).2 =
      some { dst := pkt.src, hdr := hdr, stat := s.stat } := by
    rw [h.udpReceived_eq hhdr, hreceive, htuple]
    rfl
  constructor
  · rw [hstep]
    refine h.separate_write hsep h.isFor (fun _ _ => rfl) (fun _ _ => rfl) ?_ ?_
    · intro e he
      obtain rfl := h.opener_eq hsep he (Or.inr hid)
      rw [htuple]
      exact ⟨rfl, hsep.keeps i s _ h.slot he⟩
    · intro hnone
      rw [htuple]
      exact hsep.idle i s h.slot hnone
  · constructor
    · intro reply hr
      rw [hreply] at hr
      obtain rfl := Option.some.inj hr
      refine ⟨rfl, ?_⟩
      rw [hstep]
      show s.stat = {} ∨ s.stat = (replay κ hz (t.log pkt.src)).stat
      cases hopener : t.opener i with
      | none => exact Or.inl (hsep.idle i s h.slot hopener).2
      | some e =>
        rw [h.opener_eq hsep hopener (Or.inr hid)] at hopener
        rcases hsep.keeps i s _ h.slot hopener with ⟨hs, _, _⟩ | ⟨_, _, hstat⟩
        · rw [Session.isFree, hs] at hfree
          cases hfree
        · exact Or.inr hstat
    · intro m e b b' he hne hb hbusy hb'
      rw [hstep] at hb'
      exact h.others hsep s₀ he hne hb hbusy hb'

theorem start (h : Target t pkt hdr i s s₀) (hsep : Separate hz t) (hhdr : pkt.hdr = some hdr)
    (hfree : s.isFree = true) (hid : hdr.id.slt 0 = false) :
    Separate hz (t.step hz pkt) ∧ Apart hz t pkt := by
  obtain ⟨port, ip, htuple⟩ := h.tuple
  have hfree₀ : s₀.isFree = true := by rw [htuple]; exact hfree
  have hreceive := Session.receive_start hz pkt.time pkt.remaining hfree₀ hid
  let r : Session κ := { s₀ with toStatData := { startTime := pkt.time }, state := .ongoing }
  have hstep : t.step hz pkt =
      { sessions := t.sessions.set i r
        holder := Function.update t.holder i (some pkt.src)
        opener := Function.update t.opener i (some pkt.src)
        log := Function.update t.log pkt.src [pkt] } := by
    rw [h.step_eq hhdr, hreceive]
    rcases Session.isFree_iff.mp hfree with hs | hs <;>
      simp only [record, hs, hid, if_neg Bool.false_ne_true] <;> rfl
  have hreply : (udpReceived hz t.sessions pkt).2 = none := by
    rw [h.udpReceived_eq hhdr, hreceive]
    rfl
  have hreplay : replay κ hz [pkt] =
      { ({} : Session κ) with toStatData := { startTime := pkt.time }, state := .ongoing } := by
    have happend := replay_append (κ := κ) hz [] hhdr
    rw [List.nil_append] at happend
    rw [happend]
    exact congrArg Prod.fst
      (@Session.receive_start κ hz {} pkt.time hdr pkt.remaining rfl hid)
  constructor
  · rw [hstep]
    refine h.separate_write hsep h.isFor ?_ ?_ ?_ ?_
    · exact fun m hmi => Function.update_of_ne hmi _ _
    · exact fun e hne => Function.update_of_ne hne _ _
    · intro e he
      rw [Function.update_self] at he ⊢
      rw [hreplay]
      exact ⟨(Option.some.inj he).symm, Or.inl ⟨rfl, rfl, rfl⟩⟩
    · intro hnone
      rw [Function.update_self] at hnone
      cases hnone
  · constructor
    · intro reply hr
      rw [hreply] at hr
      cases hr
    · intro m e b b' he hne hb hbusy hb'
      rw [hstep] at hb'
      exact h.others hsep r he hne hb hbusy hb'

theorem opener_of_ongoing (h : Target t pkt hdr i s s₀) (hsep : Separate hz t)
    (hbusy : s.state = .ongoing) : t.opener i = some pkt.src := by
  have hnotFree : s.isFree = false := by rw [Session.isFree, hbusy]; rfl
  cases hopener : t.opener i with
  | none =>
    rw [(hsep.idle i s h.slot hopener).1] at hbusy
    cases hbusy
  | some e => rw [h.opener_eq hsep hopener (Or.inl hnotFree)]

/-- The session goes on as its sender's datagrams alone would have it. -/
theorem keeps_receive (h : Target t pkt hdr i s s₀) (hsep : Separate hz t)
    (hhdr : pkt.hdr = some hdr) (hbusy : s.state = .ongoing) :
    Keeps (s₀.receive hz pkt.time hdr pkt.remaining).1
      (replay κ hz (t.log pkt.src ++ [pkt])) := by
  obtain ⟨port, ip, htuple⟩ := h.tuple
  rw [replay_append hz _ hhdr]
  have hs₀ : Keeps s₀ (replay κ hz (t.log pkt.src)) := by
    rw [htuple]
    exact hsep.keeps i s _ h.slot (h.opener_of_ongoing hsep hbusy)
  exact hs₀.receive (htuple ▸ hbusy) hz pkt.time hdr pkt.remaining

theorem goOn (h : Target t pkt hdr i s s₀) (hsep : Separate hz t) (hhdr : pkt.hdr = some hdr)
    (hbusy : s.state = .ongoing) : Separate hz (t.step hz pkt) ∧ Apart hz t pkt := by
  obtain ⟨port, ip, htuple⟩ := h.tuple
  have hopener := h.opener_of_ongoing hsep hbusy
  let r : Session κ := (s₀.receive hz pkt.time hdr pkt.remaining).1
  have hstep : t.step hz pkt =
      { t with
        sessions := t.sessions.set i r
        holder := Function.update t.holder i (some pkt.src)
        log := Function.update t.log pkt.src (t.log pkt.src ++ [pkt]) } := by
    rw [h.step_eq hhdr]
    simp only [record, hbusy]
    rfl
  have hkeeps : Keeps r (replay κ hz (t.log pkt.src ++ [pkt])) :=
    h.keeps_receive hsep hhdr hbusy
  have hfor : r.isFor pkt.src = true := by
    rw [Session.isFor_receive]
    exact h.isFor
  constructor
  · rw [hstep]
    refine h.separate_write hsep hfor (fun _ _ => rfl) ?_ ?_ ?_
    · exact fun e hne => Function.update_of_ne hne _ _
    · intro e he
      rw [Function.update_self]
      exact ⟨Option.some.inj (he.symm.trans hopener), hkeeps⟩
    · intro hnone
      rw [hnone] at hopener
      cases hopener
  · constructor
    · intro reply hr
      rw [h.udpReceived_eq hhdr] at hr
      cases hid : hdr.id.slt 0 with
      | false =>
        rw [Session.receive_count _ _ _ (htuple ▸ hbusy) hid] at hr
        cases hr
      | true =>
        have hfinal := @Session.receive_final κ hz s₀ pkt.time hdr pkt.remaining
          (htuple ▸ hbusy) hid
        have hdone : r.state = .completed := congrArg (fun p => p.1.state) hfinal
        rw [if_pos (congrArg Prod.snd hfinal)] at hr
        obtain rfl := Option.some.inj hr
        refine ⟨rfl, Or.inr ?_⟩
        rw [hstep]
        show r.stat = (replay κ hz
          (Function.update t.log pkt.src (t.log pkt.src ++ [pkt]) pkt.src)).stat
        rw [Function.update_self]
        rcases hkeeps with ⟨hongoing, _, _⟩ | ⟨_, _, hstat⟩
        · rw [hdone] at hongoing
          cases hongoing
        · exact hstat
    · intro m e b b' he hne hb hbusy hb'
      rw [hstep] at hb'
      exact h.others hsep r he hne hb hbusy hb'

end Target

/-! ## Runs -/

theorem Separate.drop (h : Separate hz t)
    (hdrop : udpReceived hz t.sessions pkt = (t.sessions, none))
    (hstep : t.step hz pkt = t) : Separate hz (t.step hz pkt) ∧ Apart hz t pkt := by
  refine ⟨by rw [hstep]; exact h, ⟨?_, ?_⟩⟩
  · intro reply hr
    rw [hdrop] at hr
    cases hr
  · intro m e b b' _ _ hb _ hb'
    rw [hstep, hb] at hb'
    rw [Option.some.inj hb']

/-- A regular datagram mixes no two peers, and leaves them separate. -/
theorem Separate.step_apart (h : Separate hz t) (hpkt : Regular t pkt) :
    Separate hz (t.step hz pkt) ∧ Apart hz t pkt := by
  cases hhdr : pkt.hdr with
  | none =>
    have hdrop : udpReceived hz t.sessions pkt = (t.sessions, none) := udpReceived_of_none hhdr
    exact h.drop hdrop (by simp only [step, hdrop, hhdr])
  | some hdr =>
    by_cases hsome : getSession t.sessions pkt.src = (none, t.sessions)
    · have hdrop : udpReceived hz t.sessions pkt = (t.sessions, none) :=
        udpReceived_of_getSession_none hsome
      exact h.drop hdrop (by simp only [step, hdrop, hhdr, hsome])
    · obtain ⟨i, s, s₀, htarget⟩ := h.target hpkt hhdr hsome
      cases hfree : s.isFree with
      | true =>
        cases hid : hdr.id.slt 0 with
        | true => exact htarget.resend h hhdr hfree hid
        | false => exact htarget.start h hhdr hfree hid
      | false =>
        have hheld : t.holder i = some pkt.src := by
          rcases htarget.holder with hheld | ⟨hfree', _, _⟩
          · exact hheld
          · rw [hfree] at hfree'
            cases hfree'
        have hbusy : s.state = .ongoing := by
          cases hopener : t.opener i with
          | none =>
            rw [Session.isFree, (h.idle i s htarget.slot hopener).1] at hfree
            cases hfree
          | some e =>
            rcases h.keeps i s e htarget.slot hopener with ⟨hs, _, _⟩ | ⟨hs, _, _⟩
            · exact hs
            · rw [Session.isFree, hs] at hfree
              cases hfree
        exact htarget.goOn h hhdr hbusy

end Traced

/-- In every run of the receiver whose datagrams are all regular, no two peers are mixed. -/
theorem peers_apart (hz : Nat) (pkts : List Packet)
    (h : Along (Traced.step hz) Traced.Regular (Traced.init κ) pkts) :
    Along (Traced.step hz) (Traced.Apart hz) (Traced.init κ) pkts :=
  Along.imp_of_invariant _ (fun _ _ hsep hpkt => Traced.Separate.step_apart hsep hpkt)
    Traced.separate_init h

/-- Two endpoints of one host. -/
def peer (port : BitVec 16) : Endpoint := { addr := .inet 0x0A000001, port := port }

/-- A datagram with an id and nothing else of interest. -/
def datagram (src : Endpoint) (id : BitVec 32) : Packet := { src := src, hdr := some { id := id } }

/-- A datagram too short for a header, from an IPv6 endpoint that compares equal with the slot of
`peer 5001`. -/
def short : Packet :=
  { src := { addr := .inet6 { inAddr := 0x0A000001 }, port := 5001 }, hdr := none }

/-- Two peers whose sessions overlap, and that ask again for their statistics, are served apart. -/
theorem peers_apart_overlapping :
    Along (Traced.step 32768) (Traced.Apart 32768) (Traced.init Unit)
      [datagram (peer 5001) 0, datagram (peer 5002) 0, short, datagram (peer 5001) 1,
        datagram (peer 5001) (-1), datagram (peer 5002) (-1), datagram (peer 5001) (-1)] :=
  peers_apart 32768 _ (by decide)

/-- A final datagram from an endpoint without a slot gets one that holds the statistics of
another endpoint, and is answered with them. -/
theorem not_peers_apart :
    ¬ ∀ pkts, Along (Traced.step 32768) (Traced.Apart 32768) (Traced.init Unit) pkts := by
  intro h
  have hrun := h [datagram (peer 5001) 0, datagram (peer 5001) 1, datagram (peer 5001) (-1),
    datagram (peer 5002) (-1)]
  have hown := (hrun.2.2.2.1.own _ rfl).2
  revert hown
  decide

end Zperf
end ZephyrSamples
