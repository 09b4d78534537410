import ZephyrSamples.Zperf.Session
import ZephyrSamples.Lib.Runs
import Mathlib.Logic.Function.Basic
import Mathlib.Data.List.Basic

/-!
# The zperf TCP receiver

`tcp_received` of the `zperf` sample, for callbacks with data and at the end of a stream.
`TcpTraced` keeps beside the table which contexts are open, the slot `get_tcp_session` returned for
the first data of each and how many bytes it has received.  A callback keeps to one session per
connection, `OneSession`, exactly when the slots before that of its context are all in use.
-/

namespace ZephyrSamples
namespace Zperf

open SlotTable Runs

variable {κ : Type*}

/-- A call of `tcp_received`: `net_pkt_remaining_data` of the packet, if there is one, the status,
and the cycle counter where a session starts. -/
structure TcpCall (κ : Type*) where
  context : κ
  pkt : Option (BitVec 32)
  status : Int := 0
  startTime : BitVec 32 := 0

namespace Session

variable (session : Session κ) (call : TcpCall κ)

/-- The case `STATE_ONGOING`: the session after it, and whether the stream has ended. -/
def tcpCount : Session κ × Bool :=
  let session := { session with counter := session.counter + 1 }
  let session :=
    match call.pkt with
    | some remaining => { session with length := session.length + remaining.setWidth 64 }
    | none => session
  if call.pkt.isNone ∧ call.status = 0 then
    -- STATE_COMPLETED, until the results are printed
    ({ session with state := .null }, true)
  else (session, false)

/-- The `switch` of `tcp_received`. -/
def tcpReceive : Session κ × Bool :=
  match session.state with
  | .completed => (session, false)
  | .null =>
    let session := session.resetStats
    ({ session with startTime := call.startTime, state := .ongoing } : Session κ).tcpCount call
  | .ongoing => session.tcpCount call
  | .lastPacketReceived => (session, false)

end Session

/-- `tcp_received` with the shell set: the table after it, and whether the context is released. -/
def tcpReceived [DecidableEq κ] (sessions : List (Session κ)) (call : TcpCall κ) :
    List (Session κ) × Bool :=
  match getTcpSession call.context sessions with
  | (none, sessions) => (sessions, false)
  | (some i, sessions) =>
    match sessions[i]? with
    | none => (sessions, false)
    | some session =>
      let (session, ended) := session.tcpReceive call
      (sessions.set i session, ended)

/-! ## What a callback does -/

namespace Session

variable {session : Session κ} (c : κ) {call : TcpCall κ}

theorem tcpReceive_data (hs : session.state = .ongoing) {remaining : BitVec 32}
    (hpkt : call.pkt = some remaining) :
    ((session.setCtx c).tcpReceive call).1.state = .ongoing ∧
      ((session.setCtx c).tcpReceive call).1.ctx = some c ∧
      ((session.setCtx c).tcpReceive call).1.length =
        session.length + BitVec.ofNat 64 remaining.toNat := by
  simp [tcpReceive, tcpCount, setCtx, hs, hpkt, BitVec.ofNat_toNat]

theorem tcpReceive_first (hs : session.state = .null) {remaining : BitVec 32}
    (hpkt : call.pkt = some remaining) :
    ((session.setCtx c).tcpReceive call).1.state = .ongoing ∧
      ((session.setCtx c).tcpReceive call).1.ctx = some c ∧
      ((session.setCtx c).tcpReceive call).1.length = BitVec.ofNat 64 remaining.toNat := by
  simp [tcpReceive, tcpCount, resetStats, setCtx, hs, hpkt, BitVec.ofNat_toNat]

theorem tcpReceive_end (hs : session.state = .null ∨ session.state = .ongoing)
    (hpkt : call.pkt = none) (hstatus : call.status = 0) :
    ((session.setCtx c).tcpReceive call).1.state = .null ∧
      ((session.setCtx c).tcpReceive call).1.ctx = some c ∧
      (session.state = .ongoing →
        ((session.setCtx c).tcpReceive call).1.length = session.length) := by
  rcases hs with hs | hs <;>
    simp [tcpReceive, tcpCount, resetStats, setCtx, hs, hpkt, hstatus]

end Session

section Received

variable [DecidableEq κ] {sessions : List (Session κ)} {call : TcpCall κ} {k : Nat} {s : Session κ}

theorem getTcpSession_of_first (hs : sessions[k]? = some s)
    (hfirst : First (fun s => s.endsSearch call.context = true) sessions k) :
    getTcpSession call.context sessions = (some k, sessions.set k (s.setCtx call.context)) := by
  rw [getTcpSession_eq, findIdx?_eq_some.mpr hfirst]
  exact congrArg _ (modify_eq_set hs _)

/-- A callback goes to the first slot that ends the search. -/
theorem tcpReceived_of_first (hs : sessions[k]? = some s)
    (hfirst : First (fun s => s.endsSearch call.context = true) sessions k) :
    (tcpReceived sessions call).1 =
      sessions.set k ((s.setCtx call.context).tcpReceive call).1 := by
  have hslot : (sessions.set k (s.setCtx call.context))[k]? = some (s.setCtx call.context) :=
    List.getElem?_set_self hfirst.lt_length
  simp only [tcpReceived, getTcpSession_of_first hs hfirst, hslot, List.set_set]

theorem tcpReceived_of_nowhere
    (hnowhere : Nowhere (fun s => s.endsSearch call.context = true) sessions) :
    getTcpSession call.context sessions = (none, sessions) ∧
      (tcpReceived sessions call).1 = sessions := by
  have hnone : getTcpSession call.context sessions = (none, sessions) := by
    rw [getTcpSession_eq, findIdx?_eq_none.mpr hnowhere]
  exact ⟨hnone, by simp only [tcpReceived, hnone]⟩

end Received

/-- The callbacks of a connection. -/
inductive TcpEvent (κ : Type*) where
  | data (context : κ) (remaining : BitVec 32) (status : Int) (startTime : BitVec 32)
  | endOfStream (context : κ) (startTime : BitVec 32)

namespace TcpEvent

def context : TcpEvent κ → κ
  | data context _ _ _ => context
  | endOfStream context _ => context

def isData : TcpEvent κ → Bool
  | data _ _ _ _ => true
  | endOfStream _ _ => false

def call : TcpEvent κ → TcpCall κ
  | data context remaining status startTime =>
    { context := context, pkt := some remaining, status := status, startTime := startTime }
  | endOfStream context startTime =>
    { context := context, pkt := none, status := 0, startTime := startTime }

end TcpEvent

/-- The table with the open contexts, the slot each of them was first given and the bytes it has
received. -/
structure TcpTraced (κ : Type*) where
  sessions : List (Session κ)
  opened : List κ := []
  slot : κ → Option Nat := fun _ => none
  total : κ → Nat := fun _ => 0

namespace TcpTraced

/-- The table after `zperf_session_init`. -/
def init (κ : Type*) : TcpTraced κ := { sessions := sessionInit (zeroedSessions κ) }

/-! ## The invariant -/

/-- An open context has a slot with an ongoing session, and is in no slot before it. -/
structure Owns (t : TcpTraced κ) (c : κ) (i : Nat) (s : Session κ) : Prop where
  slot : t.slot c = some i
  session : t.sessions[i]? = some s
  ctx : s.ctx = some c
  ongoing : s.state = .ongoing
  length : s.length = BitVec.ofNat 64 (t.total c)
  before : ∀ j < i, ∀ b : Session κ, t.sessions[j]? = some b → b.ctx ≠ some c

/-- The sessions in use are those of the open contexts. -/
structure OneEach (t : TcpTraced κ) : Prop where
  size : t.sessions.length = sessionMax
  states : ∀ (i : Nat) (s : Session κ), t.sessions[i]? = some s →
    s.state = .null ∨ s.state = .ongoing
  nodup : t.opened.Nodup
  owns : ∀ c ∈ t.opened, ∃ i s, Owns t c i s
  owned : ∀ (i : Nat) (s : Session κ), t.sessions[i]? = some s → s.state = .ongoing →
    ∃ c ∈ t.opened, t.slot c = some i

variable {t : TcpTraced κ} {e : TcpEvent κ}

theorem oneEach_init : OneEach (init κ) where
  size := rfl
  states := by
    intro i s hs
    rw [zeroedSessions_slot hs]
    exact Or.inl rfl
  nodup := List.nodup_nil
  owns := by intro c hc; cases hc
  owned := by
    intro i s hs hongoing
    rw [zeroedSessions_slot hs] at hongoing
    cases hongoing

theorem OneEach.slot_inj (h : OneEach t) {c d : κ} (hc : c ∈ t.opened) (hd : d ∈ t.opened)
    (heq : t.slot c = t.slot d) : c = d := by
  obtain ⟨i, s, hci⟩ := h.owns c hc
  obtain ⟨j, s', hdj⟩ := h.owns d hd
  have hij : i = j := Option.some.inj (hci.slot.symm.trans (heq.trans hdj.slot))
  subst hij
  have hss : s = s' := Option.some.inj (hci.session.symm.trans hdj.session)
  subst hss
  exact Option.some.inj (hci.ctx.symm.trans hdj.ctx)

/-- Writing another slot for another context leaves an open context's slot to it. -/
theorem Owns.set {t' : TcpTraced κ} {c d : κ} {j k : Nat} {b r : Session κ} (h : Owns t d j b)
    (hsessions : t'.sessions = t.sessions.set k r) (hslot : t'.slot d = t.slot d)
    (htotal : t'.total d = t.total d) (hkj : k ≠ j) (hr : r.ctx = some c) (hcd : c ≠ d) :
    Owns t' d j b where
  slot := hslot.trans h.slot
  session := by rw [hsessions, List.getElem?_set_ne hkj, h.session]
  ctx := h.ctx
  ongoing := h.ongoing
  length := by rw [htotal, h.length]
  before := by
    intro i hi a ha
    rw [hsessions] at ha
    rcases getElem?_set_cases ha with ⟨_, rfl⟩ | ⟨_, ha⟩
    · rw [hr]
      exact fun heq => hcd (Option.some.inj heq)
    · exact h.before i hi a ha

theorem OneEach.states_set (h : OneEach t) {k : Nat} {r : Session κ}
    (hr : r.state = .null ∨ r.state = .ongoing) (i : Nat) (s : Session κ)
    (hs : (t.sessions.set k r)[i]? = some s) : s.state = .null ∨ s.state = .ongoing := by
  rcases getElem?_set_cases hs with ⟨_, rfl⟩ | ⟨_, hs⟩
  · exact hr
  · exact h.states i s hs

/-- While fewer than four contexts are open there is a free slot. -/
theorem OneEach.exists_free (h : OneEach t) (hlt : t.opened.length < sessionMax) :
    ∃ s ∈ t.sessions, s.isFree = true := by
  by_contra hnone
  have hle : t.sessions.length ≤ t.opened.length := by
    refine length_le_of_home t.opened t.slot fun i hi => ?_
    have hs := List.getElem?_eq_getElem hi
    rcases h.states i _ hs with hnull | hongoing
    · exact absurd ⟨_, List.getElem_mem hi, by rw [Session.isFree, hnull]; rfl⟩ hnone
    · exact h.owned i _ hs hongoing
  rw [h.size] at hle
  omega

/-! ## Callbacks -/

section Step

variable [DecidableEq κ]

/-- `tcp_received`, with the history. -/
def step (t : TcpTraced κ) (e : TcpEvent κ) : TcpTraced κ :=
  let t' := { t with sessions := (tcpReceived t.sessions e.call).1 }
  match e with
  | .data c remaining _ _ =>
    if c ∈ t.opened then
      { t' with total := Function.update t.total c (t.total c + remaining.toNat) }
    else
      { t' with
        opened := c :: t.opened
        slot := Function.update t.slot c (getTcpSession c t.sessions).1
        total := Function.update t.total c remaining.toNat }
  | .endOfStream c _ => { t' with opened := t.opened.erase c }

/-- A connection that is not open may open only where fewer than four are. -/
def Admissible (t : TcpTraced κ) (e : TcpEvent κ) : Prop :=
  e.isData = true → e.context ∉ t.opened → t.opened.length < sessionMax

/-- One session per connection: a context gets a slot at its first data and the same one from then
on, no two open contexts have the same, and at the end of the stream the slot has the length of what
was received. -/
structure OneSession (t : TcpTraced κ) (e : TcpEvent κ) : Prop where
  first : e.isData = true → (getTcpSession e.context t.sessions).1 ≠ none
  same : e.context ∈ t.opened → (getTcpSession e.context t.sessions).1 = t.slot e.context
  distinct : ∀ c ∈ (t.step e).opened, ∀ d ∈ (t.step e).opened, c ≠ d →
    (t.step e).slot c ≠ (t.step e).slot d
  length : e.isData = false → e.context ∈ t.opened → ∀ i ∈ t.slot e.context,
    ∀ s ∈ (t.step e).sessions[i]?, s.length.toNat = t.total e.context

/-- The slots before that of an open context are all in use, and a stream that ends has carried less
than `2 ^ 64` bytes. -/
structure InOrder (t : TcpTraced κ) (e : TcpEvent κ) : Prop where
  used : e.context ∈ t.opened → ∀ i ∈ t.slot e.context, ∀ j < i, ∀ s ∈ t.sessions[j]?,
    s.isFree = false
  fits : e.isData = false → e.context ∈ t.opened → t.total e.context < 2 ^ 64

/-- A slot whose search ends there is the context's own, or has no session. -/
theorem OneEach.null_of_endsSearch (h : OneEach t) {c : κ} (hc : c ∉ t.opened) {k : Nat}
    {s : Session κ} (hs : t.sessions[k]? = some s) (hends : s.endsSearch c = true) :
    s.state = .null := by
  rcases h.states k s hs with hnull | hongoing
  · exact hnull
  · obtain ⟨d, hd, hslot⟩ := h.owned k s hs hongoing
    obtain ⟨i, s', howns⟩ := h.owns d hd
    obtain rfl : k = i := Option.some.inj (hslot.symm.trans howns.slot)
    obtain rfl : s = s' := Option.some.inj (hs.symm.trans howns.session)
    rcases Session.endsSearch_iff.mp hends with hctx | hfree
    · have hdc : d = c := Option.some.inj (howns.ctx.symm.trans hctx)
      exact absurd (hdc ▸ hd) hc
    · rw [Session.isFree, hongoing] at hfree
      cases hfree

/-- The search for an open context ends at its slot when the slots before that are in use, and only
then. -/
theorem Owns.first_iff {c : κ} {i : Nat} {s : Session κ} (h : Owns t c i s) :
    First (fun s => s.endsSearch c = true) t.sessions i ↔
      ∀ j < i, ∀ b ∈ t.sessions[j]?, b.isFree = false := by
  constructor
  · intro hfirst j hj b hb
    have hnot : ¬ b.endsSearch c = true := hfirst.2 j hj b hb
    rw [Session.endsSearch_iff, not_or] at hnot
    exact eq_false_of_ne_true hnot.2
  · intro hused
    refine ⟨⟨s, h.session, Session.endsSearch_iff.mpr (Or.inl h.ctx)⟩, fun j hj b hb => ?_⟩
    intro hends
    rcases Session.endsSearch_iff.mp hends with hctx | hfree
    · exact h.before j hj b hb hctx
    · rw [hused j hj b hb] at hfree
      cases hfree

theorem step_data_opened {c : κ} (hc : c ∈ t.opened) (remaining : BitVec 32) (status : Int)
    (startTime : BitVec 32) :
    t.step (.data c remaining status startTime) =
      { t with
        sessions := (tcpReceived t.sessions (TcpEvent.data c remaining status startTime).call).1
        total := Function.update t.total c (t.total c + remaining.toNat) } := if_pos hc

theorem step_data_new {c : κ} (hc : c ∉ t.opened) (remaining : BitVec 32) (status : Int)
    (startTime : BitVec 32) :
    t.step (.data c remaining status startTime) =
      { sessions := (tcpReceived t.sessions (TcpEvent.data c remaining status startTime).call).1
        opened := c :: t.opened
        slot := Function.update t.slot c (getTcpSession c t.sessions).1
        total := Function.update t.total c remaining.toNat } := if_neg hc

theorem step_end (c : κ) (startTime : BitVec 32) :
    t.step (.endOfStream c startTime) =
      { t with
        sessions := (tcpReceived t.sessions (TcpEvent.endOfStream c startTime).call).1
        opened := t.opened.erase c } := rfl

theorem OneEach.data_opened (h : OneEach t) {c : κ} (remaining : BitVec 32) (status : Int)
    (startTime : BitVec 32) (hc : c ∈ t.opened) {i : Nat} {s : Session κ} (howns : Owns t c i s)
    (hfirst : First (fun s => s.endsSearch c = true) t.sessions i) :
    OneEach (t.step (.data c remaining status startTime)) := by
  let call := (TcpEvent.data c remaining status startTime).call
  obtain ⟨hstate, hctx, hlength⟩ :=
    @Session.tcpReceive_data κ s c call howns.ongoing remaining rfl
  have hreceived := @tcpReceived_of_first κ _ t.sessions call i s howns.session hfirst
  rw [step_data_opened hc, hreceived]
  refine ⟨List.length_set.trans h.size, h.states_set (Or.inr hstate), h.nodup, ?_, ?_⟩
  · intro d hd
    by_cases hdc : d = c
    · subst hdc
      refine ⟨i, _, howns.slot, List.getElem?_set_self hfirst.lt_length, hctx, hstate, ?_, ?_⟩
      · refine hlength.trans ?_
        show _ = BitVec.ofNat 64 (Function.update t.total d _ d)
        rw [Function.update_self, BitVec.ofNat_add, howns.length]
      · intro j hj b hb
        rw [List.getElem?_set_ne (by omega)] at hb
        exact howns.before j hj b hb
    · obtain ⟨j, b, hb⟩ := h.owns d hd
      have hij : i ≠ j := by
        rintro rfl
        exact hdc (h.slot_inj hd hc (hb.slot.trans howns.slot.symm))
      exact ⟨j, b, hb.set rfl rfl (Function.update_of_ne hdc ..) hij hctx (Ne.symm hdc)⟩
  · intro j b hb hongoing
    rcases getElem?_set_cases hb with ⟨rfl, rfl⟩ | ⟨_, hb⟩
    · exact ⟨c, hc, howns.slot⟩
    · exact h.owned j b hb hongoing

/-- The end of the stream of an open context leaves its slot without a session, with the length it
had. -/
theorem OneEach.end_opened (h : OneEach t) {c : κ} (startTime : BitVec 32) (hc : c ∈ t.opened)
    {i : Nat} {s : Session κ} (howns : Owns t c i s)
    (hfirst : First (fun s => s.endsSearch c = true) t.sessions i) :
    OneEach (t.step (.endOfStream c startTime)) ∧
      ∃ r : Session κ, (t.step (.endOfStream c startTime)).sessions[i]? = some r ∧
        r.length = s.length := by
  let call := (TcpEvent.endOfStream c startTime).call
  obtain ⟨hstate, hctx, hlength⟩ :=
    @Session.tcpReceive_end κ s c call (Or.inr howns.ongoing) rfl rfl
  have hreceived := @tcpReceived_of_first κ _ t.sessions call i s howns.session hfirst
  rw [step_end, hreceived]
  refine ⟨⟨List.length_set.trans h.size, h.states_set (Or.inl hstate), h.nodup.erase c, ?_, ?_⟩,
    _, List.getElem?_set_self hfirst.lt_length, hlength howns.ongoing⟩
  · intro d hd
    obtain ⟨hdc, hd⟩ := (List.Nodup.mem_erase_iff h.nodup).mp hd
    obtain ⟨j, b, hb⟩ := h.owns d hd
    have hij : i ≠ j := by
      rintro rfl
      exact hdc (h.slot_inj hd hc (hb.slot.trans howns.slot.symm))
    exact ⟨j, b, hb.set rfl rfl rfl hij hctx (Ne.symm hdc)⟩
  · intro j b hb hongoing
    rcases getElem?_set_cases hb with ⟨rfl, rfl⟩ | ⟨hji, hb⟩
    · cases hstate.symm.trans hongoing
    · obtain ⟨d, hd, hslot⟩ := h.owned j b hb hongoing
      refine ⟨d, (List.Nodup.mem_erase_iff h.nodup).mpr ⟨?_, hd⟩, hslot⟩
      rintro rfl
      exact hji (Option.some.inj (hslot.symm.trans howns.slot))

/-- The first data of a context opens a session in the slot it is given. -/
theorem OneEach.data_new (h : OneEach t) {c : κ} (remaining : BitVec 32) (status : Int)
    (startTime : BitVec 32) (hc : c ∉ t.opened) {k : Nat}
    (hfirst : First (fun s => s.endsSearch c = true) t.sessions k) :
    OneEach (t.step (.data c remaining status startTime)) := by
  let call := (TcpEvent.data c remaining status startTime).call
  obtain ⟨⟨s, hs, hends⟩, hbefore⟩ := id hfirst
  have hnull := h.null_of_endsSearch hc hs hends
  obtain ⟨hstate, hctx, hlength⟩ := @Session.tcpReceive_first κ s c call hnull remaining rfl
  have hreceived := @tcpReceived_of_first κ _ t.sessions call k s hs hfirst
  have hget := @getTcpSession_of_first κ _ t.sessions call k s hs hfirst
  rw [step_data_new hc, hreceived, show (getTcpSession c t.sessions).1 = some k from
    congrArg Prod.fst hget]
  have hne : ∀ d ∈ t.opened, d ≠ c := fun d hd hdc => hc (hdc ▸ hd)
  refine ⟨List.length_set.trans h.size, h.states_set (Or.inr hstate),
    List.nodup_cons.mpr ⟨hc, h.nodup⟩, ?_, ?_⟩
  · intro d hd
    rcases List.mem_cons.mp hd with rfl | hd
    · refine ⟨k, _, Function.update_self .., List.getElem?_set_self hfirst.lt_length, hctx, hstate,
        ?_, ?_⟩
      · refine hlength.trans ?_
        show _ = BitVec.ofNat 64 (Function.update t.total d _ d)
        rw [Function.update_self]
      · intro j hj b hb
        rw [List.getElem?_set_ne (by omega)] at hb
        exact fun hctx' => hbefore j hj b hb (Session.endsSearch_iff.mpr (Or.inl hctx'))
    · have hdc := hne d hd
      obtain ⟨j, b, hb⟩ := h.owns d hd
      have hkj : k ≠ j := by
        rintro rfl
        have hongoing := hb.ongoing
        rw [Option.some.inj (hb.session.symm.trans hs), hnull] at hongoing
        cases hongoing
      exact ⟨j, b, hb.set rfl (Function.update_of_ne hdc ..) (Function.update_of_ne hdc ..) hkj
        hctx (Ne.symm hdc)⟩
  · intro j b hb hongoing
    rcases getElem?_set_cases hb with ⟨rfl, rfl⟩ | ⟨_, hb⟩
    · exact ⟨c, List.mem_cons_self, Function.update_self ..⟩
    · obtain ⟨d, hd, hslot⟩ := h.owned j b hb hongoing
      exact ⟨d, List.mem_cons_of_mem _ hd, (Function.update_of_ne (hne d hd) ..).trans hslot⟩

/-- The end of the stream of a context that has sent nothing changes no session. -/
theorem OneEach.end_new (h : OneEach t) {c : κ} (startTime : BitVec 32) (hc : c ∉ t.opened) :
    OneEach (t.step (.endOfStream c startTime)) := by
  let call := (TcpEvent.endOfStream c startTime).call
  rw [step_end, List.erase_of_not_mem hc]
  by_cases hends : ∃ s ∈ t.sessions, s.endsSearch c = true
  · obtain ⟨k, hfirst⟩ := exists_first hends
    obtain ⟨⟨s, hs, hends⟩, _⟩ := id hfirst
    have hnull := h.null_of_endsSearch hc hs hends
    obtain ⟨hstate, hctx, _⟩ := @Session.tcpReceive_end κ s c call (Or.inl hnull) rfl rfl
    rw [@tcpReceived_of_first κ _ t.sessions call k s hs hfirst]
    refine ⟨List.length_set.trans h.size, h.states_set (Or.inl hstate), h.nodup, ?_, ?_⟩
    · intro d hd
      obtain ⟨j, b, hb⟩ := h.owns d hd
      have hkj : k ≠ j := by
        rintro rfl
        have hongoing := hb.ongoing
        rw [Option.some.inj (hb.session.symm.trans hs), hnull] at hongoing
        cases hongoing
      have hdc : c ≠ d := fun hcd => hc (hcd ▸ hd)
      exact ⟨j, b, hb.set rfl rfl rfl hkj hctx hdc⟩
    · intro j b hb hongoing
      rcases getElem?_set_cases hb with ⟨rfl, rfl⟩ | ⟨_, hb⟩
      · cases hstate.symm.trans hongoing
      · exact h.owned j b hb hongoing
  · have hnowhere : Nowhere (fun s => s.endsSearch c = true) t.sessions := fun j b hb hb' =>
      hends ⟨b, List.mem_of_getElem? hb, hb'⟩
    rw [(@tcpReceived_of_nowhere κ _ t.sessions call hnowhere).2]
    exact h

theorem OneEach.exists_first_of_lt (h : OneEach t) (hlt : t.opened.length < sessionMax) (c : κ) :
    ∃ k, First (fun s => s.endsSearch c = true) t.sessions k := by
  obtain ⟨s, hs, hfree⟩ := h.exists_free hlt
  exact exists_first ⟨s, hs, Session.endsSearch_iff.mpr (Or.inr hfree)⟩

/-- A callback in order keeps one session for each open context. -/
theorem OneEach.step (h : OneEach t) (hadm : Admissible t e) (horder : InOrder t e) :
    OneEach (t.step e) := by
  cases e with
  | data c remaining status startTime =>
    by_cases hc : c ∈ t.opened
    · obtain ⟨i, s, howns⟩ := h.owns c hc
      have hfirst := howns.first_iff.mpr (horder.used hc i howns.slot)
      exact h.data_opened remaining status startTime hc howns hfirst
    · obtain ⟨k, hfirst⟩ := h.exists_first_of_lt (hadm rfl hc) c
      exact h.data_new remaining status startTime hc hfirst
  | endOfStream c startTime =>
    by_cases hc : c ∈ t.opened
    · obtain ⟨i, s, howns⟩ := h.owns c hc
      have hfirst := howns.first_iff.mpr (horder.used hc i howns.slot)
      exact (h.end_opened startTime hc howns hfirst).1
    · exact h.end_new startTime hc

theorem getTcpSession_eq_some {c : κ} {i : Nat} :
    (getTcpSession c t.sessions).1 = some i ↔
      First (fun s => s.endsSearch c = true) t.sessions i := by
  rw [getTcpSession_eq, ← findIdx?_eq_some]
  cases t.sessions.findIdx? (·.endsSearch c) <;> rfl

/-- At the end of a stream whose search ends at its slot, the slot has the length received. -/
theorem OneEach.length_end (h : OneEach t) (hend : e.isData = false) (hc : e.context ∈ t.opened)
    (hused : ∀ i ∈ t.slot e.context, ∀ j < i, ∀ s ∈ t.sessions[j]?, s.isFree = false) :
    ∃ i r, t.slot e.context = some i ∧ (t.step e).sessions[i]? = some r ∧
      r.length = BitVec.ofNat 64 (t.total e.context) := by
  obtain ⟨i, s, howns⟩ := h.owns e.context hc
  have hfirst := howns.first_iff.mpr (hused i howns.slot)
  cases e with
  | data c remaining status startTime => cases hend
  | endOfStream c startTime =>
    obtain ⟨_, r, hr, hlength⟩ := h.end_opened startTime hc howns hfirst
    exact ⟨i, r, howns.slot, hr, hlength.trans howns.length⟩

/-- A callback keeps to one session per connection exactly when it is in order. -/
theorem OneEach.oneSession_iff (h : OneEach t) (hadm : Admissible t e) :
    OneSession t e ↔ InOrder t e := by
  constructor
  · intro hone
    have hused : e.context ∈ t.opened → ∀ i ∈ t.slot e.context, ∀ j < i, ∀ s ∈ t.sessions[j]?,
        s.isFree = false := by
      intro hc i hi
      obtain ⟨i', s, howns⟩ := h.owns e.context hc
      obtain rfl : i' = i := Option.some.inj (howns.slot.symm.trans hi)
      have hfirst := getTcpSession_eq_some.mp ((hone.same hc).trans howns.slot)
      exact howns.first_iff.mp hfirst
    refine ⟨hused, fun hend hc => ?_⟩
    obtain ⟨i, r, hi, hr, _⟩ := h.length_end hend hc (hused hc)
    rw [← hone.length hend hc i hi r hr]
    exact r.length.isLt
  · intro horder
    have hnext := h.step hadm horder
    have hsame : e.context ∈ t.opened →
        (getTcpSession e.context t.sessions).1 = t.slot e.context := by
      intro hc
      obtain ⟨i, s, howns⟩ := h.owns e.context hc
      have hfirst := howns.first_iff.mpr (horder.used hc i howns.slot)
      exact (getTcpSession_eq_some.mpr hfirst).trans howns.slot.symm
    refine ⟨fun hdata => ?_, hsame, fun c hc d hd hcd heq => hcd (hnext.slot_inj hc hd heq), ?_⟩
    · by_cases hc : e.context ∈ t.opened
      · obtain ⟨i, s, howns⟩ := h.owns e.context hc
        rw [hsame hc, howns.slot]
        exact Option.some_ne_none i
      · obtain ⟨k, hfirst⟩ := h.exists_first_of_lt (hadm hdata hc) e.context
        rw [getTcpSession_eq_some.mpr hfirst]
        exact Option.some_ne_none k
    · intro hend hc i hi r hr
      obtain ⟨i', r', hi', hr', hlength⟩ := h.length_end hend hc (horder.used hc)
      obtain rfl : i' = i := Option.some.inj (hi'.symm.trans hi)
      obtain rfl : r' = r := Option.some.inj (hr'.symm.trans hr)
      rw [hlength, BitVec.toNat_ofNat, Nat.mod_eq_of_lt (horder.fits hend hc)]

instance (t : TcpTraced κ) (e : TcpEvent κ) : Decidable (Admissible t e) :=
  inferInstanceAs (Decidable (_ → _ → _))

end Step

end TcpTraced

/-- With at most four contexts open at a time, the receiver keeps to one session per connection in
exactly those runs in which no callback of an open context finds a free slot before its own, and no
stream ends that has carried `2 ^ 64` bytes. -/
theorem one_session_iff [DecidableEq κ] (es : List (TcpEvent κ))
    (h : Along TcpTraced.step TcpTraced.Admissible (TcpTraced.init κ) es) :
    Along TcpTraced.step TcpTraced.OneSession (TcpTraced.init κ) es ↔
      Along TcpTraced.step TcpTraced.InOrder (TcpTraced.init κ) es :=
  along_iff_of_invariant _ (fun _ _ hone hadm horder => TcpTraced.OneEach.step hone hadm horder)
    (fun _ _ hone hadm => TcpTraced.OneEach.oneSession_iff hone hadm) TcpTraced.oneEach_init h

/-- Two connections, the first of which is closed while the second goes on. -/
def overlapping : List (TcpEvent Nat) :=
  [.data 1 100 0 0, .data 2 10 0 0, .endOfStream 1 0, .data 2 10 0 0, .endOfStream 2 0]

theorem one_session_iff_overlapping :
    Along TcpTraced.step TcpTraced.OneSession (TcpTraced.init Nat) overlapping ↔
      Along TcpTraced.step TcpTraced.InOrder (TcpTraced.init Nat) overlapping :=
  one_session_iff overlapping (by decide)

/-- The second connection moves to the slot of the first, and what it had received is lost. -/
theorem not_one_session :
    ¬ ∀ es : List (TcpEvent Nat),
      Along TcpTraced.step TcpTraced.Admissible (TcpTraced.init Nat) es →
        Along TcpTraced.step TcpTraced.OneSession (TcpTraced.init Nat) es := by
  intro h
  have hrun := h overlapping (by decide)
  have hsame := hrun.2.2.2.1.same (by decide)
  revert hsame
  decide

end Zperf
end ZephyrSamples
