import ZephyrSamples.Lib.Runs

/-!
# The responder of the resource table demo

`app_task` of `main_remote.c` with the callbacks that run in it and in the mailbox interrupt.
Between `rpmsg_recv_callback` and the loop stands a mailbox of one message, `rcv_msg` with
`data_rx_sem`. The first hundred messages are sent back as they came exactly when none is longer
than `rcv_msg` and none comes to a mailbox that still has one. -/

namespace ZephyrSamples
namespace OpenampRscTable

open Runs

abbrev Message := List UInt8

/-- `sizeof(rcv_msg)` -/
def rcvMsgSize : Nat := 20

/-- The messages `app_task` answers. -/
def msgCntMax : Nat := 100

/-- Where `app_task` is: in `receive_message`, inside `rproc_virtio_notified`, about to send back,
or behind its loop. -/
inductive TaskPc where
  | takeDataRx
  | takeData
  | notified
  | rpmsgSend
  | ended
  deriving DecidableEq, Repr

/-- The statics and the local `msg_cnt`; `vring` holds the messages that wait there, and
`interruptDue` says that one of them came since the last mailbox interrupt.  `arrived` are all
messages that were put into the vring, `received` those the callback was called with, `sent` those
sent back, and `overrun` says that `memcpy` has written behind `rcv_msg`. -/
structure Responder where
  rcvMsg : List UInt8
  rcvLen : Nat
  dataSem : Bool
  dataRxSem : Bool
  msgCnt : Nat
  pc : TaskPc
  vring : List Message
  interruptDue : Bool
  arrived : List Message
  received : List Message
  sent : List Message
  overrun : Bool
  deriving DecidableEq, Repr

/-- `app_task` comes to its loop. -/
def start : Responder where
  rcvMsg := List.replicate rcvMsgSize 0
  rcvLen := 0
  dataSem := false
  dataRxSem := false
  msgCnt := 0
  pc := .takeDataRx
  vring := []
  interruptDue := false
  arrived := []
  received := []
  sent := []
  overrun := false

/-- The other side puts a message into the vring, the mailbox interrupt is taken, or `app_task` goes
on. -/
inductive Event where
  | message (data : Message)
  | mailbox
  | task
  deriving DecidableEq, Repr

/-- `memcpy(rcv_msg, data, len)`, inside `rcv_msg` -/
def memcpyRcvMsg (rcvMsg data : List UInt8) : List UInt8 :=
  data.take rcvMsgSize ++ rcvMsg.drop data.length

def rpmsgRecvCallback (s : Responder) (data : Message) : Responder :=
  { s with
    rcvMsg := memcpyRcvMsg s.rcvMsg data
    rcvLen := data.length
    dataRxSem := true
    received := s.received ++ [data]
    overrun := s.overrun || decide (rcvMsgSize < data.length) }

/-- The `len` bytes at `msg`. -/
def Responder.current (s : Responder) : Message := s.rcvMsg.take s.rcvLen

def taskStep (s : Responder) : Responder :=
  match s.pc with
  | .takeDataRx =>
    if s.dataRxSem then { s with dataRxSem := false, pc := .rpmsgSend }
    else { s with pc := .takeData }
  | .takeData => if s.dataSem then { s with dataSem := false, pc := .notified } else s
  | .notified =>
    match s.vring with
    | [] => { s with pc := .takeDataRx }
    | data :: vring => rpmsgRecvCallback { s with vring := vring } data
  | .rpmsgSend =>
    { s with
      msgCnt := s.msgCnt + 1
      sent := s.sent ++ [s.current]
      pc := if s.msgCnt + 1 < msgCntMax then .takeDataRx else .ended }
  | .ended => s

def step (s : Responder) : Event → Responder
  | .message data =>
    { s with vring := s.vring ++ [data], interruptDue := true, arrived := s.arrived ++ [data] }
  | .mailbox => { s with dataSem := true, interruptDue := false }
  | .task => taskStep s

/-- The message that is going to be sent back next, if there is one. -/
def Responder.pending (s : Responder) : List Message :=
  if s.dataRxSem = true ∨ s.pc = .rpmsgSend then [s.current] else []

/-- What is sent back, and about to be, are the messages received as far as they are answered, and
nothing was written behind `rcv_msg`. -/
structure Echoes (s : Responder) : Prop where
  sent : s.sent ++ s.pending = s.received.take msgCntMax
  inside : s.overrun = false

instance (s : Responder) : Decidable (Echoes s) :=
  decidable_of_iff (_ ∧ _) ⟨fun h => ⟨h.1, h.2⟩, fun h => ⟨h.sent, h.inside⟩⟩

/-- `app_task` is blocked in `k_sem_take(&data_sem, K_FOREVER)`, and no interrupt is on its way. -/
def Responder.Waits (s : Responder) : Prop :=
  s.pc = .takeData ∧ s.dataSem = false ∧ s.interruptDue = false

/-- Besides, every message that has arrived is answered when `app_task` waits for more or ends. -/
structure Answers (s : Responder) : Prop where
  echoes : Echoes s
  waits : s.Waits → s.sent = s.arrived.take msgCntMax
  ended : s.pc = .ended → s.sent = s.arrived.take msgCntMax

/-- A message that the callback is called with has room in `rcv_msg`, and the mailbox is empty;
after the last message that is answered, one that is equal to it does no harm. -/
def Fits (s : Responder) : Event → Prop
  | .task =>
    s.pc = .notified → ∀ data ∈ s.vring.head?,
      data.length ≤ rcvMsgSize ∧
      (s.dataRxSem = true → msgCntMax ≤ s.received.length ∧ data = s.current)
  | .message _ => True
  | .mailbox => True

instance (s : Responder) : ∀ e, Decidable (Fits s e)
  | .task => inferInstanceAs (Decidable (_ → ∀ data ∈ s.vring.head?, _))
  | .message _ => inferInstanceAs (Decidable True)
  | .mailbox => inferInstanceAs (Decidable True)

/-- The loop counts what it sends, and the mailbox is empty when a message is about to be sent. -/
structure Inv (s : Responder) : Prop where
  length : s.rcvMsg.length = rcvMsgSize
  count : s.msgCnt = s.sent.length
  goesOn : s.pc ≠ .ended → s.msgCnt < msgCntMax
  ended : s.pc = .ended → s.msgCnt = msgCntMax
  taken : s.pc = .rpmsgSend ∨ s.pc = .takeData ∨ s.pc = .ended → s.dataRxSem = false

/-- The messages are received in order, and for those that wait in the vring there is a
notification. -/
structure Noticed (s : Responder) : Prop where
  arrived : s.arrived = s.received ++ s.vring
  notified : s.vring ≠ [] → s.dataSem = true ∨ s.interruptDue = true ∨ s.pc = .notified

variable {s : Responder}

theorem length_memcpyRcvMsg {rcvMsg data : List UInt8} (h : rcvMsg.length = rcvMsgSize) :
    (memcpyRcvMsg rcvMsg data).length = rcvMsgSize := by
  simp only [memcpyRcvMsg, List.length_append, List.length_take, List.length_drop, h]
  omega

theorem take_memcpyRcvMsg {rcvMsg data : List UInt8} (h : data.length ≤ rcvMsgSize) :
    (memcpyRcvMsg rcvMsg data).take data.length = data := by
  rw [memcpyRcvMsg, List.take_of_length_le h, List.take_left]

theorem inv_start : Inv start where
  length := rfl
  count := rfl
  goesOn _ := by decide
  ended hpc := nomatch hpc
  taken _ := rfl

theorem inv_taskStep (h : Inv s) : Inv (taskStep s) := by
  obtain ⟨hlength, hcount, hgoes, hended, htaken⟩ := h
  unfold taskStep
  cases hpc : s.pc with
  | takeDataRx =>
    have hlt : s.msgCnt < msgCntMax := hgoes (by simp [hpc])
    cases hrx : s.dataRxSem with
    | true => exact ⟨hlength, hcount, fun _ => hlt, by simp, fun _ => rfl⟩
    | false => exact ⟨hlength, hcount, fun _ => hlt, by simp, fun _ => rfl⟩
  | takeData =>
    have hlt : s.msgCnt < msgCntMax := hgoes (by simp [hpc])
    simp only
    split
    · exact ⟨hlength, hcount, fun _ => hlt, by simp, fun _ => htaken (.inr (.inl hpc))⟩
    · exact ⟨hlength, hcount, hgoes, hended, htaken⟩
  | notified =>
    have hlt : s.msgCnt < msgCntMax := hgoes (by simp [hpc])
    cases hvring : s.vring with
    | nil => exact ⟨hlength, hcount, fun _ => hlt, by simp, by simp⟩
    | cons data vring =>
      refine ⟨length_memcpyRcvMsg hlength, hcount, fun _ => hlt, ?_, ?_⟩
      · simp [rpmsgRecvCallback]
      · simp [rpmsgRecvCallback]
  | rpmsgSend =>
    have hlt : s.msgCnt < msgCntMax := hgoes (by simp [hpc])
    have hrx : s.dataRxSem = false := htaken (.inl hpc)
    refine ⟨hlength, by simp [hcount], ?_, ?_, fun _ => hrx⟩
    · by_cases hlast : s.msgCnt + 1 < msgCntMax
      · exact fun _ => hlast
      · simp [hlast]
    · by_cases hlast : s.msgCnt + 1 < msgCntMax
      · simp [hlast]
      · intro _
        show s.msgCnt + 1 = msgCntMax
        omega
  | ended => exact ⟨hlength, hcount, hgoes, hended, htaken⟩

theorem inv_step (h : Inv s) (e : Event) : Inv (step s e) := by
  cases e with
  | message data => exact ⟨h.length, h.count, h.goesOn, h.ended, h.taken⟩
  | mailbox => exact ⟨h.length, h.count, h.goesOn, h.ended, h.taken⟩
  | task => exact inv_taskStep h

theorem noticed_taskStep (h : Noticed s) : Noticed (taskStep s) := by
  obtain ⟨harrived, hnotified⟩ := h
  unfold taskStep
  cases hpc : s.pc with
  | takeDataRx =>
    simp only [hpc] at hnotified ⊢
    split
    · exact ⟨harrived, by simpa using hnotified⟩
    · exact ⟨harrived, by simpa using hnotified⟩
  | takeData =>
    simp only
    split
    · exact ⟨harrived, fun _ => .inr (.inr rfl)⟩
    · exact ⟨harrived, hnotified⟩
  | notified =>
    cases hvring : s.vring with
    | nil =>
      rw [hvring] at harrived
      exact ⟨harrived, fun hne => absurd rfl hne⟩
    | cons data vring =>
      rw [hvring] at harrived
      refine ⟨?_, fun _ => .inr (.inr rfl)⟩
      simpa [rpmsgRecvCallback] using harrived
  | rpmsgSend =>
    refine ⟨harrived, fun hne => ?_⟩
    rcases hnotified hne with hsem | hdue | hno
    · exact .inl hsem
    · exact .inr (.inl hdue)
    · exact nomatch hpc.symm.trans hno
  | ended => exact ⟨harrived, hnotified⟩

theorem noticed_step (h : Noticed s) (e : Event) : Noticed (step s e) := by
  cases e with
  | message data =>
    refine ⟨?_, fun _ => .inr (.inl rfl)⟩
    show s.arrived ++ [data] = s.received ++ (s.vring ++ [data])
    rw [h.arrived, List.append_assoc]
  | mailbox => exact ⟨h.arrived, fun _ => .inl rfl⟩
  | task => exact noticed_taskStep h

/-- Without a message in the mailbox all that was received has been sent back. -/
theorem Echoes.received_eq (h : Echoes s) (hi : Inv s) (hpc : s.pc = .notified)
    (hrx : s.dataRxSem = false) : s.received = s.sent := by
  have hsent : s.sent = s.received.take msgCntMax := by
    simpa [Responder.pending, hpc, hrx] using h.sent
  have hlt : s.sent.length < msgCntMax := by
    rw [← hi.count]
    exact hi.goesOn (by simp [hpc])
  have hshort : s.received.length ≤ msgCntMax := by
    have hlength := congrArg List.length hsent
    rw [List.length_take] at hlength
    omega
  rw [hsent, List.take_of_length_le hshort]

/-- A message that has room comes into an empty mailbox. -/
theorem echoes_callback_empty {data : Message} (h : Echoes s) (hi : Inv s)
    (hpc : s.pc = .notified) (hrx : s.dataRxSem = false) (hfits : data.length ≤ rcvMsgSize) :
    Echoes (rpmsgRecvCallback s data) := by
  have hreceived : s.received = s.sent := h.received_eq hi hpc hrx
  have hlt : s.sent.length < msgCntMax := by
    rw [← hi.count]
    exact hi.goesOn (by simp [hpc])
  constructor
  · have hcurrent : (rpmsgRecvCallback s data).pending = [data] := by
      simp [Responder.pending, Responder.current, rpmsgRecvCallback, take_memcpyRcvMsg hfits]
    show s.sent ++ (rpmsgRecvCallback s data).pending = (s.received ++ [data]).take msgCntMax
    rw [hcurrent, hreceived, List.take_of_length_le (by simp; omega)]
  · simp [rpmsgRecvCallback, h.inside, hfits]

/-- A message that comes to a full mailbox takes the place of the one that is there. -/
theorem echoes_callback_full_iff {data : Message} (h : Echoes s) (hrx : s.dataRxSem = true)
    (hfits : data.length ≤ rcvMsgSize) :
    Echoes (rpmsgRecvCallback s data) ↔ msgCntMax ≤ s.received.length ∧ data = s.current := by
  have hpending : (rpmsgRecvCallback s data).pending = [data] := by
    simp [Responder.pending, Responder.current, rpmsgRecvCallback, take_memcpyRcvMsg hfits]
  have hsent : s.sent ++ [s.current] = s.received.take msgCntMax := by
    simpa [Responder.pending, hrx] using h.sent
  have hinside : (rpmsgRecvCallback s data).overrun = false := by
    simp [rpmsgRecvCallback, h.inside, hfits]
  constructor
  · intro hnext
    have hnew : s.sent ++ [data] = (s.received ++ [data]).take msgCntMax := by
      have := hnext.sent
      rwa [hpending] at this
    have hlength := congrArg List.length hnew
    have hlength' := congrArg List.length hsent
    simp only [List.length_append, List.length_take, List.length_singleton] at hlength hlength'
    have hfull : msgCntMax ≤ s.received.length := by omega
    refine ⟨hfull, ?_⟩
    rw [List.take_append_of_le_length hfull, ← hsent] at hnew
    simpa using hnew
  · rintro ⟨hfull, rfl⟩
    refine ⟨?_, hinside⟩
    rw [hpending]
    show s.sent ++ [s.current] = (s.received ++ [s.current]).take msgCntMax
    rw [hsent, List.take_append_of_le_length hfull]

theorem not_echoes_callback_of_long {data : Message} (hlong : rcvMsgSize < data.length) :
    ¬ Echoes (rpmsgRecvCallback s data) := by
  intro h
  have hinside := h.inside
  simp [rpmsgRecvCallback, hlong] at hinside

theorem echoes_callback_iff {data : Message} (h : Echoes s) (hi : Inv s) (hpc : s.pc = .notified) :
    Echoes (rpmsgRecvCallback s data) ↔
      data.length ≤ rcvMsgSize ∧
      (s.dataRxSem = true → msgCntMax ≤ s.received.length ∧ data = s.current) := by
  by_cases hfits : data.length ≤ rcvMsgSize
  · cases hrx : s.dataRxSem with
    | true => simpa [hfits] using echoes_callback_full_iff h hrx hfits
    | false =>
      exact iff_of_true (echoes_callback_empty h hi hpc hrx hfits) ⟨hfits, fun hno => nomatch hno⟩
  · exact iff_of_false (not_echoes_callback_of_long (by omega)) fun hno => hfits hno.1

theorem echoes_taskStep_iff (h : Echoes s) (hi : Inv s) :
    Echoes (taskStep s) ↔ Fits s .task := by
  by_cases hnotified : s.pc = .notified
  · cases hvring : s.vring with
    | nil =>
      have hnext : taskStep s = { s with pc := .takeDataRx } := by
        simp [taskStep, hnotified, hvring]
      rw [hnext]
      refine iff_of_true ⟨?_, h.inside⟩ (by simp [Fits, hvring])
      simpa [Responder.pending, Responder.current, hnotified] using h.sent
    | cons data vring =>
      have hnext : taskStep s = rpmsgRecvCallback { s with vring := vring } data := by
        simp [taskStep, hnotified, hvring]
      have hrest : Echoes { s with vring := vring } := ⟨h.sent, h.inside⟩
      have hinv : Inv { s with vring := vring } :=
        ⟨hi.length, hi.count, hi.goesOn, hi.ended, hi.taken⟩
      rw [hnext, echoes_callback_iff hrest hinv hnotified]
      simp [Fits, hnotified, hvring, Responder.current]
  · refine iff_of_true ?_ fun hpc => absurd hpc hnotified
    obtain ⟨hsent, hinside⟩ := h
    unfold taskStep
    cases hpc : s.pc with
    | takeDataRx =>
      cases hrx : s.dataRxSem with
      | true => exact ⟨by simpa [Responder.pending, Responder.current, hrx] using hsent, hinside⟩
      | false =>
        exact ⟨by simpa [Responder.pending, Responder.current, hrx, hpc] using hsent, hinside⟩
    | takeData =>
      simp only
      split
      · exact ⟨by simpa [Responder.pending, Responder.current, hpc] using hsent, hinside⟩
      · exact ⟨hsent, hinside⟩
    | notified => exact absurd hpc hnotified
    | rpmsgSend =>
      have hrx : s.dataRxSem = false := hi.taken (.inl hpc)
      refine ⟨?_, hinside⟩
      have hbefore : s.sent ++ [s.current] = s.received.take msgCntMax := by
        simpa [Responder.pending, hpc] using hsent
      by_cases hlast : s.msgCnt + 1 < msgCntMax
      · simpa [Responder.pending, hlast, hrx] using hbefore
      · simpa [Responder.pending, hlast, hrx] using hbefore
    | ended => exact ⟨hsent, hinside⟩

theorem echoes_step_iff (h : Echoes s) (hi : Inv s) (e : Event) :
    Echoes (step s e) ↔ Fits s e := by
  cases e with
  | message data => exact iff_of_true ⟨h.sent, h.inside⟩ trivial
  | mailbox => exact iff_of_true ⟨h.sent, h.inside⟩ trivial
  | task => exact echoes_taskStep_iff h hi

/-- When `app_task` waits it has received all that arrived, and when it ends all that it answers. -/
theorem answers_iff (hi : Inv s) (hn : Noticed s) : Answers s ↔ Echoes s := by
  refine ⟨fun h => h.echoes, fun h => ⟨h, ?_, ?_⟩⟩
  · rintro ⟨hpc, hsem, hdue⟩
    have hrx : s.dataRxSem = false := hi.taken (.inr (.inl hpc))
    have hvring : s.vring = [] := by
      by_contra hne
      simpa [hsem, hdue, hpc] using hn.notified hne
    rw [hn.arrived, hvring, List.append_nil]
    simpa [Responder.pending, hrx, hpc] using h.sent
  · intro hpc
    have hrx : s.dataRxSem = false := hi.taken (.inr (.inr hpc))
    have hsent : s.sent = s.received.take msgCntMax := by
      simpa [Responder.pending, hrx, hpc] using h.sent
    have hfull : msgCntMax ≤ s.received.length := by
      have hlength := congrArg List.length hsent
      rw [← hi.count, hi.ended hpc, List.length_take] at hlength
      omega
    rw [hn.arrived, List.take_append_of_le_length hfull, ← hsent]

theorem answers_step_iff (h : Answers s) (hi : Inv s) (hn : Noticed s) (e : Event) :
    Answers (step s e) ↔ Fits s e :=
  (answers_iff (inv_step hi e) (noticed_step hn e)).trans (echoes_step_iff h.echoes hi e)

/-- Every run, for every sequence of messages and every way they are batched. -/
theorem responder_answers_iff_fits (es : List Event) :
    Always step Answers start es ↔ Along step Fits start es := by
  have hnoticed : Noticed start := ⟨rfl, fun hne => absurd rfl hne⟩
  have hanswers : Answers start :=
    (answers_iff inv_start hnoticed).mpr (by decide)
  exact always_iff_along step (I := fun s => Inv s ∧ Noticed s)
    (fun _ e h => ⟨inv_step h.1 e, noticed_step h.2 e⟩)
    (fun _ e hi h => answers_step_iff h hi.1 hi.2 e) ⟨inv_start, hnoticed⟩ hanswers es

/-- Two messages come with one notification. -/
def batch : List Event :=
  [.message [1], .message [2], .mailbox, .task, .task, .task, .task, .task, .task, .task, .task]

/-- The first of them is never sent back: `app_task` waits again, and has sent the second one. -/
theorem batch_not_answered :
    (run step start batch).arrived = [[1], [2]] ∧ (run step start batch).sent = [[2]] ∧
      (run step start batch).Waits ∧ ¬ Always step Answers start batch := by
  refine ⟨by decide, by decide, ⟨by decide, by decide, by decide⟩, fun h => ?_⟩
  exact absurd h.last.echoes (by decide)

end OpenampRscTable
end ZephyrSamples
