import Mathlib.Data.List.Nodup
import Mathlib.Data.List.Perm.Subperm
import ZephyrSamples.EchoClient.TcpVerify

/-!
# The UDP exchange of the echo client

`process_udp_proto` and the two timers of `udp.c`, with CONFIG_NET_TCP enabled.  The timers take
turns whatever is received.  An echo is recognised by its length and its content only, and is
counted even when the datagram has been answered already. -/

namespace ZephyrSamples
namespace EchoClient
namespace UdpExchange

open Runs Sockets TcpVerify

/-- The numbers that the `do` loop of `send_udp_data` draws, one of which it accepts. -/
structure Rands (mtu : Nat) where
  rands : List Nat
  accepted : ((rands.map (· % ipsumLen)).find? fun len => len ≠ 0 && len ≤ mtu).isSome

/-- The length the loop ends with. -/
def Rands.expecting {mtu : Nat} (r : Rands mtu) : Nat :=
  ((r.rands.map (· % ipsumLen)).find? fun len => len ≠ 0 && len ≤ mtu).get r.accepted

/-- `data->udp`, where `recv` and `transmit` say which timer is scheduled.  `sent` are the lengths
of the datagrams passed to `send`, and `counted` the places in it of those that were counted: an
echo counts the datagram that it is compared with, the last. -/
structure Udp where
  recv : Bool
  transmit : Bool
  expecting : Nat
  counter : Nat
  sent : List Nat
  counted : List Nat
  deriving DecidableEq, Repr

variable {mtu : Nat}

/-- `send_udp_data`, whose result is not looked at after the start. -/
def sendUdpData (u : Udp) (r : Rands mtu) : Udp :=
  { u with expecting := r.expecting, recv := true, sent := u.sent ++ [r.expecting] }

def compareUdpData (u : Udp) (buf : List Byte) : Int :=
  if buf.length ≠ u.expecting then -eio
  else if buf ≠ loremIpsum.take buf.length then -eio
  else 0

def waitReply (u : Udp) (r : Rands mtu) : Udp := sendUdpData { u with recv := false } r

def waitTransmit (u : Udp) (r : Rands mtu) : Udp := sendUdpData { u with transmit := false } r

/-- `process_udp_proto`, and what it returns. -/
def processUdpProto (u : Udp) : Recv → Udp × Int
  | .data [] | .closed => (u, -eio)
  | .again => (u, 0)
  | .error errno => (u, -errno)
  | .data buf =>
    if compareUdpData u buf ≠ 0 then (u, 0)
    else
      ({ u with
         counter := (u.counter + 1) % 2 ^ 32
         recv := false
         transmit := true
         counted := u.counted ++ [u.sent.length - 1] }, 0)

/-- What `start_udp_proto` and `start_udp` do when they succeed. -/
def startUdp (u : Udp) (r : Rands mtu) : Udp :=
  sendUdpData { u with recv := false, transmit := false } r

inductive Event (mtu : Nat) where
  | process (received : Recv)
  | recvExpires (r : Rands mtu)
  | transmitExpires (r : Rands mtu)

/-- A timer that is not scheduled does not expire. -/
def step (u : Udp) : Event mtu → Udp
  | .process received => (processUdpProto u received).1
  | .recvExpires r => if u.recv then waitReply u r else u
  | .transmitExpires r => if u.transmit then waitTransmit u r else u

/-- The places counted belong to datagrams sent, and the counter says how many there are. -/
structure Counts (u : Udp) : Prop where
  counter : u.counter = u.counted.length % 2 ^ 32
  sent : ∀ i ∈ u.counted, i < u.sent.length

/-- One of the timers is scheduled, the length expected is that of the datagram sent last, and no
datagram is counted twice. -/
structure Sound (u : Udp) : Prop where
  scheduled : (u.recv = true ∧ u.transmit = false) ∨ (u.recv = false ∧ u.transmit = true)
  expecting : u.sent.getLast? = some u.expecting
  counter : u.counter ≤ u.sent.length
  counted : u.counted.Nodup

/-- What passes the comparison is received only before the next datagram is due. -/
def Awaited (u : Udp) : Event mtu → Prop
  | .process (.data buf) => compareUdpData u buf = 0 → u.transmit = false
  | _ => True

/-- What holds of every run: the datagram sent last has been counted once `transmit` is
scheduled. -/
structure Inv (u : Udp) : Prop where
  counts : Counts u
  scheduled : (u.recv = true ∧ u.transmit = false ∧ u.sent.length - 1 ∉ u.counted) ∨
    (u.recv = false ∧ u.transmit = true ∧ u.sent.length - 1 ∈ u.counted)
  expecting : u.sent.getLast? = some u.expecting
  pos : 0 < u.expecting

theorem Rands.expecting_pos (r : Rands mtu) : 0 < r.expecting := by
  have hfound := List.find?_some (Option.some_get r.accepted).symm
  simp only [Bool.and_eq_true, decide_eq_true_eq] at hfound
  exact Nat.pos_of_ne_zero hfound.1

theorem Inv.sent_pos {u : Udp} (h : Inv u) : 0 < u.sent.length := by
  cases hsent : u.sent with
  | nil => exact absurd (hsent ▸ h.expecting) (by simp)
  | cons len sent => exact Nat.succ_pos _

/-- A datagram sent while no timer is scheduled starts the wait for its echo. -/
theorem inv_sendUdpData {u : Udp} (h : Counts u) (htransmit : u.transmit = false) (r : Rands mtu) :
    Inv (sendUdpData u r) := by
  obtain ⟨hcounter, hsent⟩ := h
  have hlength : (sendUdpData u r).sent.length = u.sent.length + 1 := by simp [sendUdpData]
  refine ⟨⟨hcounter, fun i hi => ?_⟩, Or.inl ⟨rfl, htransmit, fun hmem => ?_⟩, ?_, r.expecting_pos⟩
  · have hlt := hsent i hi
    omega
  · have hlt := hsent _ hmem
    omega
  · simp [sendUdpData]

/-- The state after an echo that passes the comparison. -/
def Udp.accept (u : Udp) : Udp :=
  { u with
    counter := (u.counter + 1) % 2 ^ 32
    recv := false
    transmit := true
    counted := u.counted ++ [u.sent.length - 1] }

theorem process_accepted {u : Udp} {buf : List Byte} (hpos : 0 < u.expecting)
    (h : compareUdpData u buf = 0) : (processUdpProto u (.data buf)).1 = u.accept := by
  cases buf with
  | nil =>
    have hlength : ([] : List Byte).length ≠ u.expecting := Nat.ne_of_lt hpos
    rw [compareUdpData, if_pos hlength] at h
    exact absurd h (by decide)
  | cons b buf =>
    have hnot : ¬ compareUdpData u (b :: buf) ≠ 0 := not_not_intro h
    simp only [processUdpProto, if_neg hnot, Udp.accept]

theorem process_refused {u : Udp} {buf : List Byte} (h : compareUdpData u buf ≠ 0) :
    (processUdpProto u (.data buf)).1 = u := by
  cases buf with
  | nil => rfl
  | cons b buf => simp only [processUdpProto, if_pos h]

theorem inv_accept {u : Udp} (h : Inv u) : Inv u.accept := by
  have hsent := h.sent_pos
  refine ⟨⟨?_, fun i hi => ?_⟩, Or.inr ⟨rfl, rfl, by simp [Udp.accept]⟩, h.expecting, h.pos⟩
  · show (u.counter + 1) % 2 ^ 32 = (u.counted ++ [u.sent.length - 1]).length % 2 ^ 32
    rw [List.length_append, List.length_singleton, h.counts.counter]
    omega
  · rcases List.mem_append.mp hi with hi | hi
    · exact h.counts.sent i hi
    · rw [List.mem_singleton.mp hi]
      show u.sent.length - 1 < u.sent.length
      omega

theorem inv_step {u : Udp} (h : Inv u) (e : Event mtu) : Inv (step u e) := by
  cases e with
  | process received =>
    cases received with
    | data buf =>
      by_cases hbuf : compareUdpData u buf = 0
      · show Inv (processUdpProto u (.data buf)).1
        rw [process_accepted h.pos hbuf]
        exact inv_accept h
      · show Inv (processUdpProto u (.data buf)).1
        rw [process_refused hbuf]
        exact h
    | closed => exact h
    | again => exact h
    | error errno => exact h
  | recvExpires r =>
    rw [step]
    rcases h.scheduled with ⟨hrecv, htransmit, -⟩ | ⟨hrecv, -⟩
    · rw [if_pos hrecv]
      exact inv_sendUdpData ⟨h.counts.counter, h.counts.sent⟩ htransmit r
    · rw [if_neg (by rw [hrecv]; decide)]
      exact h
  | transmitExpires r =>
    rw [step]
    rcases h.scheduled with ⟨-, htransmit, -⟩ | ⟨-, htransmit, -⟩
    · rw [if_neg (by rw [htransmit]; decide)]
      exact h
    · rw [if_pos htransmit]
      exact inv_sendUdpData (u := { u with transmit := false })
        ⟨h.counts.counter, h.counts.sent⟩ rfl r

theorem length_le_of_nodup {l : List Nat} {n : Nat} (h : l.Nodup) (hlt : ∀ i ∈ l, i < n) :
    l.length ≤ n := by
  have hsub : l ⊆ List.range n := fun i hi => List.mem_range.mpr (hlt i hi)
  have hle := (List.subperm_of_subset h hsub).length_le
  rwa [List.length_range] at hle

theorem Inv.sound_iff {u : Udp} (h : Inv u) : Sound u ↔ u.counted.Nodup := by
  refine ⟨Sound.counted, fun hnodup => ⟨?_, h.expecting, ?_, hnodup⟩⟩
  · rcases h.scheduled with ⟨hrecv, htransmit, -⟩ | ⟨hrecv, htransmit, -⟩
    · exact Or.inl ⟨hrecv, htransmit⟩
    · exact Or.inr ⟨hrecv, htransmit⟩
  · have hle := length_le_of_nodup hnodup h.counts.sent
    rw [h.counts.counter]
    exact Nat.le_trans (Nat.mod_le _ _) hle

/-- An echo can be counted once, until the next datagram is sent. -/
theorem nodup_accept_iff {u : Udp} (h : Inv u) (hs : u.counted.Nodup) :
    u.accept.counted.Nodup ↔ u.transmit = false := by
  have hiff : u.accept.counted.Nodup ↔ u.sent.length - 1 ∉ u.counted := by
    rw [Udp.accept, List.nodup_append]
    constructor
    · intro hnodup hmem
      exact hnodup.2.2 _ hmem _ (List.mem_singleton_self _) rfl
    · intro hmem
      refine ⟨hs, List.nodup_singleton _, fun i hi j hj heq => hmem ?_⟩
      rw [← List.mem_singleton.mp hj, ← heq]
      exact hi
  rw [hiff]
  rcases h.scheduled with ⟨-, htransmit, hmem⟩ | ⟨-, htransmit, hmem⟩
  · exact iff_of_true hmem htransmit
  · exact iff_of_false (not_not_intro hmem) (by rw [htransmit]; decide)

theorem sound_step_iff {u : Udp} (h : Inv u) (hs : Sound u) (e : Event mtu) :
    Sound (step u e) ↔ Awaited u e := by
  rw [(inv_step h e).sound_iff]
  cases e with
  | process received =>
    cases received with
    | data buf =>
      show (processUdpProto u (.data buf)).1.counted.Nodup ↔
        (compareUdpData u buf = 0 → u.transmit = false)
      by_cases hbuf : compareUdpData u buf = 0
      · rw [process_accepted h.pos hbuf, nodup_accept_iff h hs.counted]
        exact ⟨fun ht _ => ht, fun ht => ht hbuf⟩
      · rw [process_refused hbuf]
        exact iff_of_true hs.counted fun hz => absurd hz hbuf
    | closed => exact iff_of_true hs.counted trivial
    | again => exact iff_of_true hs.counted trivial
    | error errno => exact iff_of_true hs.counted trivial
  | recvExpires r =>
    have hcounted : (step u (.recvExpires r)).counted = u.counted := by
      simp only [step]
      split <;> rfl
    rw [hcounted]
    exact iff_of_true hs.counted trivial
  | transmitExpires r =>
    have hcounted : (step u (.transmitExpires r)).counted = u.counted := by
      simp only [step]
      split <;> rfl
    rw [hcounted]
    exact iff_of_true hs.counted trivial

/-- After a start the exchange stays sound exactly when what passes the comparison is never
received while the next datagram is scheduled: the echo of the last one has been counted then. -/
theorem sound_iff_awaited {mtu : Nat} (u : Udp) (hcounts : Counts u) (hnodup : u.counted.Nodup)
    (r : Rands mtu) (es : List (Event mtu)) :
    Always step Sound (startUdp u r) es ↔ Along step Awaited (startUdp u r) es := by
  have hinv : Inv (startUdp u r) :=
    inv_sendUdpData (u := { u with recv := false, transmit := false })
      ⟨hcounts.counter, hcounts.sent⟩ rfl r
  exact always_iff_along step (I := Inv) (P := Sound) (G := Awaited) (fun _ e h => inv_step h e)
    (fun _ e h hs => sound_step_iff h hs e) hinv (hinv.sound_iff.mpr hnodup) es

/-- The state before the first start. -/
def boot : Udp where
  recv := false
  transmit := false
  expecting := 0
  counter := 0
  sent := []
  counted := []

theorem counts_boot : Counts boot := ⟨rfl, fun _ h => nomatch h⟩

/-- The loop draws 1, if `lorem_ipsum` has that many bytes. -/
def drawOne (mtu : Nat) (h : 1 ≤ mtu) : Rands mtu where
  rands := [1]
  accepted := by
    have hone : 1 % ipsumLen = 1 := by rw [ipsumLen_eq]
    simp [hone, h]

theorem drawOne_expecting (mtu : Nat) (h : 1 ≤ mtu) : (drawOne mtu h).expecting = 1 := by
  have hone : 1 % ipsumLen = 1 := by rw [ipsumLen_eq]
  simp [drawOne, Rands.expecting, hone, h]

/-- Before an earlier start three datagrams were sent, and two were echoed. -/
def threeSent : Udp where
  recv := false
  transmit := true
  expecting := 1
  counter := 2
  sent := [1, 1, 1]
  counted := [0, 2]

/-- Two datagrams are echoed, and one between them is not. -/
def twoEchoes : List (Event 1280) :=
  [.process (.data (loremIpsum.take 1)), .transmitExpires (drawOne 1280 (by decide)),
    .process .again, .recvExpires (drawOne 1280 (by decide)),
    .process (.data (loremIpsum.take 1))]

theorem sound_iff_awaited_twoEchoes :
    Counts threeSent ∧ threeSent.counted.Nodup ∧
      Always step Sound (startUdp threeSent (drawOne 1280 (by decide))) twoEchoes ∧
      (run step (startUdp threeSent (drawOne 1280 (by decide))) twoEchoes).counted =
        [0, 2, 3, 5] := by
  have hcounts : Counts threeSent := ⟨rfl, by decide⟩
  have hnodup : threeSent.counted.Nodup := by decide
  have hawaited : Along step Awaited (startUdp threeSent (drawOne 1280 (by decide))) twoEchoes :=
    ⟨fun _ => rfl, trivial, trivial, trivial, fun _ => by decide +kernel, trivial⟩
  exact ⟨hcounts, hnodup, (sound_iff_awaited threeSent hcounts hnodup _ _).mpr hawaited,
    by decide +kernel⟩

theorem compare_take_one {u : Udp} (h : u.expecting = 1) :
    compareUdpData u (loremIpsum.take 1) = 0 := by
  have hlength : (loremIpsum.take 1).length = 1 := by
    have heq := ipsumLen_eq
    rw [ipsumLen] at heq
    rw [List.length_take, heq]
    rfl
  rw [compareUdpData, hlength, h, if_neg (not_not_intro rfl), if_neg (not_not_intro rfl)]

/-- A datagram of one byte that is echoed twice. -/
theorem echo_counted_twice :
    ¬ ∀ (mtu : Nat) (u : Udp), Counts u → u.counted.Nodup → ∀ (r : Rands mtu)
        (es : List (Event mtu)), Always step Sound (startUdp u r) es := by
  intro h
  have hstart : startUdp boot (drawOne 1280 (by decide)) = ⟨true, false, 1, 0, [1], []⟩ := by
    rw [startUdp, sendUdpData, drawOne_expecting]
    rfl
  have hlast := (h 1280 boot counts_boot List.nodup_nil (drawOne 1280 (by decide))
    [.process (.data (loremIpsum.take 1)), .process (.data (loremIpsum.take 1))]).last.counted
  rw [hstart, run_cons, run_cons, run_nil, step, step,
    process_accepted (u := ⟨true, false, 1, 0, [1], []⟩) Nat.one_pos (compare_take_one rfl),
    process_accepted Nat.one_pos (compare_take_one rfl)] at hlast
  have hdup : ([0, 0] : List Nat).Nodup := hlast
  exact absurd hdup (by decide)

end UdpExchange
end EchoClient
end ZephyrSamples
