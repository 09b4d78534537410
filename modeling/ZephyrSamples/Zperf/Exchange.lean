import ZephyrSamples.Lib.Channel
import ZephyrSamples.Zperf.Accounting
import ZephyrSamples.Zperf.Pacing
import ZephyrSamples.Zperf.StatPacket

/-!
# An upload and its report

`zperf_udp_upload` with `zperf_upload_fin` on one side, `udp_received` on the other and between them
a network that loses and reorders, in each direction.  The client sends its datagrams, ends the
session with a negated count, at most twice, and takes the statistics of the first answer it gets.

Whatever the network does, those statistics are the report of one session of the server: of the
datagrams that arrived between the one that opened it and the one that ended it.  As the datagram
that opens a session is not counted, the client is always told of fewer datagrams than it sent.
-/

namespace ZephyrSamples
namespace Zperf

open Runs Lib

/-! ## The client -/

/-- Where the client is: in the loop of `zperf_udp_upload`, in the first loop of `zperf_upload_fin`,
about to send or in `net_context_recv`, with the tries left to it, in the loop that drains, or at
the end. -/
inductive Stage where
  | uploading
  | sending (loop : Nat)
  | receiving (loop : Nat)
  | draining
  | returned
  deriving DecidableEq

structure Client where
  timed : Timed
  stage : Stage := .uploading
  endTime : BitVec 32 := 0
  /-- What `zperf_upload_fin` has sent. -/
  fins : List UdpDatagram := []
  /-- The packet that was decoded. -/
  stat : Option (List (BitVec 8)) := none
  results : Results := {}

/-- What `net_context_recv` comes back with: the packet at a place of the network, which the
callback `stat_received` has kept, `-ETIMEDOUT`, or neither. -/
inductive Recv where
  | packet (k : Nat)
  | timedOut
  | other
  deriving DecidableEq

namespace Client

variable (setup : Setup) (client : Client)

/-- A reading of the counter in the loop of `zperf_udp_upload`. -/
def read (r : Reading) : Client := { client with timed := client.timed.step setup r }

/-- What `read` sends. -/
def sentBy (r : Reading) : List UdpDatagram :=
  (client.timed.step setup r).loop.sent.drop client.timed.loop.sent.length

/-- The loop is left and `end_time` read. -/
def finish (endTime : BitVec 32) : Client := { client with endTime, stage := .sending 2 }

/-- The datagram that ends the session. -/
def finDatagram : UdpDatagram :=
  let usec := client.endTime.toNat * usecPerSec.toNat / setup.hz.toNat
  { id := -client.timed.loop.nbPackets
    tvSec := BitVec.ofNat 32 (usec / usecPerSec.toNat)
    tvUsec := BitVec.ofNat 32 (usec % usecPerSec.toNat) }

/-- What `zperf_udp_upload` adds to the results once `zperf_upload_fin` has returned. -/
def leave : Client :=
  { client with
    stage := .returned
    results :=
      { client.results with
        nbPacketsSent := client.timed.loop.nbPackets
        clientTimeInUs :=
          hwCyclesToUsec setup.hz.toNat (timeDelta client.timed.loop.startTime client.endTime)
        packetSize := setup.packetSize } }

/-- The condition of the first loop, where there is no packet yet. -/
def again (loop : Nat) : Client :=
  if loop = 0 then client.leave setup else { client with stage := .sending loop }

/-- The session is ended by a datagram, and its statistics are waited for. -/
def sendFin (loop : Nat) : Client :=
  { client with fins := client.fins ++ [client.finDatagram setup], stage := .receiving loop }

/-- The statistics are decoded. -/
def decode (pkt : List (BitVec 8)) : Client :=
  { client with
    stage := .draining
    stat := some pkt
    results := zperfUploadDecodeStat pkt client.results }

end Client

/-! ## The system -/

structure System (κ : Type*) where
  client : Client
  toServer : Channel UdpDatagram := {}
  toClient : Channel (List (BitVec 8)) := {}
  sessions : List (Session κ)

inductive Event where
  | read (r : Reading)
  | finish (endTime : BitVec 32)
  | sendFin (sends : Bool)
  | recv (result : Recv)
  | deliver (k : Nat) (remaining time : BitVec 32)
  | lose (k : Nat)
  | loseReply (k : Nat)
  deriving DecidableEq

namespace System

variable {κ : Type*} (setup : Setup) (hz : Nat) (e : Endpoint)

/-- An upload of the client at `e` from the first reading of its counter on, to a server with the
given table. -/
def start (time : Nat) (sessions : List (Session κ)) : System κ where
  client := { timed := .enter setup time }
  sessions := sessions

/-- The server is called with what is in flight at place `k`; a datagram has the bytes of a header
by the bounds of `packet_size`. -/
def deliver (s : System κ) (k : Nat) (remaining time : BitVec 32) : System κ :=
  match s.toServer.flight[k]? with
  | none => s
  | some hdr =>
    let received :=
      udpReceived hz s.sessions { src := e, hdr := some hdr, remaining := remaining, time := time }
    { s with
      toServer := s.toServer.deliver k
      toClient := s.toClient.send
        (received.2.toList.map fun reply => buildReply reply.hdr reply.stat)
      sessions := received.1 }

/-- The call of `net_context_recv` returns that the client is in. -/
def recv (s : System κ) (result : Recv) : System κ :=
  match s.client.stage, result with
  | .receiving _, .packet k =>
    match s.toClient.flight[k]? with
    | none => s
    | some pkt => { s with client := s.client.decode pkt, toClient := s.toClient.deliver k }
  | .receiving _, .timedOut => { s with client := s.client.leave setup }
  | .receiving loop, .other => { s with client := s.client.again setup loop }
  | .draining, .packet k => { s with toClient := s.toClient.deliver k }
  | .draining, _ => { s with client := s.client.leave setup }
  | _, _ => s

def step (s : System κ) : Event → System κ
  | .read r =>
    if s.client.stage = .uploading then
      { s with
        client := s.client.read setup r
        toServer := s.toServer.send (s.client.sentBy setup r) }
    else s
  | .finish endTime =>
    if s.client.stage = .uploading ∧ s.client.timed.loop.phase = .left then
      { s with client := s.client.finish endTime }
    else s
  | .sendFin sends =>
    match s.client.stage with
    | .sending (loop + 1) =>
      if sends then
        { s with
          client := s.client.sendFin setup loop
          toServer := s.toServer.send [s.client.finDatagram setup] }
      else { s with client := s.client.again setup loop }
    | _ => s
  | .recv result => s.recv setup result
  | .deliver k remaining time => s.deliver hz e k remaining time
  | .lose k => { s with toServer := s.toServer.lose k }
  | .loseReply k => { s with toClient := s.toClient.lose k }

/-- The ids of what has arrived at the server, in the order it did. -/
def arrivedIds (s : System κ) : List Nat := s.toServer.arrived.map (·.id.toNat)

end System

/-! ## What the client is told -/

/-- The statistics of a session in which the ids `rest` were counted. -/
structure Reports (rest : List Nat) (stat : ServerHdr) : Prop where
  datagrams : stat.datagrams = BitVec.ofNat 32 rest.length
  outorder : stat.outorderCnt = BitVec.ofNat 32 (outOfOrder 0 rest)
  error : stat.errorCnt - stat.outorderCnt =
    BitVec.ofNat 32 (expectedId 0 rest) - BitVec.ofNat 32 rest.length

/-- The results of a client that has sent `sent` datagrams are those of a session that `opener`
opened and `rest` were counted in. -/
structure Told (sent opener : Nat) (rest : List Nat) (results : Results) : Prop where
  /-- They are different datagrams of the client. -/
  ids : (opener :: rest).Subperm (List.range sent)
  rcvd : results.nbPacketsRcvd.toNat = rest.length
  fewer : results.nbPacketsRcvd.toNat < sent
  outorder : results.nbPacketsOutorder.toNat = outOfOrder 0 rest
  /-- Lost are those missing below the highest, with the late ones once more. -/
  lost : results.nbPacketsLost.toNat + rest.length = outOfOrder 0 rest + expectedId 0 rest

/-! ## Ids -/

theorem expectedId_append (next : Nat) (ids : List Nat) (id : Nat) :
    expectedId next (ids ++ [id]) = max (expectedId next ids) (id + 1) := by
  rw [expectedId, List.foldl_append]
  rfl

theorem outOfOrder_append (next : Nat) (ids : List Nat) (id : Nat) :
    outOfOrder next (ids ++ [id]) =
      outOfOrder next ids + if id < expectedId next ids then 1 else 0 := by
  induction ids generalizing next with
  | nil => exact Nat.add_comm _ _
  | cons first ids ih =>
    have hrest := ih (max next (first + 1))
    show _ + outOfOrder _ (ids ++ [id]) = _ + outOfOrder _ ids + _
    rw [hrest, Nat.add_assoc]
    rfl

theorem outOfOrder_le (next : Nat) (ids : List Nat) : outOfOrder next ids ≤ ids.length := by
  induction ids generalizing next with
  | nil => exact Nat.le_refl 0
  | cons first ids ih =>
    have hrest := ih (max next (first + 1))
    rw [outOfOrder, List.length_cons]
    split <;> omega

theorem expectedId_le {next n : Nat} {ids : List Nat} (hnext : next ≤ n)
    (hids : ∀ id ∈ ids, id < n) : expectedId next ids ≤ n := by
  induction ids generalizing next with
  | nil => exact hnext
  | cons first ids ih =>
    have hfirst : first < n := hids first List.mem_cons_self
    exact ih (Nat.max_le.mpr ⟨hnext, hfirst⟩) fun id hid =>
      hids id (List.mem_cons_of_mem first hid)

theorem le_expectedId (next : Nat) (ids : List Nat) : next ≤ expectedId next ids := by
  induction ids generalizing next with
  | nil => exact Nat.le_refl next
  | cons first ids ih => exact Nat.le_trans (Nat.le_max_left _ _) (ih (max next (first + 1)))

theorem lt_expectedId {next : Nat} {ids : List Nat} {id : Nat} (hid : id ∈ ids) :
    id < expectedId next ids := by
  induction ids generalizing next with
  | nil => cases hid
  | cons first ids ih =>
    rcases List.mem_cons.mp hid with rfl | hid
    · exact Nat.lt_of_lt_of_le (by omega) (le_expectedId (max next (id + 1)) ids)
    · exact ih hid

theorem length_le_expectedId {ids : List Nat} (h : ids.Nodup) : ids.length ≤ expectedId 0 ids := by
  have hsub : ids ⊆ List.range (expectedId 0 ids) := fun _ hid =>
    List.mem_range.mpr (lt_expectedId hid)
  have hle := (h.subperm hsub).length_le
  rwa [List.length_range] at hle

/-! ## The session of the client -/

section Server

variable {κ : Type*} {sessions : List (Session κ)} {e : Endpoint} {i : Nat} {session : Session κ}
  {st : ServerHdr} {arrived : List Nat} (hz : Nat) (time remaining : BitVec 32) {hdr : UdpDatagram}

/-- `get_session` gives the endpoint slot `i`, and leaves `session` in it. -/
structure Attends (sessions : List (Session κ)) (e : Endpoint) (i : Nat) (session : Session κ) :
    Prop where
  lt_length : i < sessions.length
  found : getSession sessions e = (some i, sessions.set i session)
  isFor : session.isFor e = true
  before : ∀ j < i, ∀ b, sessions[j]? = some b → ¬ b.isFor e = true

theorem attends_of_getSession {s : Session κ} (hi : (getSession sessions e).1 = some i)
    (hs : sessions[i]? = some s) :
    ∃ s₀ : Session κ, Attends sessions e i s₀ ∧ s₀.state = s.state ∧ s₀.stat = s.stat := by
  obtain ⟨s₀, hfound, ⟨port, ip, rfl⟩, hfor, hbefore⟩ := getSession_slot hi hs
  exact ⟨_, ⟨(List.getElem?_eq_some_iff.mp hs).1, hfound, hfor, hbefore⟩, rfl, rfl⟩

theorem Attends.set {r : Session κ} (h : Attends sessions e i session) (hr : r.isFor e = true) :
    Attends (sessions.set i r) e i r := by
  have hslot := InSlot.set h.lt_length h.before hr
  exact ⟨hslot.lt_length, hslot.getSession_eq, hr, hslot.before⟩

theorem Attends.udpReceived_eq (h : Attends sessions e i session) :
    udpReceived hz sessions { src := e, hdr := some hdr, remaining := remaining, time := time } =
      (sessions.set i (session.receive hz time hdr remaining).1,
        if (session.receive hz time hdr remaining).2 then
          some { dst := e, hdr := hdr, stat := (session.receive hz time hdr remaining).1.stat }
        else none) :=
  udpReceived_of_getSession rfl h.lt_length h.found

/-- The ids of consecutive arrivals, none of which ends a session. -/
structure Stretch (arrived : List Nat) (opener : Nat) (rest : List Nat) : Prop where
  infix_arrived : (opener :: rest) <:+: arrived
  data : ∀ id ∈ opener :: rest, id < 2 ^ 31 - 1

/-- What a session tells of: what it told of before, if the first arrival ends it, or arrivals. -/
def Known (st : ServerHdr) (arrived : List Nat) (stat : ServerHdr) : Prop :=
  (stat = st ∧ ∃ id, arrived.head? = some id ∧ 2 ^ 31 ≤ id) ∨
    ∃ opener rest, Stretch arrived opener rest ∧ Reports rest stat

/-- The session that arrivals leave: one that is free, or one that counts the latest of them. -/
inductive Served (st : ServerHdr) (arrived : List Nat) (session : Session κ) : Prop
  | free (hfree : session.isFree = true)
      (hknown : arrived = [] ∧ session.stat = st ∨ Known st arrived session.stat)
  | ongoing (hstate : session.state = .ongoing) (opener : Nat) (rest : List Nat)
      (hsuffix : (opener :: rest) <:+ arrived) (hdata : ∀ id ∈ opener :: rest, id < 2 ^ 31 - 1)
      (haccounts :
        session.toStatData.Accounts rest.length (expectedId 0 rest) (outOfOrder 0 rest))

theorem Known.append {stat : ServerHdr} (h : Known st arrived stat) (id : Nat) :
    Known st (arrived ++ [id]) stat := by
  rcases h with ⟨hold, first, hfirst, hid⟩ | ⟨opener, rest, hstretch, hreports⟩
  · refine Or.inl ⟨hold, first, ?_, hid⟩
    rw [List.head?_append, hfirst, Option.some_or]
  · have hstill := hstretch.infix_arrived.trans (List.prefix_append arrived [id]).isInfix
    exact Or.inr ⟨opener, rest, ⟨hstill, hstretch.data⟩, hreports⟩

theorem reports_serverHdr {data : StatData} {rest : List Nat}
    (h : data.Accounts rest.length (expectedId 0 rest) (outOfOrder 0 rest)) :
    Reports rest (data.serverHdr hz time) where
  datagrams := h.counter
  outorder := h.outorder
  error := by
    have hnext : data.nextId = BitVec.ofNat 32 (expectedId 0 rest) := by
      rw [← h.nextId, BitVec.ofNat_toNat, BitVec.setWidth_eq]
    rw [← hnext, ← h.counter]
    exact h.error

theorem slt_zero_iff (x : BitVec 32) : x.slt 0 = true ↔ 2 ^ 31 ≤ x.toNat := by
  have hzero : (0 : BitVec 32).toInt = 0 := rfl
  have hlt := x.isLt
  rw [BitVec.slt_eq_decide, decide_eq_true_eq, BitVec.toInt_eq_toNat_cond, hzero]
  split <;> omega

/-- A datagram that does not end a session opens one or is counted, and is not answered. -/
theorem Served.receive_data (h : Served st arrived session) (hid : hdr.id.toNat < 2 ^ 31 - 1) :
    Served st (arrived ++ [hdr.id.toNat]) (session.receive hz time hdr remaining).1 ∧
      (session.receive hz time hdr remaining).2 = false := by
  have hnonneg : hdr.id.slt 0 = false := by
    rw [Bool.eq_false_iff, Ne, slt_zero_iff]
    omega
  cases h with
  | free hfree hknown =>
    rw [Session.receive_start hz time remaining hfree hnonneg]
    refine ⟨.ongoing rfl hdr.id.toNat [] (List.suffix_append arrived _) ?_ (accounts_start time),
      rfl⟩
    intro id hmem
    rwa [List.mem_singleton.mp hmem]
  | ongoing hstate opener rest hsuffix hdata haccounts =>
    rw [Session.receive_count hz time remaining hstate hnonneg]
    have hcount := haccounts.count hz
      { hdr := hdr, remaining := remaining, time := time, id_lt := hid }
    have hcount : (session.count hz time hdr remaining).Accounts
        (rest ++ [hdr.id.toNat]).length (expectedId 0 (rest ++ [hdr.id.toNat]))
        (outOfOrder 0 (rest ++ [hdr.id.toNat])) := by
      rw [List.length_append, expectedId_append, outOfOrder_append]
      exact hcount
    refine ⟨.ongoing hstate opener (rest ++ [hdr.id.toNat]) ?_ ?_ hcount, rfl⟩
    · obtain ⟨before, rfl⟩ := hsuffix
      exact ⟨before, (List.append_assoc before (opener :: rest) _).symm⟩
    · intro id hmem
      rw [← List.cons_append, List.mem_append, List.mem_singleton] at hmem
      rcases hmem with hmem | rfl
      · exact hdata id hmem
      · exact hid

/-- A datagram that ends a session is answered with what the session tells of. -/
theorem Served.receive_final (h : Served st arrived session) (hid : hdr.id.slt 0 = true) :
    Served st (arrived ++ [hdr.id.toNat]) (session.receive hz time hdr remaining).1 ∧
      (session.receive hz time hdr remaining).2 = true ∧
      Known st (arrived ++ [hdr.id.toNat]) (session.receive hz time hdr remaining).1.stat := by
  cases h with
  | free hfree hknown =>
    have hknown : Known st (arrived ++ [hdr.id.toNat]) session.stat := by
      rcases hknown with ⟨rfl, hold⟩ | hknown
      · exact Or.inl ⟨hold, hdr.id.toNat, rfl, (slt_zero_iff _).mp hid⟩
      · exact hknown.append _
    rw [Session.receive_resend hz time remaining hfree hid]
    exact ⟨.free hfree (Or.inr hknown), rfl, hknown⟩
  | ongoing hstate opener rest hsuffix hdata haccounts =>
    rw [Session.receive_final hz time remaining hstate hid]
    have hknown : Known st arrived (session.serverHdr hz time) :=
      Or.inr ⟨opener, rest, ⟨hsuffix.isInfix, hdata⟩, reports_serverHdr hz time haccounts⟩
    exact ⟨.free rfl (Or.inr (hknown.append _)), rfl, hknown.append _⟩

end Server

/-! ## The client's steps -/

section Client

variable (setup : Setup)

theorem again_sent (loop : Loop) : (loop.again setup).sent = loop.sent := by
  unfold Loop.again
  split <;> rfl

/-- What was sent stays so. -/
theorem next_sent (loop : Loop) (time : BitVec 32) (sends : Bool) :
    ∃ new, (loop.next setup time sends).sent = loop.sent ++ new := by
  unfold Loop.next
  cases loop.phase with
  | iterating =>
    dsimp only
    unfold Loop.iterate
    cases sends with
    | false => exact ⟨[], (List.append_nil _).symm⟩
    | true =>
      cases setup.posix with
      | false => exact ⟨_, rfl⟩
      | true => exact ⟨_, again_sent setup _⟩
  | waiting =>
    dsimp only
    split
    · exact ⟨[], (List.append_nil _).symm⟩
    · exact ⟨[], (again_sent setup loop).trans (List.append_nil _).symm⟩
  | left => exact ⟨[], (List.append_nil _).symm⟩

theorem Client.read_sent (client : Client) (r : Reading) :
    (client.read setup r).timed.loop.sent =
      client.timed.loop.sent ++ client.sentBy setup r := by
  obtain ⟨new, hnew⟩ := next_sent setup client.timed.loop
    (BitVec.ofNat 32 (client.timed.now + r.gap.toNat)) r.sends
  have hsent : (client.timed.step setup r).loop.sent = client.timed.loop.sent ++ new := hnew
  rw [Client.sentBy, hsent, List.drop_left]
  exact hsent

/-- The results have the numbers of the statistics. -/
structure Agrees (results : Results) (stat : ServerHdr) : Prop where
  rcvd : results.nbPacketsRcvd = stat.datagrams
  lost : results.nbPacketsLost = stat.errorCnt
  outorder : results.nbPacketsOutorder = stat.outorderCnt

/-- A step of the client that neither sends nor decodes, after the upload. -/
structure Quiet (c c' : Client) : Prop where
  timed : c'.timed = c.timed
  fins : c'.fins = c.fins
  stat : c'.stat = c.stat
  stage : c'.stage ≠ .uploading
  agrees : ∀ stat, Agrees c.results stat → Agrees c'.results stat
  count : c'.stage = .returned → c'.results.nbPacketsSent = c'.timed.loop.nbPackets

theorem Client.quiet_leave (client : Client) : Quiet client (client.leave setup) where
  timed := rfl
  fins := rfl
  stat := rfl
  stage := Stage.noConfusion
  agrees := fun _ h => ⟨h.rcvd, h.lost, h.outorder⟩
  count := fun _ => rfl

theorem Client.quiet_finish (client : Client) (endTime : BitVec 32) :
    Quiet client (client.finish endTime) where
  timed := rfl
  fins := rfl
  stat := rfl
  stage := Stage.noConfusion
  agrees := fun _ h => h
  count := Stage.noConfusion

theorem Client.quiet_again (client : Client) (loop : Nat) :
    Quiet client (client.again setup loop) := by
  unfold Client.again
  split
  · exact client.quiet_leave setup
  · exact ⟨rfl, rfl, rfl, Stage.noConfusion, fun _ h => h, Stage.noConfusion⟩

theorem Client.decode_agrees (client : Client) (hdr : UdpDatagram) (stat : ServerHdr) :
    Agrees (client.decode (buildReply hdr stat)).results stat := by
  unfold Client.decode
  rw [zperfUploadDecodeStat_buildReply]
  exact ⟨rfl, rfl, rfl⟩

end Client

/-! ## The system's steps -/

namespace System

variable {κ : Type*} {setup : Setup} {hz : Nat} {e : Endpoint} {i : Nat} {st : ServerHdr}
  {s s' : System κ}

/-- What a step can do. -/
inductive Steps (setup : Setup) (hz : Nat) (e : Endpoint) (s : System κ) : System κ → Prop
  | idle : Steps setup hz e s s
  | read (r : Reading) (hstage : s.client.stage = .uploading) :
    Steps setup hz e s
      { s with
        client := s.client.read setup r
        toServer := s.toServer.send (s.client.sentBy setup r) }
  | quiet (c : Client) (hquiet : Quiet s.client c) : Steps setup hz e s { s with client := c }
  | sendFin (loop : Nat) :
    Steps setup hz e s
      { s with
        client := s.client.sendFin setup loop
        toServer := s.toServer.send [s.client.finDatagram setup] }
  | decode (k : Nat) (pkt : List (BitVec 8)) (hpkt : s.toClient.flight[k]? = some pkt) :
    Steps setup hz e s { s with client := s.client.decode pkt, toClient := s.toClient.deliver k }
  | drain (k : Nat) : Steps setup hz e s { s with toClient := s.toClient.deliver k }
  | deliver (k : Nat) (remaining time : BitVec 32) (hdr : UdpDatagram)
      (hhdr : s.toServer.flight[k]? = some hdr) :
    Steps setup hz e s (s.deliver hz e k remaining time)
  | lose (k : Nat) : Steps setup hz e s { s with toServer := s.toServer.lose k }
  | loseReply (k : Nat) : Steps setup hz e s { s with toClient := s.toClient.lose k }

theorem steps_recv (result : Recv) : Steps setup hz e s (s.recv setup result) := by
  unfold recv
  split
  case h_1 k _ =>
    split
    · exact .idle
    case h_2 pkt hpkt => exact .decode k pkt hpkt
  case h_2 => exact .quiet _ (s.client.quiet_leave setup)
  case h_3 loop _ => exact .quiet _ (s.client.quiet_again setup loop)
  case h_4 k _ => exact .drain k
  case h_5 => exact .quiet _ (s.client.quiet_leave setup)
  case h_6 => exact .idle

theorem steps_step (event : Event) : Steps setup hz e s (s.step setup hz e event) := by
  cases event with
  | read r =>
    rw [step]
    split
    case isTrue hstage => exact .read r hstage
    case isFalse => exact .idle
  | finish endTime =>
    rw [step]
    split
    · exact .quiet _ (s.client.quiet_finish endTime)
    · exact .idle
  | sendFin sends =>
    rw [step]
    split
    case h_1 loop _ =>
      cases sends with
      | true => exact .sendFin loop
      | false => exact .quiet _ (s.client.quiet_again setup loop)
    case h_2 => exact .idle
  | recv result => exact steps_recv result
  | deliver k remaining time =>
    cases hhdr : s.toServer.flight[k]? with
    | none =>
      have hsame : s.step setup hz e (.deliver k remaining time) = s := by
        simp only [step, deliver, hhdr]
      rw [hsame]
      exact .idle
    | some hdr => exact .deliver k remaining time hdr hhdr
  | lose k => exact .lose k
  | loseReply k => exact .loseReply k

/-- How many datagrams the upload has sent. -/
def sent (s : System κ) : Nat := s.client.timed.loop.sent.length

/-- The client's datagrams are numbered and on the channel, and it ends its session only when it has
sent them all. -/
structure Kept (s : System κ) : Prop where
  numbered : Numbered s.client.timed.loop
  carries : s.toServer.Carries (s.client.timed.loop.sent ++ s.client.fins)
  fins : ∀ d ∈ s.client.fins, d.id = -s.client.timed.loop.nbPackets
  uploading : s.client.stage = .uploading → s.client.fins = []
  count : s.client.stage = .returned →
    s.client.results.nbPacketsSent = s.client.timed.loop.nbPackets

theorem kept_start (time : Nat) (sessions : List (Session κ)) :
    Kept (start setup time sessions) where
  numbered := ⟨rfl, rfl⟩
  carries := Channel.carries_nil
  fins := fun _ hd => by cases hd
  uploading := fun _ => rfl
  count := Stage.noConfusion

theorem deliver_eq {k : Nat} {hdr : UdpDatagram} (hhdr : s.toServer.flight[k]? = some hdr)
    (remaining time : BitVec 32) :
    s.deliver hz e k remaining time =
      { s with
        toServer := s.toServer.deliver k
        toClient := s.toClient.send
          ((udpReceived hz s.sessions
            { src := e, hdr := some hdr, remaining := remaining, time := time }).2.toList.map
              fun reply => buildReply reply.hdr reply.stat)
        sessions := (udpReceived hz s.sessions
          { src := e, hdr := some hdr, remaining := remaining, time := time }).1 } := by
  unfold deliver
  rw [hhdr]

theorem Kept.steps (h : Kept s) (hstep : Steps setup hz e s s') : Kept s' := by
  cases hstep with
  | idle => exact h
  | read r hstage =>
    have hfins : s.client.fins = [] := h.uploading hstage
    have hcarries := h.carries
    rw [hfins, List.append_nil] at hcarries
    refine ⟨h.numbered.next, ?_, ?_, fun _ => hfins, fun hreturned => ?_⟩
    · show (s.toServer.send _).Carries ((s.client.read setup r).timed.loop.sent ++ s.client.fins)
      rw [hfins, List.append_nil, Client.read_sent]
      exact hcarries.send
    · show ∀ d ∈ s.client.fins, _
      rw [hfins]
      exact fun _ hd => by cases hd
    · have hreturned : s.client.stage = .returned := hreturned
      rw [hstage] at hreturned
      cases hreturned
  | quiet c hquiet =>
    refine ⟨?_, ?_, ?_, fun hstage => absurd hstage hquiet.stage, hquiet.count⟩
    · rw [hquiet.timed]
      exact h.numbered
    · rw [hquiet.timed, hquiet.fins]
      exact h.carries
    · rw [hquiet.timed, hquiet.fins]
      exact h.fins
  | sendFin loop =>
    refine ⟨h.numbered, ?_, fun d hd => ?_, Stage.noConfusion, Stage.noConfusion⟩
    · show (s.toServer.send _).Carries (s.client.timed.loop.sent ++ (s.client.fins ++ _))
      rw [← List.append_assoc]
      exact h.carries.send
    · rcases List.mem_append.mp hd with hd | hd
      · exact h.fins d hd
      · rw [List.mem_singleton.mp hd]
        rfl
  | decode k pkt hpkt =>
    exact ⟨h.numbered, h.carries, h.fins, Stage.noConfusion, Stage.noConfusion⟩
  | drain k => exact ⟨h.numbered, h.carries, h.fins, h.uploading, h.count⟩
  | deliver k remaining time hdr hhdr =>
    rw [deliver_eq hhdr]
    exact ⟨h.numbered, h.carries.deliver, h.fins, h.uploading, h.count⟩
  | lose k => exact ⟨h.numbered, h.carries.lose, h.fins, h.uploading, h.count⟩
  | loseReply k => exact ⟨h.numbered, h.carries, h.fins, h.uploading, h.count⟩

theorem Kept.sent_id (h : Kept s) {d : UdpDatagram} (hd : d ∈ s.client.timed.loop.sent)
    (hsent : s.sent < 2 ^ 31) : d.id.toNat < s.sent := by
  have hid : d.id ∈ s.client.timed.loop.sent.map UdpDatagram.id := List.mem_map_of_mem hd
  rw [h.numbered.ids] at hid
  obtain ⟨k, hk, hid⟩ := List.mem_map.mp hid
  have hk : k < s.sent := List.mem_range.mp hk
  rw [← hid, BitVec.toNat_ofNat]
  omega

/-- The id of a datagram that ends the session. -/
theorem Kept.fin_id (h : Kept s) {d : UdpDatagram} (hd : d ∈ s.client.fins)
    (hsent : s.sent < 2 ^ 31) (hpos : 0 < s.sent) : d.id.toNat = 2 ^ 32 - s.sent := by
  have hcount : s.client.timed.loop.nbPackets = BitVec.ofNat 32 s.sent := h.numbered.nbPackets
  rw [h.fins d hd, hcount, BitVec.toNat_neg, BitVec.toNat_ofNat]
  omega

/-- What is in flight counts, or ends the session of a client that has sent something. -/
theorem Kept.kind (h : Kept s) {k : Nat} {hdr : UdpDatagram}
    (hhdr : s.toServer.flight[k]? = some hdr) (hsent : s.sent < 2 ^ 31) :
    hdr.id.toNat < 2 ^ 31 - 1 ∨ hdr.id.slt 0 = true ∧ 0 < s.sent := by
  rcases List.mem_append.mp (h.carries.mem_sent hhdr) with hd | hd
  · have hid := h.sent_id hd hsent
    exact Or.inl (by omega)
  · by_cases hpos : 0 < s.sent
    · have hid := h.fin_id hd hsent hpos
      exact Or.inr ⟨(slt_zero_iff _).mpr (by omega), hpos⟩
    · have hzero : s.sent = 0 := by omega
      have hcount : s.client.timed.loop.nbPackets = BitVec.ofNat 32 s.sent := h.numbered.nbPackets
      refine Or.inl ?_
      rw [h.fins hdr hd, hcount, hzero]
      decide

theorem steps_sent (hstep : Steps setup hz e s s') : s.sent ≤ s'.sent := by
  cases hstep with
  | read r hstage =>
    show s.sent ≤ (s.client.read setup r).timed.loop.sent.length
    rw [Client.read_sent, List.length_append]
    exact Nat.le_add_right _ _
  | quiet c hquiet =>
    show s.sent ≤ c.timed.loop.sent.length
    rw [hquiet.timed]
    exact Nat.le_refl _
  | deliver k remaining time hdr hhdr =>
    rw [deliver_eq hhdr]
    exact Nat.le_refl _
  | _ => exact Nat.le_refl _

/-- The statistics are ones the server can send in this state. -/
def Backed (st : ServerHdr) (s : System κ) (stat : ServerHdr) : Prop :=
  0 < s.sent ∧ Known st s.arrivedIds stat

/-- The server, the network and the client have no other statistics. -/
structure Answered (e : Endpoint) (i : Nat) (st : ServerHdr) (s : System κ) : Prop where
  server : ∃ session, Attends s.sessions e i session ∧ Served st s.arrivedIds session
  replies : ∀ pkt ∈ s.toClient.flight, ∃ hdr stat, pkt = buildReply hdr stat ∧ Backed st s stat
  told : ∀ pkt, s.client.stat = some pkt → ∃ stat, Agrees s.client.results stat ∧ Backed st s stat

theorem arrivedIds_deliver {k : Nat} {hdr : UdpDatagram}
    (hhdr : s.toServer.flight[k]? = some hdr) (remaining time : BitVec 32) :
    (s.deliver hz e k remaining time).arrivedIds = s.arrivedIds ++ [hdr.id.toNat] := by
  rw [deliver_eq hhdr]
  show (s.toServer.deliver k).arrived.map (·.id.toNat) = _
  rw [Channel.deliver_arrived _ _ hhdr, List.map_append]
  rfl

theorem Backed.deliver {stat : ServerHdr} (h : Backed st s stat) {k : Nat} {hdr : UdpDatagram}
    (hhdr : s.toServer.flight[k]? = some hdr) (remaining time : BitVec 32) :
    Backed st (s.deliver hz e k remaining time) stat := by
  refine ⟨?_, ?_⟩
  · rw [deliver_eq hhdr]
    exact h.1
  · rw [arrivedIds_deliver hhdr]
    exact h.2.append _

theorem Answered.deliver (h : Answered e i st s) (hkept : Kept s) (hsent : s.sent < 2 ^ 31)
    {k : Nat} {hdr : UdpDatagram} (hhdr : s.toServer.flight[k]? = some hdr)
    (remaining time : BitVec 32) : Answered e i st (s.deliver hz e k remaining time) := by
  obtain ⟨session, hattends, hserved⟩ := h.server
  have hfor := (@Session.isFor_receive κ hz session time hdr remaining e).trans hattends.isFor
  have hset := hattends.set hfor
  have hreceived := @Attends.udpReceived_eq κ _ e i session hz time remaining hdr hattends
  have hids := @arrivedIds_deliver κ hz e s k hdr hhdr remaining time
  have hold (pkt : List (BitVec 8)) (hpkt : pkt ∈ s.toClient.flight) : ∃ hdr stat,
      pkt = buildReply hdr stat ∧ Backed st (s.deliver hz e k remaining time) stat := by
    obtain ⟨hdr, stat, hpkt, hstat⟩ := h.replies pkt hpkt
    exact ⟨hdr, stat, hpkt, hstat.deliver hhdr remaining time⟩
  have htold (pkt : List (BitVec 8)) (hpkt : s.client.stat = some pkt) : ∃ stat,
      Agrees s.client.results stat ∧ Backed st (s.deliver hz e k remaining time) stat := by
    obtain ⟨stat, hagrees, hstat⟩ := h.told pkt hpkt
    exact ⟨stat, hagrees, hstat.deliver hhdr remaining time⟩
  rcases hkept.kind hhdr hsent with hid | ⟨hid, hpos⟩
  · obtain ⟨hserved, hsilent⟩ := hserved.receive_data hz time remaining hid
    rw [if_neg (by rw [hsilent]; exact Bool.false_ne_true)] at hreceived
    refine ⟨⟨_, ?_, hids ▸ hserved⟩, fun pkt hpkt => hold pkt ?_, ?_⟩
    · rw [deliver_eq hhdr, hreceived]
      exact hset
    · rw [deliver_eq hhdr, hreceived, Option.toList_none, List.map_nil, Channel.send_nil] at hpkt
      exact hpkt
    · rw [deliver_eq hhdr] at htold ⊢
      exact htold
  · obtain ⟨hserved, hsends, hknown⟩ := hserved.receive_final hz time remaining hid
    rw [if_pos hsends] at hreceived
    have hbacked : Backed st (s.deliver hz e k remaining time)
        (session.receive hz time hdr remaining).1.stat := by
      refine ⟨?_, hids ▸ hknown⟩
      rw [deliver_eq hhdr]
      exact hpos
    refine ⟨⟨_, ?_, hids ▸ hserved⟩, fun pkt hpkt => ?_, ?_⟩
    · rw [deliver_eq hhdr, hreceived]
      exact hset
    · rw [deliver_eq hhdr, hreceived] at hpkt
      rcases List.mem_append.mp hpkt with hpkt | hpkt
      · exact hold pkt hpkt
      · exact ⟨hdr, _, List.mem_singleton.mp hpkt, hbacked⟩
    · rw [deliver_eq hhdr] at htold ⊢
      exact htold

theorem Answered.steps (h : Answered e i st s) (hkept : Kept s)
    (hstep : Steps setup hz e s s') (hsent : s'.sent < 2 ^ 31) : Answered e i st s' := by
  have hle := steps_sent hstep
  cases hstep with
  | idle => exact h
  | read r hstage =>
    refine ⟨h.server, fun pkt hpkt => ?_, fun pkt hpkt => ?_⟩
    · obtain ⟨hdr, stat, hpkt, hpos, hknown⟩ := h.replies pkt hpkt
      exact ⟨hdr, stat, hpkt, Nat.lt_of_lt_of_le hpos hle, hknown⟩
    · obtain ⟨stat, hagrees, hpos, hknown⟩ := h.told pkt hpkt
      exact ⟨stat, hagrees, Nat.lt_of_lt_of_le hpos hle, hknown⟩
  | quiet c hquiet =>
    refine ⟨h.server, fun pkt hpkt => ?_, fun pkt hpkt => ?_⟩
    · obtain ⟨hdr, stat, hpkt, hpos, hknown⟩ := h.replies pkt hpkt
      exact ⟨hdr, stat, hpkt, Nat.lt_of_lt_of_le hpos hle, hknown⟩
    · obtain ⟨stat, hagrees, hpos, hknown⟩ := h.told pkt (hquiet.stat.symm.trans hpkt)
      exact ⟨stat, hquiet.agrees stat hagrees, Nat.lt_of_lt_of_le hpos hle, hknown⟩
  | sendFin loop => exact ⟨h.server, h.replies, h.told⟩
  | decode k pkt hpkt =>
    obtain ⟨hdr, stat, rfl, hstat⟩ := h.replies pkt (List.mem_of_getElem? hpkt)
    exact ⟨h.server, fun pkt hpkt => h.replies pkt (Channel.flight_deliver_subset _ k hpkt),
      fun _ _ => ⟨stat, s.client.decode_agrees hdr stat, hstat⟩⟩
  | drain k =>
    exact ⟨h.server, fun pkt hpkt => h.replies pkt (Channel.flight_deliver_subset _ k hpkt), h.told⟩
  | deliver k remaining time hdr hhdr =>
    exact h.deliver hkept (Nat.lt_of_le_of_lt hle hsent) hhdr remaining time
  | lose k =>
    have hids :
        ({ s with toServer := s.toServer.lose k } : System κ).arrivedIds = s.arrivedIds := by
      rw [arrivedIds, Channel.lose_arrived]
      rfl
    refine ⟨hids ▸ h.server, fun pkt hpkt => ?_, fun pkt hpkt => ?_⟩
    · obtain ⟨hdr, stat, hpkt, hpos, hknown⟩ := h.replies pkt hpkt
      exact ⟨hdr, stat, hpkt, hpos, hids ▸ hknown⟩
    · obtain ⟨stat, hagrees, hpos, hknown⟩ := h.told pkt hpkt
      exact ⟨stat, hagrees, hpos, hids ▸ hknown⟩
  | loseReply k =>
    exact ⟨h.server, fun pkt hpkt => h.replies pkt (Channel.flight_lose_subset _ k hpkt), h.told⟩

/-- What is told of an upload that fits the counters. -/
theorem invariant_run {sessions : List (Session κ)} {session : Session κ} (time : Nat)
    (hi : (getSession sessions e).1 = some i) (hs : sessions[i]? = some session)
    (hfree : session.isFree = true) (events : List Event) :
    Kept (run (step setup hz e) (start setup time sessions) events) ∧
      ((run (step setup hz e) (start setup time sessions) events).sent < 2 ^ 31 →
        Answered e i session.stat
          (run (step setup hz e) (start setup time sessions) events)) := by
  obtain ⟨s₀, hattends, hstate, hstat⟩ := attends_of_getSession hi hs
  have hfree₀ : s₀.isFree = true := by
    rw [Session.isFree, hstate]
    exact hfree
  refine run_invariant (I := fun s => Kept s ∧ (s.sent < 2 ^ 31 → Answered e i session.stat s))
    (step setup hz e) (fun s event h => ?_) ⟨kept_start time sessions, fun _ => ?_⟩ events
  · have hstep := @steps_step κ setup hz e s event
    refine ⟨h.1.steps hstep, fun hsent => ?_⟩
    exact (h.2 (Nat.lt_of_le_of_lt (steps_sent hstep) hsent)).steps h.1 hstep hsent
  · refine ⟨⟨s₀, hattends, .free hfree₀ (Or.inl ⟨rfl, hstat⟩)⟩, fun _ hpkt => ?_, fun _ hpkt => ?_⟩
    · cases hpkt
    · cases hpkt

/-! ## The report -/

theorem Kept.arrivedIds_subperm (h : Kept s) : s.arrivedIds.Subperm
    ((s.client.timed.loop.sent ++ s.client.fins).map (·.id.toNat)) := by
  obtain ⟨ds, hperm, hsub⟩ := h.carries.arrived_subperm
  exact ⟨ds.map (·.id.toNat), hperm.map _, hsub.map _⟩

/-- The ids of a stretch of arrivals are different ids of the upload. -/
theorem Kept.stretch_subperm (h : Kept s) {opener : Nat} {rest : List Nat}
    (hsent : s.sent < 2 ^ 31) (hpos : 0 < s.sent)
    (hstretch : Stretch s.arrivedIds opener rest) :
    (opener :: rest).Subperm (List.range s.sent) := by
  have hall : (opener :: rest).Subperm
      ((s.client.timed.loop.sent ++ s.client.fins).map (·.id.toNat)) :=
    hstretch.infix_arrived.sublist.subperm.trans (h.arrivedIds_subperm)
  have hfilter := hall.filter (· < 2 ^ 31 - 1)
  have hdata : (opener :: rest).filter (· < 2 ^ 31 - 1) = opener :: rest :=
    List.filter_eq_self.mpr fun id hid => decide_eq_true (hstretch.data id hid)
  have hids : s.client.timed.loop.sent.map (·.id.toNat) = List.range s.sent := by
    have hids := congrArg (List.map BitVec.toNat) h.numbered.ids
    rw [List.map_map, List.map_map] at hids
    refine hids.trans ?_
    calc (List.range s.sent).map (BitVec.toNat ∘ BitVec.ofNat 32)
        = (List.range s.sent).map id := List.map_congr_left fun k hk => by
          have hk : k < s.sent := List.mem_range.mp hk
          show (BitVec.ofNat 32 k).toNat = k
          rw [BitVec.toNat_ofNat]
          omega
      _ = List.range s.sent := List.map_id _
  have hfins : (s.client.fins.map (·.id.toNat)).filter (· < 2 ^ 31 - 1) = [] := by
    rw [List.filter_eq_nil_iff]
    intro id hid
    obtain ⟨d, hd, rfl⟩ := List.mem_map.mp hid
    have hid := h.fin_id hd hsent hpos
    rw [decide_eq_true_eq]
    omega
  have hrange : (List.range s.sent).filter (· < 2 ^ 31 - 1) = List.range s.sent :=
    List.filter_eq_self.mpr fun id hid => by
      have hid : id < s.sent := List.mem_range.mp hid
      rw [decide_eq_true_eq]
      omega
  rw [hdata, List.map_append, List.filter_append, hids, hfins, hrange, List.append_nil] at hfilter
  exact hfilter

end System

theorem told_of_reports {sent opener : Nat} {rest : List Nat} {results : Results}
    {stat : ServerHdr} (hsent : sent < 2 ^ 31)
    (hids : (opener :: rest).Subperm (List.range sent)) (hreports : Reports rest stat)
    (hagrees : Agrees results stat) : Told sent opener rest results := by
  have hlength := hids.length_le
  have hnodup : (opener :: rest).Nodup := by
    obtain ⟨ids, hperm, hsub⟩ := hids
    exact hperm.nodup_iff.mp (List.nodup_range.sublist hsub)
  have hbelow : ∀ id ∈ rest, id < sent := fun id hid =>
    List.mem_range.mp (hids.subset (List.mem_cons_of_mem opener hid))
  have hlow := length_le_expectedId hnodup.of_cons
  have hhigh := expectedId_le (Nat.zero_le sent) hbelow
  have hlate := outOfOrder_le 0 rest
  rw [List.length_cons, List.length_range] at hlength
  have hrcvd : results.nbPacketsRcvd.toNat = rest.length := by
    rw [hagrees.rcvd, hreports.datagrams, BitVec.toNat_ofNat]
    omega
  refine ⟨hids, hrcvd, by omega, ?_, ?_⟩
  · rw [hagrees.outorder, hreports.outorder, BitVec.toNat_ofNat]
    omega
  · have herror := hreports.error
    have houtorder := hreports.outorder
    rw [hagrees.lost]
    bv_omega

/-- The results of a client that got an answer are the report of a session of its own datagrams,
unless the first datagram to arrive was one that ends the session: that is answered with what the
server had told last. -/
theorem upload_told {κ : Type*} {setup : Setup} {hz : Nat} {e : Endpoint} {i : Nat}
    {sessions : List (Session κ)} {session : Session κ} {time : Nat} {events : List Event}
    {s : System κ} (hi : (getSession sessions e).1 = some i) (hs : sessions[i]? = some session)
    (hfree : session.isFree = true)
    (hrun : run (System.step setup hz e) (.start setup time sessions) events = s)
    (hsent : s.sent < 2 ^ 31) (hreturned : s.client.stage = .returned)
    (hstat : s.client.stat ≠ none) :
    0 < s.sent ∧ s.client.results.nbPacketsSent.toNat = s.sent ∧
      ((∃ opener rest, (opener :: rest) <:+: s.arrivedIds ∧
          Told s.sent opener rest s.client.results) ∨
        (∃ fin ∈ s.client.fins, s.toServer.arrived.head? = some fin) ∧
          Agrees s.client.results session.stat) := by
  obtain ⟨hkept, hanswered⟩ :=
    @System.invariant_run κ setup hz e i sessions session time hi hs hfree events
  rw [hrun] at hkept hanswered
  obtain ⟨pkt, hpkt⟩ := Option.ne_none_iff_exists'.mp hstat
  obtain ⟨stat, hagrees, hpos, hknown⟩ := (hanswered hsent).told pkt hpkt
  have hcount : s.client.timed.loop.nbPackets = BitVec.ofNat 32 s.sent := hkept.numbered.nbPackets
  refine ⟨hpos, ?_, ?_⟩
  · rw [hkept.count hreturned, hcount, BitVec.toNat_ofNat]
    omega
  · rcases hknown with ⟨rfl, id, hfirst, hid⟩ | ⟨opener, rest, hstretch, hreports⟩
    · refine Or.inr ⟨?_, hagrees⟩
      rw [System.arrivedIds, List.head?_map, Option.map_eq_some_iff] at hfirst
      obtain ⟨fin, hfin, rfl⟩ := hfirst
      refine ⟨fin, ?_, hfin⟩
      have hmem := hkept.carries.arrived_subperm.subset (List.mem_of_head? hfin)
      rcases List.mem_append.mp hmem with hd | hd
      · have hlt := hkept.sent_id hd hsent
        omega
      · exact hd
    · have hids := hkept.stretch_subperm hsent hpos hstretch
      exact Or.inl ⟨opener, rest, hstretch.infix_arrived,
        told_of_reports hsent hids hreports hagrees⟩

/-- An upload of three datagrams, the last two of which change places. -/
def reorderedSetup : Setup :=
  { hz := 1000, posix := true, packetDuration := 0, duration := 3, printInterval := 1000
    packetSize := 256 }

def reordered : System Unit :=
  run (System.step reorderedSetup 32768 streamPeer) (.start reorderedSetup 0 (zeroedSessions Unit))
    [.read { gap := 1 }, .read { gap := 1 }, .read { gap := 1 }, .finish 4, .sendFin true,
      .deliver 0 256 0, .deliver 1 256 1, .deliver 0 256 2, .deliver 0 256 3, .recv (.packet 0),
      .recv .timedOut]

theorem upload_told_reordered :
    0 < reordered.sent ∧ reordered.client.results.nbPacketsSent.toNat = reordered.sent ∧
      ((∃ opener rest, (opener :: rest) <:+: reordered.arrivedIds ∧
          Told reordered.sent opener rest reordered.client.results) ∨
        (∃ fin ∈ reordered.client.fins, reordered.toServer.arrived.head? = some fin) ∧
          Agrees reordered.client.results ({} : Session Unit).stat) :=
  upload_told (by decide : (getSession (zeroedSessions Unit) streamPeer).1 = some 0) rfl rfl rfl
    (by decide +kernel) (by decide +kernel) (by decide +kernel)

/-- Two are reported as received, one as late and two as lost. -/
example : (reordered.client.results.nbPacketsRcvd, reordered.client.results.nbPacketsOutorder,
    reordered.client.results.nbPacketsLost) = (2, 1, 2) := by decide +kernel

end Zperf
end ZephyrSamples
