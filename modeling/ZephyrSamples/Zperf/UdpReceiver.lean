import ZephyrSamples.Zperf.Session
import ZephyrSamples.Lib.Runs

/-!
# The zperf UDP receiver

`udp_received` of the `zperf` sample.  `Session.receive` is its `switch` on the state of the session
that `get_session` returns, and `udpReceived` the whole callback.  What the receiver prints is left
out, and with it the rate, which is only printed.
-/

namespace ZephyrSamples
namespace Zperf

open SlotTable Runs

def usecPerSec : BitVec 32 := 1000000

/-- `HW_CYCLES_TO_USEC`, cut to the 32 bits of the variables it is assigned to, for a cycle counter
that makes `hz` cycles a second. -/
def hwCyclesToUsec (hz : Nat) (hwCycle : BitVec 32) : BitVec 32 :=
  BitVec.ofNat 32 (hwCycle.toNat * usecPerSec.toNat / hz)

/-- `time_delta`, on a machine whose `ULONG_MAX` has 32 bits. -/
def timeDelta (ts t : BitVec 32) : BitVec 32 :=
  if ts ≤ t then t - ts else BitVec.allOnes 32 - ts + t

/-- `struct zperf_udp_datagram`, in the byte order of the host. -/
structure UdpDatagram where
  id : BitVec 32
  tvSec : BitVec 32 := 0
  tvUsec : BitVec 32 := 0
  deriving DecidableEq

/-- A packet `udp_received` is called with: where it is from, its header if it is long enough for
one, what `net_pkt_remaining_data` says of it, and the cycle counter at the call. -/
structure Packet where
  src : Endpoint
  hdr : Option UdpDatagram
  remaining : BitVec 32 := 0
  time : BitVec 32 := 0
  deriving DecidableEq

structure StatPacket where
  dst : Endpoint
  hdr : UdpDatagram
  stat : ServerHdr
  deriving DecidableEq

variable {κ : Type*}

namespace StatData

variable (hz : Nat) (data : StatData) (time : BitVec 32)

/-- What is filled into `session->stat` at the end of a session. -/
def serverHdr : ServerHdr :=
  let duration := hwCyclesToUsec hz (timeDelta data.startTime time)
  { flags := 0x80000000
    totalLen1 := (data.length >>> 32).setWidth 32
    totalLen2 := (data.length % 0xFFFFFFFF).setWidth 32
    stopSec := duration / usecPerSec
    stopUsec := duration % usecPerSec
    errorCnt := data.error
    outorderCnt := data.outorder
    datagrams := data.counter
    jitter1 := 0
    jitter2 := data.jitter }

def countJitter (hdr : UdpDatagram) : StatData :=
  let transitTime :=
    timeDelta (hwCyclesToUsec hz time) (hdr.tvSec * usecPerSec + hdr.tvUsec)
  let deltaTransit := transitTime - data.lastTransitTime
  let deltaTransit := if deltaTransit.slt 0 then -deltaTransit else deltaTransit
  { data with
    jitter :=
      if data.lastTransitTime ≠ 0 then data.jitter + (deltaTransit - data.jitter).sdiv 16
      else data.jitter
    lastTransitTime := transitTime }

/-- The check of the header's id, which is not negative here and compared as unsigned. -/
def checkId (id : BitVec 32) : StatData :=
  if id ≠ data.nextId then
    if id < data.nextId then { data with outorder := data.outorder + 1 }
    else { data with error := data.error + (id - data.nextId), nextId := id + 1 }
  else { data with nextId := data.nextId + 1 }

/-- The counters after a datagram of an ongoing session. -/
def count (hdr : UdpDatagram) (remaining : BitVec 32) : StatData :=
  let data :=
    { data with counter := data.counter + 1, length := data.length + remaining.setWidth 64 }
  (data.countJitter hz time hdr).checkId hdr.id

end StatData

/-- The `switch` of `udp_received`: the session after it, and whether `session->stat` is sent. -/
def Session.receive (hz : Nat) (session : Session κ) (time : BitVec 32) (hdr : UdpDatagram)
    (remaining : BitVec 32) : Session κ × Bool :=
  match session.state with
  | .completed | .null =>
    if hdr.id.slt 0 then (session, true)
    else
      let session := session.resetStats
      ({ session with state := .ongoing, startTime := time }, false)
  | .ongoing =>
    if hdr.id.slt 0 then
      ({ session with state := .completed, stat := session.serverHdr hz time }, true)
    else ({ session with toStatData := session.count hz time hdr remaining }, false)
  | .lastPacketReceived => (session, false)

/-- `udp_received` for a packet that is there: the table after it and the statistics it sends. -/
def udpReceived (hz : Nat) (sessions : List (Session κ)) (pkt : Packet) :
    List (Session κ) × Option StatPacket :=
  match pkt.hdr with
  | none => (sessions, none)
  | some hdr =>
    match getSession sessions pkt.src with
    | (none, sessions) => (sessions, none)
    | (some i, sessions) =>
      match sessions[i]? with
      | none => (sessions, none)
      | some session =>
        let (session, send) := session.receive hz pkt.time hdr pkt.remaining
        (sessions.set i session,
          if send then some { dst := pkt.src, hdr := hdr, stat := session.stat } else none)

/-! ## What the callback does -/

namespace Session

variable (hz : Nat) {session : Session κ} (time : BitVec 32) {hdr : UdpDatagram}
  (remaining : BitVec 32)

theorem isFree_iff :
    session.isFree = true ↔ session.state = .null ∨ session.state = .completed := by
  rw [isFree, Bool.or_eq_true, beq_iff_eq, beq_iff_eq]

theorem receive_resend (hfree : session.isFree = true) (hid : hdr.id.slt 0 = true) :
    session.receive hz time hdr remaining = (session, true) := by
  rcases isFree_iff.mp hfree with hs | hs <;> simp only [receive, hs, hid, if_true]

theorem receive_start (hfree : session.isFree = true) (hid : hdr.id.slt 0 = false) :
    session.receive hz time hdr remaining =
      ({ session with toStatData := { startTime := time }, state := .ongoing }, false) := by
  rcases isFree_iff.mp hfree with hs | hs <;>
    simp only [receive, hs, hid, if_neg Bool.false_ne_true] <;> rfl

theorem receive_final (hs : session.state = .ongoing) (hid : hdr.id.slt 0 = true) :
    session.receive hz time hdr remaining =
      ({ session with state := .completed, stat := session.serverHdr hz time }, true) := by
  simp only [receive, hs, hid, if_true]

theorem receive_count (hs : session.state = .ongoing) (hid : hdr.id.slt 0 = false) :
    session.receive hz time hdr remaining =
      ({ session with toStatData := session.count hz time hdr remaining }, false) := by
  simp only [receive, hs, hid, if_neg Bool.false_ne_true]

theorem isFor_receive (e : Endpoint) :
    (session.receive hz time hdr remaining).1.isFor e = session.isFor e := by
  cases hs : session.state with
  | lastPacketReceived => simp only [receive, hs]
  | ongoing =>
    cases hid : hdr.id.slt 0 with
    | true => rw [receive_final _ _ _ hs hid]; rfl
    | false => rw [receive_count _ _ _ hs hid]; rfl
  | null | completed =>
    have hfree : session.isFree = true := by rw [isFree, hs]; rfl
    cases hid : hdr.id.slt 0 with
    | true => rw [receive_resend _ _ _ hfree hid]
    | false => rw [receive_start _ _ _ hfree hid]; rfl

end Session

theorem udpReceived_of_none {hz : Nat} {sessions : List (Session κ)} {pkt : Packet}
    (h : pkt.hdr = none) : udpReceived hz sessions pkt = (sessions, none) := by
  simp only [udpReceived, h]

theorem udpReceived_of_getSession_none {hz : Nat} {sessions : List (Session κ)} {pkt : Packet}
    (h : getSession sessions pkt.src = (none, sessions)) :
    udpReceived hz sessions pkt = (sessions, none) := by
  cases hhdr : pkt.hdr with
  | none => exact udpReceived_of_none hhdr
  | some hdr => simp only [udpReceived, hhdr, h]

/-- `udp_received` where `get_session` returns slot `i`, which it leaves as `session`. -/
theorem udpReceived_of_getSession {hz : Nat} {sessions : List (Session κ)} {pkt : Packet}
    {hdr : UdpDatagram} {i : Nat} {session : Session κ} (hhdr : pkt.hdr = some hdr)
    (hi : i < sessions.length)
    (h : getSession sessions pkt.src = (some i, sessions.set i session)) :
    udpReceived hz sessions pkt =
      (sessions.set i (session.receive hz pkt.time hdr pkt.remaining).1,
        if (session.receive hz pkt.time hdr pkt.remaining).2 then
          some
            { dst := pkt.src
              hdr := hdr
              stat := (session.receive hz pkt.time hdr pkt.remaining).1.stat }
        else none) := by
  have hslot : (sessions.set i session)[i]? = some session := List.getElem?_set_self hi
  simp only [udpReceived, hhdr, h, hslot, List.set_set]

end Zperf
end ZephyrSamples
