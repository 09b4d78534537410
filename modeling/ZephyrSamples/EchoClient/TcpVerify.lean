import Mathlib.Algebra.Group.Nat.Defs
import ZephyrSamples.Lib.Runs
import ZephyrSamples.Sockets.Sendall

/-!
# The verification of the TCP echo

`process_tcp_proto` of `tcp.c` with `compare_tcp_data` and `send_tcp_data`, one `recv` at a time.
In whatever chunks the echo of the blocks comes, every byte is compared with its own place in the
block, the next block is sent with the last of them, and the first chunk that is not what was sent
ends the call with an error. -/

namespace ZephyrSamples
namespace EchoClient
namespace TcpVerify

open Runs Sockets

def loremIpsum : List Byte :=
  ("Lorem ipsum dolor sit amet, consectetur adipiscing elit. Quisque " ++
    "sodales lorem lorem, sed congue enim vehicula a. Sed finibus diam sed " ++
    "odio ultrices pharetra. Nullam dictum arcu ultricies turpis congue, " ++
    "vel venenatis turpis venenatis. Nam tempus arcu eros, ac congue libero " ++
    "tristique congue. Proin velit lectus, euismod sit amet quam in, " ++
    "maximus condimentum urna. Cras vel erat luctus, mattis orci ut, varius " ++
    "urna. Nam eu lobortis velit." ++
    "\n" ++
    "Nullam sit amet diam vel odio sodales cursus vehicula eu arcu. Proin " ++
    "fringilla, enim nec consectetur mollis, lorem orci interdum nisi, " ++
    "vitae suscipit nisi mauris eu mi. Proin diam enim, mollis ac rhoncus " ++
    "vitae, placerat et eros. Suspendisse convallis, ipsum nec rhoncus " ++
    "aliquam, ex augue ultrices nisl, id aliquet mi diam quis ante. " ++
    "Pellentesque venenatis ornare ultrices. Quisque et porttitor lectus. " ++
    "Ut venenatis nunc et urna imperdiet porttitor non laoreet massa. Donec " ++
    "eleifend eros in mi sagittis egestas. Sed et mi nunc. Nunc vulputate, " ++
    "mauris non ullamcorper viverra, lorem nulla vulputate diam, et congue " ++
    "dui velit non erat. Duis interdum leo et ipsum tempor consequat. In " ++
    "faucibus enim quis purus vulputate nullam." ++
    "\n").toUTF8.toList

def ipsumLen : Nat := loremIpsum.length

/-- `RECV_BUF_SIZE` -/
def recvBufSize : Nat := 128

def eio : Int := 5

/-- `data->tcp` without the socket -/
structure Tcp where
  expecting : Nat
  received : Nat
  counter : Nat
  deriving DecidableEq, Repr

/-- What `recv` gives: bytes, 0, EAGAIN, or another error. -/
inductive Recv where
  | data (bytes : List Byte)
  | closed
  | again
  | error (errno : Int)
  deriving DecidableEq, Repr

/-- The answers in a round of the loop: of `recv`, and of `sys_rand32_get` and `send` if a block is
sent. -/
structure Round where
  received : Recv
  rands : List Nat
  outLens : List Int
  deriving DecidableEq, Repr

/-- The length the `do` loop of `send_tcp_data` ends with; 0 if it needs more random numbers. -/
def randomLen : List Nat → Nat
  | [] => 0
  | rand :: rands => if rand % ipsumLen = 0 then randomLen rands else rand % ipsumLen

/-- `send_tcp_data`: the bytes sent, and what it returns. -/
def sendTcpData (tcp : Tcp) (r : Round) : Tcp × List Byte × Int :=
  let tcp := { tcp with expecting := randomLen r.rands, received := 0 }
  (tcp, sendall (loremIpsum.take tcp.expecting) r.outLens)

/-- A comparison with `lorem_ipsum`, from `start` on for `len` bytes, while `expecting` bytes are
expected. -/
structure Compared where
  start : Nat
  len : Nat
  expecting : Nat
  deriving DecidableEq, Repr

/-- `compare_tcp_data`: the call of `memcmp` if there is one, and what is returned. -/
def compareTcpData (tcp : Tcp) (buf : List Byte) : List Compared × Int :=
  if tcp.expecting < tcp.received + buf.length then ([], -eio)
  else
    ([{ start := tcp.received, len := buf.length, expecting := tcp.expecting }],
      if buf ≠ (loremIpsum.drop tcp.received).take buf.length then -eio else 0)

/-- What a round of the loop does, and what `process_tcp_proto` returns after it, if it does. -/
structure Outcome where
  tcp : Tcp
  compared : List Compared
  sent : List Byte
  ret : Option Int
  deriving DecidableEq, Repr

/-- A round of the loop of `process_tcp_proto`. -/
def loopBody (tcp : Tcp) (r : Round) : Outcome :=
  match r.received with
  | .closed => { tcp := tcp, compared := [], sent := [], ret := some (-eio) }
  | .again => { tcp := tcp, compared := [], sent := [], ret := some 0 }
  | .error errno => { tcp := tcp, compared := [], sent := [], ret := some (-errno) }
  | .data bytes =>
    let result := compareTcpData tcp bytes
    if result.2 ≠ 0 then { tcp := tcp, compared := result.1, sent := [], ret := some result.2 }
    else
      let tcp := { tcp with received := tcp.received + bytes.length }
      if tcp.received < tcp.expecting then
        { tcp := tcp, compared := result.1, sent := [], ret := none }
      else
        let next := sendTcpData { tcp with counter := (tcp.counter + 1) % 2 ^ 32 } r
        { tcp := next.1, compared := result.1, sent := next.2.1, ret := some next.2.2 }

/-- A call: the connection after it, the comparisons it made, the bytes it sent and what it
returned. -/
structure Call where
  tcp : Tcp
  compared : List Compared
  sent : List Byte
  ret : Int
  deriving DecidableEq, Repr

/-- A call that begins with a round after which it has not returned. -/
def Call.after (out : Outcome) (call : Call) : Call :=
  { call with compared := out.compared ++ call.compared, sent := out.sent ++ call.sent }

/-- `process_tcp_proto`, and the rounds that are left; `none` while it needs more. -/
def processTcpProto : Tcp → List Round → Option (Call × List Round)
  | _, [] => none
  | tcp, r :: rs =>
    let out := loopBody tcp r
    match out.ret with
    | none => (processTcpProto out.tcp rs).map fun (call, rest) => (call.after out, rest)
    | some ret =>
        some ({ tcp := out.tcp, compared := out.compared, sent := out.sent, ret := ret }, rs)

/-- Calls one after the other, and the rounds that are left. -/
inductive Calls : Tcp → List Round → List Call → List Round → Prop
  | none {tcp : Tcp} {rounds : List Round} : Calls tcp rounds [] rounds
  | next {tcp : Tcp} {rounds mid rest : List Round} {call : Call} {calls : List Call}
      (first : processTcpProto tcp rounds = some (call, mid))
      (others : Calls call.tcp mid calls rest) : Calls tcp rounds (call :: calls) rest

/-- A connection over any number of calls: what they returned, the comparisons they made, the bytes
that were sent, those that were read and those that were read and matched, and the lengths of the
blocks sent. -/
structure Session where
  tcp : Tcp
  returned : List Int
  compared : List Compared
  sent : List Byte
  read : List Byte
  matched : List Byte
  blocks : List Nat
  deriving DecidableEq, Repr

/-- `start_tcp` has sent a block of length `len`. -/
def connected (counter len : Nat) : Session where
  tcp := { expecting := len, received := 0, counter := counter }
  returned := []
  compared := []
  sent := loremIpsum.take len
  read := []
  matched := []
  blocks := [len]

/-- The bytes that `recv` gives in the round. -/
def Round.bytes (r : Round) : List Byte :=
  match r.received with
  | .data bytes => bytes
  | _ => []

/-- A round, of the call that is under way or of the next one. -/
def step (s : Session) (r : Round) : Session :=
  let out := loopBody s.tcp r
  { tcp := out.tcp
    returned := s.returned ++ out.ret.toList
    compared := s.compared ++ out.compared
    sent := s.sent ++ out.sent
    read := s.read ++ r.bytes
    matched := if (compareTcpData s.tcp r.bytes).2 = 0 then s.matched ++ r.bytes else s.matched
    blocks := if out.sent = [] then s.blocks else s.blocks ++ [out.tcp.expecting] }

/-- A chunk of at most `sizeof(buf)` bytes or EAGAIN; the random numbers are enough for a length,
and `send` takes any part of the block. -/
def Possible (_ : Session) (r : Round) : Prop :=
  (match r.received with
    | .data bytes => bytes ≠ [] ∧ bytes.length ≤ recvBufSize
    | .again => True
    | .closed => False
    | .error _ => False) ∧
  randomLen r.rands ≠ 0 ∧ ∀ outLen ∈ r.outLens, 0 < outLen

instance (s : Session) (r : Round) : Decidable (Possible s r) := by
  unfold Possible
  cases r.received <;> infer_instance

/-- All that was sent is matched but for the rest of the last block, which has at least one byte and
is the only one that is not counted; and comparisons stay inside the block. -/
structure Sound (counter : Nat) (s : Session) : Prop where
  received : s.tcp.received < s.tcp.expecting
  expecting : s.tcp.expecting < ipsumLen
  current : s.blocks.getLast? = some s.tcp.expecting
  sent : s.sent = s.blocks.flatMap loremIpsum.take
  matched : s.matched =
    s.blocks.dropLast.flatMap loremIpsum.take ++ loremIpsum.take s.tcp.received
  counted : s.tcp.counter % 2 ^ 32 = (counter + s.blocks.dropLast.length) % 2 ^ 32
  compared : ∀ c ∈ s.compared, c.start + c.len ≤ c.expecting
  read : s.matched.length ≤ s.read.length
  returned : s.read = s.matched → ∀ ret ∈ s.returned, ret = 0

/-- While everything read has been matched, a chunk that goes on with what was sent is matched and
makes no call fail, and any other one ends the call with an error. -/
structure Judged (s : Session) (r : Round) : Prop where
  accepts : s.read = s.matched → s.read ++ r.bytes <+: s.sent →
    (step s r).read = (step s r).matched ∧ ∀ ret ∈ (loopBody s.tcp r).ret, ret = 0
  refuses : s.read = s.matched → ¬ s.read ++ r.bytes <+: s.sent →
    ∃ ret ∈ (loopBody s.tcp r).ret, ret < 0

/-- The rounds are those of the calls: what these return, compare and send is what happens in the
rounds. -/
structure Made (s : Session) (rounds : List Round) (calls : List Call) : Prop where
  returned : (run step s rounds).returned = s.returned ++ calls.map Call.ret
  compared : (run step s rounds).compared = s.compared ++ calls.flatMap Call.compared
  sent : (run step s rounds).sent = s.sent ++ calls.flatMap Call.sent

/-- While everything read has been matched, a call returns 0 if what it reads goes on with what was
sent and a negative value if not, and then it is the last chunk that deviates. -/
structure Verdict (s : Session) (rounds : List Round) (call : Call) : Prop where
  accepts : s.read = s.matched → s.read ++ rounds.flatMap Round.bytes <+: s.sent → call.ret = 0
  refuses : s.read = s.matched → ¬ s.read ++ rounds.flatMap Round.bytes <+: s.sent → call.ret < 0
  last : s.read = s.matched →
    ∃ before r, rounds = before ++ [r] ∧ s.read ++ before.flatMap Round.bytes <+: s.sent

/-- The bytes of the block that are still expected. -/
def Tcp.rest (tcp : Tcp) : List Byte := (loremIpsum.take tcp.expecting).drop tcp.received

variable {tcp : Tcp} {r : Round} {bytes : List Byte} {s : Session} {counter : Nat}

theorem Tcp.length_rest (h : tcp.expecting ≤ ipsumLen) :
    tcp.rest.length = tcp.expecting - tcp.received := by
  have hmin : min tcp.expecting loremIpsum.length = tcp.expecting := Nat.min_eq_left h
  rw [Tcp.rest, List.length_drop, List.length_take, hmin]

theorem Tcp.take_rest {n : Nat} (hn : tcp.received + n ≤ tcp.expecting) :
    tcp.rest.take n = (loremIpsum.drop tcp.received).take n := by
  rw [Tcp.rest, List.drop_take, List.take_take, Nat.min_eq_left (by omega)]

/-- A chunk passes the comparison if it goes on with the block. -/
theorem compareTcpData_eq_zero_iff (h : tcp.received ≤ tcp.expecting)
    (hlen : tcp.expecting ≤ ipsumLen) : (compareTcpData tcp bytes).2 = 0 ↔ bytes <+: tcp.rest := by
  unfold compareTcpData
  by_cases hlong : tcp.expecting < tcp.received + bytes.length
  · rw [if_pos hlong]
    refine iff_of_false (by decide) fun hprefix => ?_
    have hle := hprefix.length_le
    rw [tcp.length_rest hlen] at hle
    omega
  · rw [if_neg hlong, List.prefix_iff_eq_take, tcp.take_rest (by omega)]
    by_cases hsame : bytes = (loremIpsum.drop tcp.received).take bytes.length
    · simp [← hsame]
    · simp [hsame, eio]

theorem compareTcpData_lt_zero (h : (compareTcpData tcp bytes).2 ≠ 0) :
    (compareTcpData tcp bytes).2 < 0 := by
  unfold compareTcpData at h ⊢
  split
  · decide
  · rename_i hfits
    rw [if_neg hfits] at h
    simp only at h ⊢
    split
    · decide
    · rename_i hsame
      rw [if_neg hsame] at h
      exact absurd rfl h

theorem compared_inside : ∀ c ∈ (compareTcpData tcp bytes).1, c.start + c.len ≤ c.expecting := by
  unfold compareTcpData
  split
  · simp
  · rename_i hfits
    simp only [List.mem_singleton]
    rintro c rfl
    exact Nat.le_of_not_lt hfits

theorem loopBody_again (h : r.received = .again) :
    loopBody tcp r = { tcp := tcp, compared := [], sent := [], ret := some 0 } := by
  simp [loopBody, h]

theorem loopBody_refused (h : r.received = .data bytes) (hne : (compareTcpData tcp bytes).2 ≠ 0) :
    loopBody tcp r =
      { tcp := tcp, compared := (compareTcpData tcp bytes).1, sent := [],
        ret := some (compareTcpData tcp bytes).2 } := by
  simp [loopBody, h, hne]

theorem loopBody_part (h : r.received = .data bytes) (hz : (compareTcpData tcp bytes).2 = 0)
    (hpart : tcp.received + bytes.length < tcp.expecting) :
    loopBody tcp r =
      { tcp := { tcp with received := tcp.received + bytes.length }
        compared := (compareTcpData tcp bytes).1, sent := [], ret := none } := by
  simp [loopBody, h, hz, hpart]

/-- The last chunk of a block: it is counted, and another one is sent. -/
theorem loopBody_last (h : r.received = .data bytes) (hz : (compareTcpData tcp bytes).2 = 0)
    (hlast : ¬ tcp.received + bytes.length < tcp.expecting)
    (hpos : ∀ outLen ∈ r.outLens, 0 < outLen) :
    loopBody tcp r =
      { tcp := { expecting := randomLen r.rands, received := 0,
                 counter := (tcp.counter + 1) % 2 ^ 32 }
        compared := (compareTcpData tcp bytes).1
        sent := loremIpsum.take (randomLen r.rands), ret := some 0 } := by
  simp [loopBody, h, hz, hlast, sendTcpData, sendall_of_pos hpos]

theorem ipsumLen_eq : ipsumLen = 1162 := by decide +kernel

theorem ipsumLen_pos : 0 < ipsumLen := by rw [ipsumLen_eq]; decide

theorem randomLen_lt (rands : List Nat) : randomLen rands < ipsumLen := by
  induction rands with
  | nil => exact ipsumLen_pos
  | cons rand rands ih =>
    rw [randomLen]
    split
    · exact ih
    · exact Nat.mod_lt _ ipsumLen_pos

theorem take_ne_nil {len : Nat} (h : len ≠ 0) : loremIpsum.take len ≠ [] := by
  intro hnil
  have hpos := ipsumLen_pos
  have hzero := congrArg List.length hnil
  rw [List.length_take, List.length_nil] at hzero
  unfold ipsumLen at hpos
  omega

theorem sound_connected {len : Nat} (hpos : 0 < len) (hlen : len < ipsumLen) :
    Sound counter (connected counter len) where
  received := hpos
  expecting := hlen
  current := rfl
  sent := by simp [connected]
  matched := by simp [connected]
  counted := by simp [connected]
  compared _ h := nomatch h
  read := Nat.le_refl 0
  returned _ _ h := nomatch h

theorem Sound.blocks_eq (h : Sound counter s) :
    s.blocks = s.blocks.dropLast ++ [s.tcp.expecting] :=
  (List.dropLast_append_getLast? s.tcp.expecting h.current).symm

/-- What was sent is what was matched and the rest of the block. -/
theorem Sound.sent_eq (h : Sound counter s) : s.sent = s.matched ++ s.tcp.rest := by
  have hblock : loremIpsum.take s.tcp.expecting =
      loremIpsum.take s.tcp.received ++ s.tcp.rest := by
    have hle : min s.tcp.received s.tcp.expecting = s.tcp.received :=
      Nat.min_eq_left (Nat.le_of_lt h.received)
    have hsplit := List.take_append_drop s.tcp.received (loremIpsum.take s.tcp.expecting)
    rw [List.take_take, hle] at hsplit
    exact hsplit.symm
  rw [h.sent, h.blocks_eq, List.flatMap_append, List.flatMap_singleton, hblock, h.matched,
    List.append_assoc]

theorem Sound.goes_on_iff (h : Sound counter s) :
    (compareTcpData s.tcp bytes).2 = 0 ↔ s.matched ++ bytes <+: s.sent := by
  rw [h.sent_eq, List.prefix_append_right_inj]
  exact compareTcpData_eq_zero_iff (Nat.le_of_lt h.received) (Nat.le_of_lt h.expecting)

theorem Sound.forall_compared (h : Sound counter s) :
    ∀ c ∈ s.compared ++ (compareTcpData s.tcp bytes).1, c.start + c.len ≤ c.expecting := by
  intro c hc
  rcases List.mem_append.mp hc with hc | hc
  · exact h.compared c hc
  · exact compared_inside c hc

theorem forall_mem_concat {rets : List Int} (h : ∀ ret ∈ rets, ret = 0) {ret : Int}
    (hret : ret = 0) : ∀ ret' ∈ rets ++ [ret], ret' = 0 := by
  intro ret' hmem
  rcases List.mem_append.mp hmem with hmem | hmem
  · exact h ret' hmem
  · exact (List.mem_singleton.mp hmem).trans hret

theorem step_again (h : r.received = .again) :
    step s r = { s with returned := s.returned ++ [0] } := by
  have hbytes : r.bytes = [] := by simp [Round.bytes, h]
  simp [step, loopBody_again h, hbytes]

theorem step_refused (h : r.received = .data bytes) (hne : (compareTcpData s.tcp bytes).2 ≠ 0) :
    step s r =
      { s with
        returned := s.returned ++ [(compareTcpData s.tcp bytes).2]
        compared := s.compared ++ (compareTcpData s.tcp bytes).1
        read := s.read ++ bytes } := by
  have hbytes : r.bytes = bytes := by simp [Round.bytes, h]
  simp [step, loopBody_refused h hne, hbytes, hne]

theorem step_part (h : r.received = .data bytes) (hz : (compareTcpData s.tcp bytes).2 = 0)
    (hpart : s.tcp.received + bytes.length < s.tcp.expecting) :
    step s r =
      { s with
        tcp := { s.tcp with received := s.tcp.received + bytes.length }
        compared := s.compared ++ (compareTcpData s.tcp bytes).1
        read := s.read ++ bytes
        matched := s.matched ++ bytes } := by
  have hbytes : r.bytes = bytes := by simp [Round.bytes, h]
  simp [step, loopBody_part h hz hpart, hbytes, hz]

theorem step_last (h : r.received = .data bytes) (hz : (compareTcpData s.tcp bytes).2 = 0)
    (hlast : ¬ s.tcp.received + bytes.length < s.tcp.expecting) (hlen : randomLen r.rands ≠ 0)
    (hpos : ∀ outLen ∈ r.outLens, 0 < outLen) :
    step s r =
      { tcp := { expecting := randomLen r.rands, received := 0,
                 counter := (s.tcp.counter + 1) % 2 ^ 32 }
        returned := s.returned ++ [0]
        compared := s.compared ++ (compareTcpData s.tcp bytes).1
        sent := s.sent ++ loremIpsum.take (randomLen r.rands)
        read := s.read ++ bytes
        matched := s.matched ++ bytes
        blocks := s.blocks ++ [randomLen r.rands] } := by
  have hbytes : r.bytes = bytes := by simp [Round.bytes, h]
  have hsends := take_ne_nil hlen
  simp [step, loopBody_last h hz hlast hpos, hbytes, hz, hsends]

/-- A chunk that goes on with the block, and does not end it. -/
theorem sound_part (h : Sound counter s) (hdata : r.received = .data bytes)
    (hz : (compareTcpData s.tcp bytes).2 = 0)
    (hpart : s.tcp.received + bytes.length < s.tcp.expecting) : Sound counter (step s r) := by
  have hprefix := (compareTcpData_eq_zero_iff (Nat.le_of_lt h.received)
    (Nat.le_of_lt h.expecting)).mp hz
  have hbytes : bytes = (loremIpsum.drop s.tcp.received).take bytes.length := by
    rw [← s.tcp.take_rest (Nat.le_of_lt hpart)]
    exact List.prefix_iff_eq_take.mp hprefix
  rw [step_part hdata hz hpart]
  refine ⟨hpart, h.expecting, h.current, h.sent, ?_, h.counted, h.forall_compared, ?_, ?_⟩
  · show s.matched ++ bytes = _ ++ loremIpsum.take (s.tcp.received + bytes.length)
    rw [h.matched, List.append_assoc, List.take_add, ← hbytes]
  · simpa using h.read
  · intro hread
    exact h.returned (List.append_cancel_right hread)

/-- A chunk that ends the block. -/
theorem sound_last (h : Sound counter s) (hdata : r.received = .data bytes)
    (hz : (compareTcpData s.tcp bytes).2 = 0)
    (hlast : ¬ s.tcp.received + bytes.length < s.tcp.expecting) (hlen : randomLen r.rands ≠ 0)
    (hpos : ∀ outLen ∈ r.outLens, 0 < outLen) : Sound counter (step s r) := by
  have hprefix := (compareTcpData_eq_zero_iff (Nat.le_of_lt h.received)
    (Nat.le_of_lt h.expecting)).mp hz
  have hall : bytes = s.tcp.rest := by
    apply hprefix.eq_of_length_le
    rw [s.tcp.length_rest (Nat.le_of_lt h.expecting)]
    omega
  have hmatched : s.matched ++ bytes = s.sent := by rw [hall, h.sent_eq]
  rw [step_last hdata hz hlast hlen hpos]
  refine ⟨Nat.pos_of_ne_zero hlen, randomLen_lt _, ?_, ?_, ?_, ?_, h.forall_compared, ?_, ?_⟩
  · simp
  · simp [h.sent]
  · simp [hmatched, h.sent]
  · have hcounted := h.counted
    have hblocks : s.blocks.length = s.blocks.dropLast.length + 1 := by
      rw [h.blocks_eq]
      simp
    simp only [List.dropLast_concat]
    omega
  · simpa using h.read
  · intro hread
    exact forall_mem_concat (h.returned (List.append_cancel_right hread)) rfl

theorem sound_step (h : Sound counter s) (he : Possible s r) : Sound counter (step s r) := by
  obtain ⟨hreceived, hlen, hpos⟩ := he
  cases hkind : r.received with
  | closed => rw [hkind] at hreceived; exact hreceived.elim
  | error errno => rw [hkind] at hreceived; exact hreceived.elim
  | again =>
    rw [step_again hkind]
    exact { h with returned := fun hread => forall_mem_concat (h.returned hread) rfl }
  | data bytes =>
    rw [hkind] at hreceived
    by_cases hz : (compareTcpData s.tcp bytes).2 = 0
    · by_cases hpart : s.tcp.received + bytes.length < s.tcp.expecting
      · exact sound_part h hkind hz hpart
      · exact sound_last h hkind hz hpart hlen hpos
    · rw [step_refused hkind hz]
      have hmore : s.matched.length < (s.read ++ bytes).length := by
        have hne := List.length_pos_iff.mpr hreceived.1
        have hread := h.read
        rw [List.length_append]
        omega
      exact { h with
        compared := h.forall_compared
        read := Nat.le_of_lt hmore
        returned := fun hread => absurd (congrArg List.length hread) (Nat.ne_of_gt hmore) }

theorem judged_step (h : Sound counter s) (he : Possible s r) : Judged s r := by
  obtain ⟨hreceived, hlen, hpos⟩ := he
  cases hkind : r.received with
  | closed => rw [hkind] at hreceived; exact hreceived.elim
  | error errno => rw [hkind] at hreceived; exact hreceived.elim
  | again =>
    have hbytes : r.bytes = [] := by simp [Round.bytes, hkind]
    constructor
    · intro hread _
      rw [step_again hkind, loopBody_again hkind]
      exact ⟨hread, by simp⟩
    · intro hread hno
      refine absurd ?_ hno
      rw [hbytes, List.append_nil, hread, h.sent_eq]
      exact List.prefix_append _ _
  | data bytes =>
    have hbytes : r.bytes = bytes := by simp [Round.bytes, hkind]
    constructor
    · intro hread hprefix
      rw [hbytes, hread] at hprefix
      have hz := h.goes_on_iff.mpr hprefix
      by_cases hpart : s.tcp.received + bytes.length < s.tcp.expecting
      · rw [step_part hkind hz hpart, loopBody_part hkind hz hpart]
        exact ⟨congrArg (· ++ bytes) hread, by simp⟩
      · rw [step_last hkind hz hpart hlen hpos, loopBody_last hkind hz hpart hpos]
        exact ⟨congrArg (· ++ bytes) hread, by simp⟩
    · intro hread hno
      rw [hbytes, hread] at hno
      have hne := fun hz => hno (h.goes_on_iff.mp hz)
      rw [loopBody_refused hkind hne]
      exact ⟨_, rfl, compareTcpData_lt_zero hne⟩

/-- A round after which the call goes on has read and matched a part of the block. -/
theorem part_of_goes_on (he : Possible s r)
    (hret : (loopBody s.tcp r).ret = none) :
    ∃ bytes, r.received = .data bytes ∧ bytes ≠ [] ∧ (compareTcpData s.tcp bytes).2 = 0 ∧
      s.tcp.received + bytes.length < s.tcp.expecting := by
  obtain ⟨hreceived, _, hpos⟩ := he
  cases hkind : r.received with
  | closed => rw [hkind] at hreceived; exact hreceived.elim
  | error errno => rw [hkind] at hreceived; exact hreceived.elim
  | again =>
    rw [loopBody_again hkind] at hret
    cases hret
  | data bytes =>
    rw [hkind] at hreceived
    by_cases hz : (compareTcpData s.tcp bytes).2 = 0
    · by_cases hpart : s.tcp.received + bytes.length < s.tcp.expecting
      · exact ⟨bytes, rfl, hreceived.1, hz, hpart⟩
      · rw [loopBody_last hkind hz hpart hpos] at hret
        cases hret
    · rw [loopBody_refused hkind hz] at hret
      cases hret

/-- A call returns: every round before the last one brings it nearer to the end of the block. -/
theorem processTcpProto_returns (h : Sound counter s) {rounds : List Round}
    (he : Along step Possible s rounds)
    (hlong : s.tcp.expecting - s.tcp.received ≤ rounds.length) :
    ∃ call rest, processTcpProto s.tcp rounds = some (call, rest) := by
  induction rounds generalizing s with
  | nil =>
    have hroom := h.received
    rw [List.length_nil] at hlong
    omega
  | cons r rounds ih =>
    rw [processTcpProto]
    cases hret : (loopBody s.tcp r).ret with
    | some ret => exact ⟨_, _, rfl⟩
    | none =>
      obtain ⟨bytes, hkind, hne, hz, hpart⟩ := part_of_goes_on he.1 hret
      have hshort : (step s r).tcp.expecting - (step s r).tcp.received ≤ rounds.length := by
        have hmore := List.length_pos_iff.mpr hne
        rw [List.length_cons] at hlong
        rw [step_part hkind hz hpart]
        show s.tcp.expecting - (s.tcp.received + bytes.length) ≤ rounds.length
        omega
      obtain ⟨call, rest, hcall⟩ := ih (sound_step h he.1) he.2 hshort
      exact ⟨_, rest, by rw [show (loopBody s.tcp r).tcp = (step s r).tcp from rfl, hcall]; rfl⟩

/-- A call is the rounds it takes from the list, at least one. -/
theorem processTcpProto_eq_some_cases {rounds rest : List Round} {call : Call}
    (h : processTcpProto tcp rounds = some (call, rest)) :
    ∃ r rounds', rounds = r :: rounds' ∧
      (((loopBody tcp r).ret = some call.ret ∧ rounds' = rest ∧ call.tcp = (loopBody tcp r).tcp ∧
          call.compared = (loopBody tcp r).compared ∧ call.sent = (loopBody tcp r).sent) ∨
        ((loopBody tcp r).ret = none ∧ ∃ call', call = call'.after (loopBody tcp r) ∧
          processTcpProto (loopBody tcp r).tcp rounds' = some (call', rest))) := by
  cases rounds with
  | nil => cases h
  | cons r rounds =>
    refine ⟨r, rounds, rfl, ?_⟩
    rw [processTcpProto] at h
    cases hret : (loopBody tcp r).ret with
    | some ret =>
      simp only [hret, Option.some.injEq, Prod.mk.injEq] at h
      obtain ⟨rfl, rfl⟩ := h
      exact Or.inl ⟨rfl, rfl, rfl, rfl, rfl⟩
    | none =>
      simp only [hret, Option.map_eq_some_iff, Prod.exists, Prod.mk.injEq] at h
      obtain ⟨call', rest', hcall, rfl, rfl⟩ := h
      exact Or.inr ⟨rfl, call', rfl, hcall⟩

/-- A call is a run of rounds, of which the last one returns. -/
theorem run_processTcpProto {rounds rest : List Round} {call : Call}
    (h : processTcpProto s.tcp rounds = some (call, rest)) :
    ∃ taken, rounds = taken ++ rest ∧ (run step s taken).tcp = call.tcp ∧ Made s taken [call] := by
  induction rounds generalizing s call with
  | nil => cases h
  | cons r rounds ih =>
    obtain ⟨_, _, heq, hlast | hgoes⟩ := processTcpProto_eq_some_cases h
    · obtain ⟨rfl, rfl⟩ := List.cons.inj heq
      obtain ⟨hret, rfl, htcp, hcompared, hsent⟩ := hlast
      exact ⟨[r], rfl, htcp.symm, by simp [step, hret], by simp [step, hcompared],
        by simp [step, hsent]⟩
    · obtain ⟨rfl, rfl⟩ := List.cons.inj heq
      obtain ⟨hret, call', rfl, hcall⟩ := hgoes
      obtain ⟨taken, rfl, htcp, hmade⟩ := ih (s := step s r) hcall
      refine ⟨r :: taken, rfl, htcp, ?_, ?_, ?_⟩
      · rw [run_cons, hmade.returned]
        simp [step, hret, Call.after]
      · rw [run_cons, hmade.compared]
        simp [step, Call.after]
      · rw [run_cons, hmade.sent]
        simp [step, Call.after]

theorem Made.append {taken more : List Round} {calls others : List Call} (h : Made s taken calls)
    (hmore : Made (run step s taken) more others) : Made s (taken ++ more) (calls ++ others) := by
  constructor
  · rw [run_append, hmore.returned, h.returned, List.map_append, List.append_assoc]
  · rw [run_append, hmore.compared, h.compared, List.flatMap_append, List.append_assoc]
  · rw [run_append, hmore.sent, h.sent, List.flatMap_append, List.append_assoc]

/-- Calls are a run of rounds. -/
theorem run_calls {rounds rest : List Round} {calls : List Call}
    (h : Calls s.tcp rounds calls rest) : ∃ taken, rounds = taken ++ rest ∧ Made s taken calls := by
  induction calls generalizing s rounds with
  | nil =>
    cases h
    exact ⟨[], rfl, by simp, by simp, by simp⟩
  | cons call calls ih =>
    obtain _ | ⟨hfirst, hothers⟩ := h
    obtain ⟨taken, rfl, htcp, hmade⟩ := run_processTcpProto hfirst
    rw [← htcp] at hothers
    obtain ⟨more, rfl, hmore⟩ := ih hothers
    exact ⟨taken ++ more, by rw [List.append_assoc], hmade.append hmore⟩

/-- The verdict of a call is that of its rounds, all but the last of which have matched. -/
theorem Sound.verdict (h : Sound counter s) {taken rest : List Round} {call : Call}
    (he : Along step Possible s (taken ++ rest))
    (hcall : processTcpProto s.tcp (taken ++ rest) = some (call, rest)) : Verdict s taken call := by
  induction taken generalizing s call with
  | nil =>
    obtain ⟨taken, heq, _, hmade⟩ := run_processTcpProto hcall
    have hempty : taken = [] := by simpa using heq
    have hreturned := hmade.returned
    rw [hempty] at hreturned
    simp at hreturned
  | cons r taken ih =>
    have hjudged := judged_step h he.1
    obtain ⟨_, _, heq, hlast | hgoes⟩ := processTcpProto_eq_some_cases hcall
    · obtain ⟨rfl, rfl⟩ := List.cons.inj heq
      obtain ⟨hret, hrest, _⟩ := hlast
      have hempty : taken = [] := by simpa using hrest
      subst hempty
      refine ⟨fun hread hprefix => ?_, fun hread hno => ?_, fun hread => ⟨[], r, rfl, ?_⟩⟩
      · exact (hjudged.accepts hread (by simpa using hprefix)).2 _ hret
      · obtain ⟨ret, hmem, hneg⟩ := hjudged.refuses hread (by simpa using hno)
        rw [Option.mem_def, hret] at hmem
        rw [Option.some.inj hmem]
        exact hneg
      · rw [List.flatMap_nil, List.append_nil, hread, h.sent_eq]
        exact List.prefix_append _ _
    · obtain ⟨rfl, rfl⟩ := List.cons.inj heq
      obtain ⟨hret, call', rfl, hcall'⟩ := hgoes
      obtain ⟨bytes, hkind, _, hz, hpart⟩ := part_of_goes_on he.1 hret
      have hverdict := ih (s := step s r) (sound_step h he.1) he.2 hcall'
      have hbytes : r.bytes = bytes := by simp [Round.bytes, hkind]
      have hstep := step_part hkind hz hpart
      have hkeeps (hread : s.read = s.matched) : (step s r).read = (step s r).matched := by
        rw [hstep]
        exact congrArg (· ++ bytes) hread
      have hreads (rounds : List Round) : (step s r).read ++ rounds.flatMap Round.bytes =
          s.read ++ (r :: rounds).flatMap Round.bytes := by
        rw [hstep, List.flatMap_cons, hbytes, List.append_assoc]
      have hsent : (step s r).sent = s.sent := by rw [hstep]
      refine ⟨fun hread hprefix => ?_, fun hread hno => ?_, fun hread => ?_⟩
      · rw [← hreads, ← hsent] at hprefix
        exact hverdict.accepts (hkeeps hread) hprefix
      · rw [← hreads, ← hsent] at hno
        exact hverdict.refuses (hkeeps hread) hno
      · obtain ⟨before, last, rfl, hbefore⟩ := hverdict.last (hkeeps hread)
        rw [hreads, hsent] at hbefore
        exact ⟨r :: before, last, rfl, hbefore⟩

/-- Every connection, for any number of calls, blocks and chunks. -/
theorem tcp_echo_verified {len : Nat} (hpos : 0 < len) (hlen : len < ipsumLen)
    {rounds : List Round} (he : Along step Possible (connected counter len) rounds) :
    Always step (Sound counter) (connected counter len) rounds ∧
      Along step Judged (connected counter len) rounds ∧
      (∀ calls rest, Calls (connected counter len).tcp rounds calls rest →
        ∃ taken, rounds = taken ++ rest ∧ Made (connected counter len) taken calls) ∧
      ∀ more, Along step Possible (run step (connected counter len) rounds) more →
        ipsumLen ≤ more.length →
        ∃ call taken rest, more = taken ++ rest ∧
          processTcpProto (run step (connected counter len) rounds).tcp more = some (call, rest) ∧
          (run step (connected counter len) (rounds ++ taken)).tcp = call.tcp ∧
          Made (run step (connected counter len) rounds) taken [call] ∧
          Verdict (run step (connected counter len) rounds) taken call := by
  have hstart : Sound counter (connected counter len) := sound_connected hpos hlen
  have hend : Sound counter (run step (connected counter len) rounds) :=
    Along.invariant step (fun _ _ h he => sound_step h he) hstart he
  refine ⟨?_, ?_, fun calls rest hcalls => run_calls hcalls, fun more hmore hlong => ?_⟩
  · exact Along.always_of_invariant step (fun _ _ h he => sound_step h he) (fun _ h => h) hstart he
  · exact Along.imp_of_invariant step
      (fun _ _ h he => ⟨sound_step h he, judged_step h he⟩) hstart he
  · have hblock := hend.expecting
    obtain ⟨call, rest, hcall⟩ := processTcpProto_returns hend hmore (by omega)
    obtain ⟨taken, rfl, htcp, hmade⟩ := run_processTcpProto hcall
    rw [← run_append] at htcp
    exact ⟨call, taken, rest, rfl, hcall, htcp, hmade, hend.verdict hmore hcall⟩

/-- The echo of a block of three bytes in two chunks. -/
def twoChunks : List Round :=
  [⟨.data [0x4c], [7], []⟩, ⟨.again, [7], []⟩, ⟨.data [0x6f, 0x72], [7], [2]⟩]

/-- Its two calls: the first one has to wait, the second one sends the next block. -/
def twoCalls : List Call :=
  [{ tcp := ⟨3, 1, 0⟩, compared := [⟨0, 1, 3⟩], sent := [], ret := 0 },
    { tcp := ⟨7, 0, 1⟩, compared := [⟨1, 2, 3⟩], sent := loremIpsum.take 7, ret := 0 }]

theorem tcp_echo_verified_twoChunks :
    (0 < 3 ∧ 3 < ipsumLen ∧ Along step Possible (connected 0 3) twoChunks) ∧
      Calls (connected 0 3).tcp twoChunks twoCalls [] ∧
      (∃ taken, twoChunks = taken ++ [] ∧ Made (connected 0 3) taken twoCalls) ∧
      Sound 0 (run step (connected 0 3) twoChunks) := by
  have hlen : 3 < ipsumLen := by rw [ipsumLen_eq]; decide
  have hrun : Along step Possible (connected 0 3) twoChunks := by decide +kernel
  have hfirst : processTcpProto (connected 0 3).tcp twoChunks =
      some (⟨⟨3, 1, 0⟩, [⟨0, 1, 3⟩], [], 0⟩, twoChunks.drop 2) := by
    decide +kernel
  have hcalls : Calls (connected 0 3).tcp twoChunks twoCalls [] :=
    .next hfirst (.next (by decide +kernel) .none)
  have hverified := @tcp_echo_verified 0 3 (by decide) hlen twoChunks hrun
  exact ⟨⟨by decide, hlen, hrun⟩, hcalls, hverified.2.2.1 twoCalls [] hcalls, hverified.1.last⟩

end TcpVerify
end EchoClient
end ZephyrSamples
