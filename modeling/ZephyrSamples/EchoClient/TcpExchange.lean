import ZephyrSamples.EchoClient.TcpVerify
import ZephyrSamples.EchoServer.HandleData
import ZephyrSamples.Lib.Stream
import ZephyrSamples.Lib.Work

/-!
# The echo client and the echo server

The loop of `process_tcp_proto` at one end of a connection and that of `handle_data` at the other.
Bytes are on their way for any time in both directions and arrive in any portions, also between the
server's `recv` and its peek, and both programs read what has arrived in any portions.  The server
postpones its reply only while it is sure of more to read, so that the two never wait for each
other.
-/

namespace ZephyrSamples
namespace EchoClient
namespace TcpExchange

open Runs Lib Sockets TcpVerify

/-- The two ends, and what is between them. -/
structure Connection where
  client : TcpVerify.Session
  server : EchoServer.Handler
  toServer : Stream Byte
  toClient : Stream Byte
  deriving DecidableEq

/-- The client has sent a block of length `len`. -/
def connect (counter len : Nat) (sock : Int) : Connection where
  client := connected counter len
  server := EchoServer.start sock []
  toServer := { transit := loremIpsum.take len }
  toClient := {}

/-- Bytes arrive, or one of the two loops goes round.  There `recv` gives at most `len` bytes, and
`more` bytes arrive before the server's peek. -/
inductive Event where
  | reachServer (n : Nat)
  | reachClient (n : Nat)
  | serve (len more : Nat) (outLens : List Int)
  | verify (len : Nat) (rands : List Nat) (outLens : List Int)
  deriving DecidableEq, Repr

namespace Connection

variable (c : Connection)

/-- The server, with what it has not read yet. -/
def heard : EchoServer.Handler := { c.server with unread := c.toServer.content }

/-- What the server's `recv` gives. -/
def request (len : Nat) : List Byte :=
  c.toServer.arrived.take (min len (EchoServer.recvBufferSize - c.server.offset))

/-- What is to be read when the server makes its peek. -/
def left (len more : Nat) : Stream Byte :=
  (c.toServer.read (c.request len).length).arrive more

def serveRound (len more : Nat) (outLens : List Int) : EchoServer.Round where
  received := .data (c.request len)
  peek := if (c.left len more).arrived = [] then .again else .data
  outLens := outLens

/-- A round of `handle_data`, or the wait of its `recv`. -/
def serve (len more : Nat) (outLens : List Int) : Connection :=
  if c.toServer.arrived = [] then c
  else
    let server := EchoServer.step false c.heard (c.serveRound len more outLens)
    { c with
      server := server
      toServer := c.left len more
      toClient := c.toClient.send (server.sent.drop c.server.sent.length) }

def verifyRound (len : Nat) (rands : List Nat) (outLens : List Int) : TcpVerify.Round where
  received := if c.toClient.arrived = [] then .again else .data (c.toClient.arrived.take len)
  rands := rands
  outLens := outLens

/-- A round of `process_tcp_proto`. -/
def verify (len : Nat) (rands : List Nat) (outLens : List Int) : Connection :=
  let client := TcpVerify.step c.client (c.verifyRound len rands outLens)
  { c with
    client := client
    toClient := c.toClient.read len
    toServer := c.toServer.send (client.sent.drop c.client.sent.length) }

end Connection

def step (c : Connection) : Event → Connection
  | .reachServer n => { c with toServer := c.toServer.arrive n }
  | .reachClient n => { c with toClient := c.toClient.arrive n }
  | .serve len more outLens => c.serve len more outLens
  | .verify len rands outLens => c.verify len rands outLens

/-- `recv` is asked for what there is room for in the client's buffer, and is free to give less; the
random numbers are enough for a length, and `send` takes any part of the block. -/
def Possible (_ : Connection) : Event → Prop
  | .reachServer _ => True
  | .reachClient _ => True
  | .serve len _ outLens => 0 < len ∧ ∀ outLen ∈ outLens, 0 < outLen
  | .verify len rands outLens =>
    0 < len ∧ len ≤ recvBufSize ∧ randomLen rands ≠ 0 ∧ ∀ outLen ∈ outLens, 0 < outLen

/-- Some byte arrives or is read. -/
def Moves (c : Connection) : Event → Prop
  | .reachServer n => 0 < n ∧ c.toServer.transit ≠ []
  | .reachClient n => 0 < n ∧ c.toClient.transit ≠ []
  | .serve _ _ _ => c.toServer.arrived ≠ []
  | .verify _ _ _ => c.toClient.arrived ≠ []

instance (c : Connection) : ∀ e, Decidable (Possible c e)
  | .reachServer _ => inferInstanceAs (Decidable True)
  | .reachClient _ => inferInstanceAs (Decidable True)
  | .serve _ _ _ => inferInstanceAs (Decidable (_ ∧ _))
  | .verify _ _ _ => inferInstanceAs (Decidable (_ ∧ _ ∧ _ ∧ _))

instance (c : Connection) : ∀ e, Decidable (Moves c e)
  | .reachServer _ => inferInstanceAs (Decidable (_ ∧ _))
  | .reachClient _ => inferInstanceAs (Decidable (_ ∧ _))
  | .serve _ _ _ => inferInstanceAs (Decidable (_ ≠ _))
  | .verify _ _ _ => inferInstanceAs (Decidable (_ ≠ _))

/-- Neither loop has met anything it did not expect; what was sent has been matched, is on its way
back, is postponed, or is on its way to the server, in this order; and something is postponed only
if there is something to read. -/
structure Inv (counter : Nat) (c : Connection) : Prop where
  client : Sound counter c.client
  matched : c.client.read = c.client.matched
  server : EchoServer.Inv c.client.sent c.heard
  running : c.server.exit = none
  replied : c.server.sent = c.client.matched ++ c.toClient.content
  postponed : 0 < c.server.offset → c.toServer.arrived ≠ []

variable {c : Connection} {counter : Nat}

theorem inv_connect {len : Nat} (hpos : 0 < len) (hlen : len < ipsumLen) (sock : Int) :
    Inv counter (connect counter len sock) where
  client := sound_connected hpos hlen
  matched := rfl
  server := EchoServer.inv_start sock
  running := rfl
  replied := rfl
  postponed h := absurd h (Nat.lt_irrefl 0)

theorem Inv.sent_eq (h : Inv counter c) :
    c.client.sent = c.client.matched ++ c.toClient.content ++ c.server.postponed ++
      c.toServer.content := by
  rw [← h.replied]
  exact (h.server.running h.running).symm

/-- The rest of the block is all there is between the two. -/
theorem Inv.rest_eq (h : Inv counter c) :
    c.client.tcp.rest = c.toClient.content ++ c.server.postponed ++ c.toServer.content := by
  have hsent := h.sent_eq
  rw [h.client.sent_eq, List.append_assoc, List.append_assoc] at hsent
  rw [List.append_cancel_left hsent, List.append_assoc]

theorem Inv.length_postponed (h : Inv counter c) :
    c.server.postponed.length = c.server.offset := by
  have hlength : c.server.recvBuffer.length = EchoServer.recvBufferSize := h.server.length
  have hroom : c.server.offset < EchoServer.recvBufferSize := h.server.room
  rw [EchoServer.Handler.postponed, List.length_take]
  omega

theorem prefix_reply {s : EchoServer.Handler} {outLens : List Int} :
    s.sent <+: (s.reply outLens).sent := by
  simp only [EchoServer.Handler.reply]
  split <;> exact List.prefix_append _ _

/-- What the server has sent stays sent. -/
theorem prefix_step {s : EchoServer.Handler} {r : EchoServer.Round} :
    s.sent <+: (EchoServer.step false s r).sent := by
  unfold EchoServer.step
  split
  · exact List.prefix_rfl
  · cases r.received with
    | closed => exact List.prefix_rfl
    | error => exact List.prefix_rfl
    | data bytes =>
      show s.sent <+: (if _ then _ else if _ then _ else _ : EchoServer.Handler).sent
      split
      · exact prefix_reply (s := s.request.store bytes)
      · split
        · exact prefix_reply (s := (s.request.store bytes).request)
        · exact List.prefix_rfl

section Serve

variable {len more : Nat} {outLens : List Int}

/-- The server's `recv` gives the next bytes of the stream, as far as there is room. -/
theorem Inv.request_spec (h : Inv counter c) (harrived : c.toServer.arrived ≠ []) (hlen : 0 < len) :
    c.request len ≠ [] ∧ c.server.offset + (c.request len).length ≤ EchoServer.recvBufferSize ∧
      (c.request len).length ≤ c.toServer.arrived.length ∧
      c.request len <+: c.toServer.content := by
  have hroom : c.server.offset < EchoServer.recvBufferSize := h.server.room
  have hpos := List.length_pos_iff.mpr harrived
  have hcount : (c.request len).length =
      min (min len (EchoServer.recvBufferSize - c.server.offset)) c.toServer.arrived.length :=
    List.length_take
  refine ⟨?_, by omega, by omega, ?_⟩
  · apply List.length_pos_iff.mp
    omega
  · exact (List.take_prefix _ _).trans (List.prefix_append _ _)

theorem Inv.content_left (h : Inv counter c) (harrived : c.toServer.arrived ≠ []) (hlen : 0 < len) :
    (c.left len more).content = c.toServer.content.drop (c.request len).length := by
  obtain ⟨-, -, hle, -⟩ := h.request_spec harrived hlen
  rw [Connection.left, Stream.content_arrive, Stream.content_read _ hle]

theorem Inv.possible_serve (h : Inv counter c) (harrived : c.toServer.arrived ≠ [])
    (he : Possible c (.serve len more outLens)) :
    EchoServer.Possible false c.heard (c.serveRound len more outLens) := by
  intro _
  obtain ⟨hne, hfits, -, hprefix⟩ := h.request_spec harrived he.1
  refine ⟨he.2, hne, hfits, hprefix, fun _ => ?_⟩
  show EchoServer.PeekPossible (c.toServer.content.drop (c.request len).length)
    (if (c.left len more).arrived = [] then .again else .data)
  split
  · trivial
  · rename_i hmore
    rw [← h.content_left harrived he.1]
    exact fun hnil => hmore (List.append_eq_nil_iff.mp hnil).1

theorem serve_of_arrived (harrived : c.toServer.arrived ≠ []) :
    c.serve len more outLens =
      { c with
        server := EchoServer.step false c.heard (c.serveRound len more outLens)
        toServer := c.left len more
        toClient := c.toClient.send
          ((EchoServer.step false c.heard (c.serveRound len more outLens)).sent.drop
            c.server.sent.length) } :=
  if_neg harrived

theorem Inv.serve (h : Inv counter c) (he : Possible c (.serve len more outLens)) :
    Inv counter (c.serve len more outLens) := by
  by_cases harrived : c.toServer.arrived = []
  · rwa [Connection.serve, if_pos harrived]
  obtain ⟨hinv, hruns, hunread, hoffset⟩ :=
    EchoServer.step_data h.server h.running (h.possible_serve harrived he) rfl
  obtain ⟨replied, hreplied⟩ := prefix_step (s := c.heard) (r := c.serveRound len more outLens)
  have hstart : c.heard.sent = c.server.sent := rfl
  rw [hstart] at hreplied
  rw [serve_of_arrived harrived]
  refine ⟨h.client, h.matched, ?_, hruns, ?_, fun hpos => ?_⟩
  · have hsame : { EchoServer.step false c.heard (c.serveRound len more outLens) with
        unread := (c.left len more).content } =
          EchoServer.step false c.heard (c.serveRound len more outLens) := by
      rw [h.content_left harrived he.1]
      exact congrArg (fun unread => { EchoServer.step false c.heard _ with unread := unread })
        hunread.symm
    exact hsame ▸ hinv
  · show (EchoServer.step false c.heard _).sent = _ ++ (c.toClient.send _).content
    rw [Stream.content_send, ← hreplied, List.drop_left, h.replied, List.append_assoc]
  · -- Nothing is postponed when the peek gives EAGAIN.
    show (c.left len more).arrived ≠ []
    intro hnil
    have hpeek : (c.serveRound len more outLens).peek = .again := if_pos hnil
    rw [if_neg fun hpeeks => hpeeks.2 hpeek] at hoffset
    exact absurd hoffset (Nat.ne_of_gt hpos)

end Serve

section Verify

variable {len : Nat} {rands : List Nat} {outLens : List Int}

theorem verifyRound_bytes :
    (c.verifyRound len rands outLens).bytes = c.toClient.arrived.take len := by
  unfold Connection.verifyRound TcpVerify.Round.bytes
  by_cases harrived : c.toClient.arrived = []
  · simp [harrived]
  · simp [harrived]

theorem possible_verify (he : Possible c (.verify len rands outLens)) :
    TcpVerify.Possible c.client (c.verifyRound len rands outLens) := by
  obtain ⟨hpos, hsize, hlen, hout⟩ := he
  refine ⟨?_, hlen, hout⟩
  by_cases harrived : c.toClient.arrived = []
  · have hagain : (c.verifyRound len rands outLens).received = .again := if_pos harrived
    rw [hagain]
    trivial
  · have hdata : (c.verifyRound len rands outLens).received = .data (c.toClient.arrived.take len) :=
      if_neg harrived
    have hsome := List.length_pos_iff.mpr harrived
    rw [hdata]
    refine ⟨?_, ?_⟩
    · apply List.length_pos_iff.mp
      rw [List.length_take]
      omega
    · rw [List.length_take]
      omega

/-- Which bytes are still to come is nothing the server knows. -/
theorem inv_more {stream xs : List Byte} {s : EchoServer.Handler} (h : EchoServer.Inv stream s)
    (hexit : s.exit = none) :
    EchoServer.Inv (stream ++ xs) { s with unread := s.unread ++ xs } where
  length := h.length
  room := h.room
  requests := h.requests
  running _ := by
    show s.sent ++ s.postponed ++ (s.unread ++ xs) = stream ++ xs
    rw [← List.append_assoc, h.running hexit]
  closed hclosed := nomatch hexit.symm.trans hclosed

/-- The client's `recv` gives the next bytes of its own stream, and they match. -/
theorem Inv.judged (h : Inv counter c) (he : Possible c (.verify len rands outLens)) :
    (TcpVerify.step c.client (c.verifyRound len rands outLens)).matched =
        c.client.matched ++ c.toClient.arrived.take len ∧
      (TcpVerify.step c.client (c.verifyRound len rands outLens)).read =
        (TcpVerify.step c.client (c.verifyRound len rands outLens)).matched := by
  have hprefix : c.client.read ++ (c.verifyRound len rands outLens).bytes <+: c.client.sent := by
    rw [verifyRound_bytes, h.matched, h.sent_eq, List.append_assoc, List.append_assoc,
      List.prefix_append_right_inj]
    exact ((List.take_prefix _ _).trans (List.prefix_append _ _)).trans (List.prefix_append _ _)
  obtain ⟨hread, -⟩ := (judged_step h.client (possible_verify he)).accepts h.matched hprefix
  refine ⟨hread.symm.trans ?_, hread⟩
  show c.client.read ++ (c.verifyRound len rands outLens).bytes = _
  rw [verifyRound_bytes, h.matched]

theorem Inv.verify (h : Inv counter c) (he : Possible c (.verify len rands outLens)) :
    Inv counter (c.verify len rands outLens) := by
  obtain ⟨hmatched, hread⟩ := h.judged he
  refine ⟨sound_step h.client (possible_verify he), hread, ?_, h.running, ?_, h.postponed⟩
  · show EchoServer.Inv (c.client.sent ++ _)
      { c.server with unread := (c.toServer.send ((c.client.sent ++ _).drop _)).content }
    rw [List.drop_left, Stream.content_send]
    exact inv_more h.server h.running
  · show c.server.sent = (TcpVerify.step c.client _).matched ++ (c.toClient.read len).content
    rw [hmatched, h.replied, List.append_assoc, Stream.take_arrived_append]

end Verify

theorem Inv.step {e : Event} (h : Inv counter c) (he : Possible c e) :
    Inv counter (step c e) := by
  cases e with
  | reachServer n =>
    have hsame : { c with toServer := c.toServer.arrive n }.heard = c.heard := by
      show { c.server with unread := (c.toServer.arrive n).content } = _
      rw [Stream.content_arrive]
      rfl
    refine ⟨h.client, h.matched, ?_, h.running, h.replied, fun hpos => ?_⟩
    · exact hsame.symm ▸ h.server
    · exact Stream.arrived_arrive_ne_nil _ _ (h.postponed hpos)
  | reachClient n =>
    refine ⟨h.client, h.matched, h.server, h.running, ?_, h.postponed⟩
    show c.server.sent = c.client.matched ++ (c.toClient.arrive n).content
    rw [Stream.content_arrive]
    exact h.replied
  | serve len more outLens => exact h.serve he
  | verify len rands outLens => exact h.verify he

/-- There is always some byte that can arrive or be read. -/
theorem Inv.exists_moves (h : Inv counter c) : ∃ e, Possible c e ∧ Moves c e := by
  have hrest : c.client.tcp.rest ≠ [] := by
    have hlt := h.client.received
    apply List.length_pos_iff.mp
    rw [Tcp.length_rest (Nat.le_of_lt h.client.expecting)]
    omega
  have hserve (harrived : c.toServer.arrived ≠ []) : ∃ e, Possible c e ∧ Moves c e :=
    ⟨.serve 1 0 [], ⟨Nat.one_pos, fun _ h => nomatch h⟩, harrived⟩
  by_cases hpostponed : 0 < c.server.offset
  · exact hserve (h.postponed hpostponed)
  have hnone : c.server.postponed = [] := by
    apply List.length_eq_zero_iff.mp
    rw [h.length_postponed]
    omega
  rw [h.rest_eq, hnone, List.append_nil] at hrest
  by_cases harrived : c.toServer.arrived = []
  · by_cases htransit : c.toServer.transit = []
    · rw [Stream.content, Stream.content, harrived, htransit, List.append_nil, List.append_nil]
        at hrest
      by_cases hback : c.toClient.transit = []
      · rw [hback, List.append_nil] at hrest
        refine ⟨.verify 1 [1] [], ⟨Nat.one_pos, by decide, ?_, fun _ h => nomatch h⟩, hrest⟩
        rw [randomLen, ipsumLen_eq]
        decide
      · exact ⟨.reachClient 1, trivial, Nat.one_pos, hback⟩
    · exact ⟨.reachServer 1, trivial, Nat.one_pos, htransit⟩
  · exact hserve harrived

/-- How often the bytes between the two can still move, twice that for those the server has yet to
send back. -/
def Connection.reserve (c : Connection) : Nat :=
  4 * c.toServer.transit.length + 3 * c.toServer.arrived.length +
    2 * (c.server.offset + c.toClient.transit.length) + c.toClient.arrived.length

/-- Each byte of a block pays for its whole way. -/
def Connection.account (c : Connection) : Nat := 4 * c.client.sent.length

theorem Inv.length_sent (h : Inv counter c) :
    c.client.sent.length = c.server.sent.length + c.server.offset +
      (c.toServer.arrived.length + c.toServer.transit.length) := by
  have hlength := congrArg List.length h.sent_eq
  rw [← h.replied, List.length_append, List.length_append, h.length_postponed,
    Stream.length_content] at hlength
  exact hlength

theorem Inv.pays_serve {len more : Nat} {outLens : List Int} (h : Inv counter c)
    (he : Possible c (.serve len more outLens)) (harrived : c.toServer.arrived ≠ []) :
    1 + (c.serve len more outLens).reserve + c.account ≤
      c.reserve + (c.serve len more outLens).account := by
  have hbefore := h.length_sent
  have hafter := (h.serve he).length_sent
  obtain ⟨hne, -, hle, -⟩ := h.request_spec harrived he.1
  have hpos := List.length_pos_iff.mpr hne
  have hmore := (c.toServer.read (c.request len).length).length_arrive more
  have hkept := (prefix_step (s := c.heard) (r := c.serveRound len more outLens)).length_le
  have hread : (c.toServer.read (c.request len).length).arrived.length =
      c.toServer.arrived.length - (c.request len).length := List.length_drop
  rw [serve_of_arrived harrived] at hafter ⊢
  simp only [Connection.reserve, Connection.account, Stream.send_transit, Stream.send_arrived,
    List.length_append, List.length_drop, Connection.left, Stream.read_transit, hread]
    at hafter hmore ⊢
  have hstart : c.heard.sent = c.server.sent := rfl
  rw [hstart] at hkept
  omega

theorem pays_verify {len : Nat} {rands : List Nat} {outLens : List Int}
    (he : Possible c (.verify len rands outLens)) :
    (if c.toClient.arrived ≠ [] then 1 else 0) + (c.verify len rands outLens).reserve + c.account ≤
      c.reserve + (c.verify len rands outLens).account := by
  have hpos := he.1
  have hfalls : (if c.toClient.arrived ≠ [] then 1 else 0) + (c.toClient.arrived.length - len) ≤
      c.toClient.arrived.length := by
    split
    · rename_i harrived
      have hsome := List.length_pos_iff.mpr harrived
      omega
    · omega
  have hsends : ((c.verify len rands outLens).client.sent.drop c.client.sent.length).length =
      (c.verify len rands outLens).client.sent.length - c.client.sent.length := List.length_drop
  have hkept : c.client.sent.length ≤ (c.verify len rands outLens).client.sent.length :=
    (List.prefix_append _ _).length_le
  have harrived : (c.verify len rands outLens).toClient.arrived.length =
      c.toClient.arrived.length - len := List.length_drop
  have htransit : (c.verify len rands outLens).toServer.transit =
    c.toServer.transit ++ (c.verify len rands outLens).client.sent.drop c.client.sent.length := rfl
  have hothers : (c.verify len rands outLens).toServer.arrived = c.toServer.arrived ∧
      (c.verify len rands outLens).toClient.transit = c.toClient.transit ∧
      (c.verify len rands outLens).server = c.server := ⟨rfl, rfl, rfl⟩
  rw [Connection.reserve, Connection.reserve, Connection.account, Connection.account, hothers.1,
    hothers.2.1, hothers.2.2, htransit, harrived, List.length_append, hsends]
  omega

theorem Inv.pays {e : Event} (h : Inv counter c) (he : Possible c e) :
    (if Moves c e then 1 else 0) + (TcpExchange.step c e).reserve + c.account ≤
      c.reserve + (TcpExchange.step c e).account := by
  cases e with
  | reachServer n =>
    obtain ⟨harrived, htransit⟩ := c.toServer.length_arrive n
    show (if 0 < n ∧ c.toServer.transit ≠ [] then 1 else 0) +
      (4 * (c.toServer.arrive n).transit.length + 3 * (c.toServer.arrive n).arrived.length +
        2 * (c.server.offset + c.toClient.transit.length) + c.toClient.arrived.length) +
      c.account ≤ c.reserve + c.account
    rw [harrived, htransit, Connection.reserve]
    split
    · rename_i hmoves
      have hsome := List.length_pos_iff.mpr hmoves.2
      omega
    · omega
  | reachClient n =>
    obtain ⟨harrived, htransit⟩ := c.toClient.length_arrive n
    show (if 0 < n ∧ c.toClient.transit ≠ [] then 1 else 0) +
      (4 * c.toServer.transit.length + 3 * c.toServer.arrived.length +
        2 * (c.server.offset + (c.toClient.arrive n).transit.length) +
        (c.toClient.arrive n).arrived.length) + c.account ≤ c.reserve + c.account
    rw [harrived, htransit, Connection.reserve]
    split
    · rename_i hmoves
      have hsome := List.length_pos_iff.mpr hmoves.2
      omega
    · omega
  | serve len more outLens =>
    by_cases harrived : c.toServer.arrived = []
    · have hwaits : TcpExchange.step c (.serve len more outLens) = c := if_pos harrived
      have hno : ¬ Moves c (.serve len more outLens) := fun hmoves => hmoves harrived
      rw [hwaits, if_neg hno]
      omega
    · have hmoves : Moves c (.serve len more outLens) := harrived
      rw [if_pos hmoves]
      exact h.pays_serve he harrived
  | verify len rands outLens => exact pays_verify he

theorem length_blocks_le (blocks : List Nat) :
    (blocks.flatMap loremIpsum.take).length ≤ ipsumLen * blocks.length := by
  induction blocks with
  | nil => exact Nat.zero_le _
  | cons len blocks ih =>
    have hblock : (loremIpsum.take len).length ≤ ipsumLen := List.length_take_le' _ _
    rw [List.flatMap_cons, List.length_append, List.length_cons, Nat.mul_succ]
    omega

/-- In every run neither of the two programs meets an error, however the bytes come in and are read:
what was sent has been echoed and matched but for less than a block, which is on its way, some byte
can always go on, and blocks go on to be sent as bytes do. -/
theorem exchange_goes_on {len : Nat} (hpos : 0 < len) (hlen : len < ipsumLen) (sock : Int)
    {es : List Event} (h : Along step Possible (connect counter len sock) es) :
    let c := run step (connect counter len sock) es
    (∀ ret ∈ c.client.returned, ret = 0) ∧ c.server.exit = none ∧
    c.client.sent = c.client.matched ++
      (c.toClient.content ++ c.server.postponed ++ c.toServer.content) ∧
    (c.toClient.content ++ c.server.postponed ++ c.toServer.content).length < ipsumLen ∧
    (∃ e, Possible c e ∧ Moves c e) ∧
    worked step Moves (connect counter len sock) es ≤ 4 * ipsumLen * c.client.blocks.length := by
  intro c
  have hstart : Inv counter (connect counter len sock) := inv_connect hpos hlen sock
  have hinv : Inv counter c := Along.invariant step (fun _ _ hc he => hc.step he) hstart h
  have hworked := worked_le step Moves (fun _ _ hc he => hc.step he) (fun _ _ hc he => hc.pays he)
    hstart h
  refine ⟨hinv.client.returned hinv.matched, hinv.running, ?_, ?_, hinv.exists_moves, ?_⟩
  · rw [← hinv.rest_eq]
    exact hinv.client.sent_eq
  · rw [← hinv.rest_eq, Tcp.length_rest (Nat.le_of_lt hinv.client.expecting)]
    exact Nat.lt_of_le_of_lt (Nat.sub_le _ _) hinv.client.expecting
  · have hblocks := Nat.mul_le_mul_left 4 (length_blocks_le c.client.blocks)
    rw [← hinv.client.sent] at hblocks
    have hfirst : (connect counter len sock).reserve = (connect counter len sock).account := by
      show 4 * (loremIpsum.take len).length + 3 * 0 + 2 * (0 + 0) + 0 =
        4 * (loremIpsum.take len).length
      omega
    have hlast : c.account ≤ 4 * (ipsumLen * c.client.blocks.length) := hblocks
    rw [Nat.mul_assoc]
    have hend : (run step (connect counter len sock) es).account = c.account := rfl
    omega

/-- A block of three bytes: two of them are read together, the last one arrives before the peek. -/
def threeBytes : List Event :=
  [.reachServer 2, .serve 2 1 [], .serve 128 0 [1, 2], .reachClient 1, .verify 128 [7] [],
    .reachClient 5, .verify 128 [ipsumLen, 2] [1]]

theorem exchange_goes_on_three : Along step Possible (connect 0 3 4) threeBytes ∧
    let c := run step (connect 0 3 4) threeBytes
    (∀ ret ∈ c.client.returned, ret = 0) ∧ c.server.exit = none ∧
    c.client.sent = c.client.matched ++
      (c.toClient.content ++ c.server.postponed ++ c.toServer.content) ∧
    (c.toClient.content ++ c.server.postponed ++ c.toServer.content).length < ipsumLen ∧
    (∃ e, Possible c e ∧ Moves c e) ∧
    worked step Moves (connect 0 3 4) threeBytes ≤ 4 * ipsumLen * c.client.blocks.length := by
  have hpossible : Along step Possible (connect 0 3 4) threeBytes := by decide +kernel
  exact ⟨hpossible, exchange_goes_on (by decide) (by decide +kernel) 4 hpossible⟩

end TcpExchange
end EchoClient
end ZephyrSamples
