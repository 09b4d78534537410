import ZephyrSamples.Lib.Memory
import ZephyrSamples.Lib.Runs
import ZephyrSamples.Wpanusb.Requests

/-!
# The radio behind USB

The vendor handler puts a packet for each request that it accepts into `tx_queue`, `tx_thread` takes
them out, and `net_recv_data` passes the radio's frames on, in any order.  The executed requests and
the queued ones are always the accepted ones; a run keeps them on their own bytes exactly as long as
every packet that is taken out fits.
-/

namespace ZephyrSamples
namespace Wpanusb

open Memory Runs

/-! ## Received frames -/

/-- `IEEE802154_MTU` -/
def ieee802154Mtu : Nat := 127

/-- `sizeof(tx_buf)` -/
def txBufSize : Nat := ieee802154Mtu + 1 + 1

/-- `ENOMEM` -/
def enomem : Int := 12

/-- Bytes stored in `tx_buf`. -/
structure Store where
  offset : Nat
  bytes : List UInt8

/-- A packet of the network stack with its LQI, what `net_pkt_read` returns for it and how many
bytes it copies if it fails, and what `usb_transfer_sync` returns. -/
structure Received where
  frame : List UInt8
  lqi : UInt8
  readRet : Int
  copied : Nat
  usbRet : Int

/-- One call of `net_recv_data`: what it stores, sends and returns. -/
structure Reception where
  packet : Received
  stores : List Store
  sent : Option (List UInt8)
  ret : Int

def netRecvData (txBuf : List UInt8) (packet : Received) : Reception × List UInt8 :=
  let len := packet.frame.length
  if txBufSize - 2 < len then
    ({ packet := packet, stores := [], sent := none, ret := -enomem }, txBuf)
  else
    -- Add length 1 byte
    let length : Store := ⟨0, [UInt8.ofNat len]⟩
    let txBuf := overwrite txBuf 0 length.bytes
    if packet.readRet < 0 then
      let part : Store := ⟨1, packet.frame.take packet.copied⟩
      ({ packet := packet, stores := [length, part], sent := none, ret := packet.readRet },
        overwrite txBuf 1 part.bytes)
    else
      let frame : Store := ⟨1, packet.frame⟩
      let txBuf := overwrite txBuf 1 frame.bytes
      -- Add LQI at the end of the packet
      let lqi : Store := ⟨1 + len, [packet.lqi]⟩
      let txBuf := overwrite txBuf (1 + len) lqi.bytes
      ({ packet := packet, stores := [length, frame, lqi], sent := some (txBuf.take (len + 2)),
         ret := if packet.usbRet = len + 2 then packet.usbRet else -einval }, txBuf)

/-- Every store is within `tx_buf`, and of a frame that is not too large and can be read the length,
the frame and the LQI are sent. -/
structure Forwarded (r : Reception) : Prop where
  within : ∀ store ∈ r.stores, store.offset + store.bytes.length ≤ txBufSize
  sent : r.sent = if r.packet.frame.length ≤ ieee802154Mtu ∧ 0 ≤ r.packet.readRet then
      some (UInt8.ofNat r.packet.frame.length :: r.packet.frame ++ [r.packet.lqi]) else none

section Received

variable {txBuf frame : List UInt8} {len lqi : UInt8}

theorem length_storeLen (h : txBuf.length = txBufSize) (len : UInt8) :
    (overwrite txBuf 0 [len]).length = txBufSize :=
  (length_overwrite (by rw [h]; exact Nat.le_add_left 1 _)).trans h

theorem length_storeFrame (h : txBuf.length = txBufSize) (hframe : frame.length ≤ ieee802154Mtu) :
    (overwrite (overwrite txBuf 0 [len]) 1 frame).length = txBufSize := by
  have hlen := length_storeLen h len
  have hsize : txBufSize = ieee802154Mtu + 2 := rfl
  exact (length_overwrite (by omega)).trans hlen

theorem length_storeLqi (h : txBuf.length = txBufSize) (hframe : frame.length ≤ ieee802154Mtu) :
    (overwrite (overwrite (overwrite txBuf 0 [len]) 1 frame) (1 + frame.length) [lqi]).length =
      txBufSize := by
  have hlen : (overwrite (overwrite txBuf 0 [len]) 1 frame).length = txBufSize :=
    length_storeFrame h hframe
  have hsize : txBufSize = ieee802154Mtu + 2 := rfl
  exact (length_overwrite (by rw [List.length_singleton]; omega)).trans hlen

/-- The bytes that are sent from the buffer. -/
theorem take_stored (h : txBuf.length = txBufSize) (hframe : frame.length ≤ ieee802154Mtu) :
    (overwrite (overwrite (overwrite txBuf 0 [len]) 1 frame) (1 + frame.length) [lqi]).take
      (frame.length + 2) = len :: frame ++ [lqi] := by
  have hlen := length_storeLen h len
  have hstored : (overwrite (overwrite txBuf 0 [len]) 1 frame).length = txBufSize :=
    length_storeFrame h hframe
  have hsize : txBufSize = ieee802154Mtu + 2 := rfl
  have hend : frame.length + 2 = (1 + frame.length) + [lqi].length := by
    rw [List.length_singleton]
    omega
  have hfirst : (overwrite txBuf 0 [len]).take (0 + [len].length) = txBuf.take 0 ++ [len] :=
    take_overwrite (Nat.zero_le _)
  rw [hend, take_overwrite (by omega), take_overwrite (by omega)]
  exact congrArg (· ++ frame ++ [lqi]) hfirst

theorem netRecvData_spec (packet : Received) (h : txBuf.length = txBufSize) :
    Forwarded (netRecvData txBuf packet).1 ∧ (netRecvData txBuf packet).2.length = txBufSize := by
  have hsize : txBufSize = ieee802154Mtu + 2 := rfl
  unfold netRecvData
  simp only
  split
  case isTrue hlarge =>
    have hnot : ¬ (packet.frame.length ≤ ieee802154Mtu ∧ 0 ≤ packet.readRet) := by omega
    exact ⟨⟨fun store hstore => (nomatch hstore), (if_neg hnot).symm⟩, h⟩
  case isFalse hfits =>
    have hframe : packet.frame.length ≤ ieee802154Mtu := by omega
    split
    case isTrue hfails =>
      have hpart : (packet.frame.take packet.copied).length ≤ packet.frame.length := by
        rw [List.length_take]
        omega
      have hnot : ¬ (packet.frame.length ≤ ieee802154Mtu ∧ 0 ≤ packet.readRet) := by omega
      refine ⟨⟨?_, (if_neg hnot).symm⟩, length_storeFrame h (Nat.le_trans hpart hframe)⟩
      simp only [List.forall_mem_cons, List.length_singleton]
      exact ⟨by omega, by omega, fun store hstore => (nomatch hstore)⟩
    case isFalse hok =>
      refine ⟨⟨?_, ?_⟩, length_storeLqi h hframe⟩
      · simp only [List.forall_mem_cons, List.length_singleton]
        exact ⟨by omega, by omega, by omega, fun store hstore => (nomatch hstore)⟩
      · have hread : packet.frame.length ≤ ieee802154Mtu ∧ 0 ≤ packet.readRet := ⟨hframe, by omega⟩
        exact (congrArg some (take_stored h hframe)).trans (if_pos hread).symm

end Received

/-! ## The threads -/

/-- A packet of `tx_queue`; the request it was made of is not looked at by the code. -/
structure Pkt where
  request : Request
  frags : List Frag

/-- The queue and the buffer, and what has been accepted, executed and received, the oldest first.
-/
structure Device where
  txQueue : List Pkt
  txBuf : List UInt8
  accepted : List Request
  executed : List (Request × Execution)
  receptions : List Reception

def start : Device where
  txQueue := []
  txBuf := List.replicate txBufSize 0
  accepted := []
  executed := []
  receptions := []

/-- A request with the buffers that are allocated for it, if they are; a pass of `tx_thread`; a call
of `net_recv_data`. -/
inductive Event where
  | vendor (req : Request) (alloc : Option (List (BitVec 16)))
  | execute (env : Env)
  | receive (packet : Received)

/-- `wpanusb_vendor_handler` -/
def wpanusbVendorHandler (s : Device) (req : Request) (alloc : Option (List (BitVec 16))) :
    Int × Device :=
  match alloc with
  | none => (-enomem, s)
  | some sizes =>
    (0, { s with txQueue := s.txQueue ++ [⟨req, fillPkt sizes req⟩],
                 accepted := s.accepted ++ [req] })

/-- One pass of `tx_thread`, which waits for a packet. -/
def txThread (hwFilter : Bool) (s : Device) (env : Env) : Device :=
  match s.txQueue with
  | [] => s
  | pkt :: rest =>
    { s with txQueue := rest,
             executed := s.executed ++ [(pkt.request, execute hwFilter env pkt.frags)] }

def step (hwFilter : Bool) (s : Device) : Event → Device
  | .vendor req alloc => (wpanusbVendorHandler s req alloc).2
  | .execute env => txThread hwFilter s env
  | .receive packet =>
    let (reception, txBuf) := netRecvData s.txBuf packet
    { s with txBuf := txBuf, receptions := s.receptions ++ [reception] }

/-- The buffers have room for what is asked for, `*len + 2`. -/
def Possible (_ : Device) : Event → Prop
  | .vendor req alloc => ∀ sizes ∈ alloc, Allocates sizes (req.data.length + 2)
  | .execute _ => True
  | .receive _ => True

instance (s : Device) : ∀ e, Decidable (Possible s e)
  | .vendor req alloc =>
    inferInstanceAs (Decidable (∀ sizes ∈ alloc, Allocates sizes (req.data.length + 2)))
  | .execute _ => inferInstanceAs (Decidable True)
  | .receive _ => inferInstanceAs (Decidable True)

/-- The accepted requests are executed in order, each on its own bytes, and all frames that are
accepted are forwarded. -/
structure Clean (hwFilter : Bool) (s : Device) : Prop where
  inOrder : s.executed.map Prod.fst ++ s.txQueue.map Pkt.request = s.accepted
  own : ∀ done ∈ s.executed, OnOwnBytes hwFilter done.1 done.2
  forwarded : ∀ r ∈ s.receptions, Forwarded r

/-- The packet that `tx_thread` takes out has one buffer, and as much data as its command needs. -/
def TakesFitting (hwFilter : Bool) (s : Device) : Event → Prop
  | .vendor _ _ => True
  | .execute _ => ∀ pkt ∈ s.txQueue.head?, Fits hwFilter pkt.request pkt.frags
  | .receive _ => True

instance (hwFilter : Bool) (s : Device) : ∀ e, Decidable (TakesFitting hwFilter s e)
  | .vendor _ _ => inferInstanceAs (Decidable True)
  | .execute _ =>
    inferInstanceAs (Decidable (∀ pkt ∈ s.txQueue.head?, Fits hwFilter pkt.request pkt.frags))
  | .receive _ => inferInstanceAs (Decidable True)

/-! ## Every run -/

/-- The packet was made of its request, in buffers that have room for it. -/
def Filled (pkt : Pkt) : Prop :=
  ∃ sizes, Allocates sizes (pkt.request.data.length + 2) ∧ pkt.frags = fillPkt sizes pkt.request

structure Keeps (hwFilter : Bool) (s : Device) : Prop extends Clean hwFilter s where
  filled : ∀ pkt ∈ s.txQueue, Filled pkt
  txBuf : s.txBuf.length = txBufSize

variable {hwFilter : Bool} {s : Device} {e : Event}

theorem keeps_start (hwFilter : Bool) : Keeps hwFilter start where
  inOrder := rfl
  own := fun _ h => (nomatch h)
  forwarded := fun _ h => (nomatch h)
  filled := fun _ h => (nomatch h)
  txBuf := List.length_replicate

theorem keeps_vendor {req : Request} {alloc : Option (List (BitVec 16))} (h : Keeps hwFilter s)
    (he : Possible s (.vendor req alloc)) :
    Keeps hwFilter (wpanusbVendorHandler s req alloc).2 := by
  cases alloc with
  | none => exact h
  | some sizes =>
    refine ⟨⟨?_, h.own, h.forwarded⟩, ?_, h.txBuf⟩
    · show s.executed.map Prod.fst ++ (s.txQueue ++ [_]).map Pkt.request = s.accepted ++ [req]
      rw [List.map_append, ← List.append_assoc, h.inOrder]
      rfl
    · intro pkt hpkt
      rcases List.mem_append.mp hpkt with hold | hnew
      · exact h.filled pkt hold
      · obtain rfl := List.mem_singleton.mp hnew
        exact ⟨sizes, he sizes rfl, rfl⟩

theorem keeps_receive (h : Keeps hwFilter s) (packet : Received) :
    Keeps hwFilter (step hwFilter s (.receive packet)) := by
  obtain ⟨hforwarded, hlength⟩ := netRecvData_spec packet h.txBuf
  refine ⟨⟨h.inOrder, h.own, ?_⟩, h.filled, hlength⟩
  intro r hr
  rcases List.mem_append.mp hr with hold | hnew
  · exact h.forwarded r hold
  · exact List.mem_singleton.mp hnew ▸ hforwarded

/-- After a pass the requests are on their own bytes when this one was. -/
theorem keeps_txThread {env : Env} (h : Keeps hwFilter s)
    (hown : ∀ pkt ∈ s.txQueue.head?,
      OnOwnBytes hwFilter pkt.request (execute hwFilter env pkt.frags)) :
    Keeps hwFilter (txThread hwFilter s env) := by
  unfold txThread
  split
  case h_1 => exact h
  case h_2 pkt rest hqueue =>
    have hfilled := h.filled
    have horder := h.inOrder
    rw [hqueue] at hown hfilled horder
    refine ⟨⟨?_, ?_, h.forwarded⟩, (List.forall_mem_cons.mp hfilled).2, h.txBuf⟩
    · rw [← horder]
      simp
    · intro done hdone
      rcases List.mem_append.mp hdone with hold | hnew
      · exact h.own done hold
      · exact List.mem_singleton.mp hnew ▸ hown pkt rfl

theorem execute_iff {pkt : Pkt} (env : Env) (h : Keeps hwFilter s) (hpkt : pkt ∈ s.txQueue.head?) :
    OnOwnBytes hwFilter pkt.request (execute hwFilter env pkt.frags) ↔
      Fits hwFilter pkt.request pkt.frags := by
  obtain ⟨sizes, hsizes, hfrags⟩ := h.filled pkt (List.mem_of_mem_head? hpkt)
  rw [hfrags]
  exact execute_own_iff env hsizes

theorem keeps_step (h : Keeps hwFilter s) (he : Possible s e) (hG : TakesFitting hwFilter s e) :
    Keeps hwFilter (step hwFilter s e) := by
  cases e with
  | vendor req alloc => exact keeps_vendor h he
  | execute env => exact keeps_txThread h fun pkt hpkt => (execute_iff env h hpkt).mpr (hG pkt hpkt)
  | receive packet => exact keeps_receive h packet

theorem clean_step_iff (h : Keeps hwFilter s) (he : Possible s e) :
    Clean hwFilter (step hwFilter s e) ↔ TakesFitting hwFilter s e := by
  refine ⟨fun hclean => ?_, fun hG => (keeps_step h he hG).toClean⟩
  cases e with
  | vendor req alloc => trivial
  | receive packet => trivial
  | execute env =>
    intro pkt hpkt
    refine (execute_iff env h hpkt).mp (hclean.own (pkt.request, execute hwFilter env pkt.frags) ?_)
    obtain ⟨rest, hqueue⟩ := List.head?_eq_some_iff.mp hpkt
    show _ ∈ (txThread hwFilter s env).executed
    rw [txThread, hqueue]
    exact List.mem_append_right _ (List.mem_singleton_self _)

/-- Any requests, allocations and frames, in any order with the passes of the thread. -/
theorem requests_executed_iff {es : List Event} (he : Along (step hwFilter) Possible start es) :
    Always (step hwFilter) (Clean hwFilter) start es ↔
      Along (step hwFilter) (TakesFitting hwFilter) start es :=
  always_iff_along_of_kept _ (fun _ _ h he hG => keeps_step h he hG)
    (fun _ _ h he => clean_step_iff h he) (keeps_start hwFilter) (keeps_start hwFilter).toClean he

/-- Memory of zeros, and calls that succeed. -/
def allOk : Env where
  behind _ := 0
  radioRet := 0
  txRet _ := 0
  usbRet := 1

/-- A channel and a frame of three bytes are set and sent, and a frame is received. -/
theorem requests_executed_channel_tx :
    Always (step true) (Clean true) start
      [.vendor ⟨4, 0, [0, 26]⟩ (some [4]), .vendor ⟨1, 7, [0x41, 0x88, 1]⟩ (some [5]),
        .vendor ⟨5, 0, []⟩ none, .execute allOk, .receive ⟨[2, 0, 1], 255, 0, 0, 5⟩,
        .execute allOk] :=
  (requests_executed_iff (by decide)).mpr (by decide)

/-- A frame of 127 bytes in buffers of 128: its last byte, `RESET`, is taken for the command. -/
theorem long_frame_not_sent :
    Along (step true) Possible start
        [.vendor ⟨1, 7, List.replicate 127 0⟩ (some [128, 1]), .execute allOk] ∧
      ¬ Always (step true) (Clean true) start
        [.vendor ⟨1, 7, List.replicate 127 0⟩ (some [128, 1]), .execute allOk] := by
  have hpossible : Possible start (.vendor ⟨1, 7, List.replicate 127 0⟩ (some [128, 1])) := by
    intro sizes hsizes
    obtain rfl := Option.some.inj hsizes
    exact ⟨by simp, by simp⟩
  refine ⟨⟨hpossible, trivial, trivial⟩, fun h => ?_⟩
  have hkeeps := keeps_step (keeps_start true) hpossible trivial
  have hfits := (clean_step_iff (e := .execute allOk) hkeeps trivial).mp h.last _ rfl
  exact absurd hfits.1 (by decide)

end Wpanusb
end ZephyrSamples
