import Mathlib.Data.List.Basic

/-!
# The H:4 receiver

`bt_uart_isr` of the `hci_uart` sample with `h4_read`, `h4_discard`, `h4_cmd_recv` and
`h4_acl_recv`.  The UART is the list of the bytes that are still to be read from it; how many of
them a call of `uart_fifo_read` returns is up to the list of counts it is given.
-/

namespace ZephyrSamples
namespace HciUart

/-- The packet types the sample takes from the UART. -/
inductive H4Type where
  | cmd
  | acl
  deriving DecidableEq

/-- `H4_CMD` and `H4_ACL`. -/
def H4Type.byte : H4Type → UInt8
  | .cmd => 0x01
  | .acl => 0x02

/-- `sizeof(struct bt_hci_cmd_hdr)` and `sizeof(struct bt_hci_acl_hdr)`. -/
def H4Type.hdrSize : H4Type → Nat
  | .cmd => 3
  | .acl => 4

/-- `hdr.param_len`, and `sys_le16_to_cpu(hdr.len)`. -/
def H4Type.hdrLen : H4Type → List UInt8 → Nat
  | .cmd, hdr => (hdr.getD 2 0).toNat
  | .acl, hdr => (hdr.getD 2 0).toNat + 256 * (hdr.getD 3 0).toNat

def h4DiscardLen : Nat := 33

/-- The buffer sizes of `cmd_tx_pool` and `acl_tx_pool`, which leave room for a header. -/
structure Pools where
  cmdBufSize : Nat
  aclBufSize : Nat
  cmd_hdr : H4Type.cmd.hdrSize ≤ cmdBufSize
  acl_hdr : H4Type.acl.hdrSize ≤ aclBufSize

def Pools.bufSize (p : Pools) : H4Type → Nat
  | .cmd => p.cmdBufSize
  | .acl => p.aclBufSize

/-- A `struct net_buf` from one of the pools. -/
structure NetBuf where
  type : H4Type
  size : Nat
  data : List UInt8
  deriving DecidableEq

def NetBuf.tailroom (buf : NetBuf) : Nat := buf.size - buf.data.length

/-- The bytes on their way to the UART, and what the next calls of `uart_fifo_read` return: up to
so many bytes each, and all that is asked for and there when the list is at its end. -/
structure Uart where
  wire : List UInt8
  counts : List Nat

/-- `uart_fifo_read`. -/
def uartFifoRead (u : Uart) (len : Nat) : List UInt8 × Uart :=
  let rx := (u.wire.take len).take (u.counts.headD len)
  (rx, { wire := u.wire.drop rx.length, counts := u.counts.tail })

/-- The loop of `h4_read`, with the bytes it has read.  The result is `none` where it spins for
bytes that do not come. -/
def h4ReadLoop (atLeast : Nat) (counts : List Nat) (len : Nat) (wire read : List UInt8) :
    Option (List UInt8 × Uart) :=
  match counts with
  | [] =>
    if wire.length < len ∧ read.length + wire.length < atLeast then none
    else some (read ++ wire.take len, { wire := wire.drop len, counts := [] })
  | count :: counts =>
    if len = 0 then some (read, { wire := wire, counts := count :: counts })
    else
      let rx := (wire.take len).take count
      if rx = [] then
        if read.length < atLeast then h4ReadLoop atLeast counts len wire read
        else some (read, { wire := wire, counts := counts })
      else h4ReadLoop atLeast counts (len - rx.length) (wire.drop rx.length) (read ++ rx)

/-- `h4_read`.  Its parameter `min` is `atLeast` here. -/
def h4Read (u : Uart) (len atLeast : Nat) : Option (List UInt8 × Uart) :=
  h4ReadLoop atLeast u.counts len u.wire []

/-- `h4_discard`. -/
def h4Discard (u : Uart) (len : Nat) : List UInt8 × Uart := uartFifoRead u (min len h4DiscardLen)

/-- The static variables of `bt_uart_isr`, what was put on `tx_queue`, the bytes still to be read
and the outcomes of the allocations still to be made. -/
structure Hci where
  buf : Option NetBuf := none
  remaining : Nat := 0
  txQueue : List NetBuf := []
  wire : List UInt8
  allocs : List Bool

namespace Hci

/-- The body `h4_cmd_recv` and `h4_acl_recv` share, with the assignments to `buf` and `remaining`
of their callers. -/
def h4Recv (p : Pools) (type : H4Type) (counts : List Nat) (s : Hci) : Option (List Nat × Hci) :=
  match h4Read { wire := s.wire, counts := counts } type.hdrSize type.hdrSize with
  | none => none
  | some (hdr, u) =>
    some (u.counts,
      { s with
        buf :=
          if s.allocs.headD false then some { type := type, size := p.bufSize type, data := hdr }
          else none
        remaining := type.hdrLen hdr
        wire := u.wire
        allocs := s.allocs.tail })

def h4CmdRecv (p : Pools) := h4Recv p .cmd

def h4AclRecv (p : Pools) := h4Recv p .acl

/-- A buffer with too little room for the payload is released. -/
def checkTailroom (s : Hci) : Hci :=
  match s.buf with
  | none => s
  | some buf => if s.remaining > buf.tailroom then { s with buf := none } else s

/-- How the part of the loop body for a new packet ends: with `continue`, with `return`, or with the
payload still to be read. -/
inductive Begun where
  | again (s : Hci)
  | unknown (s : Hci)
  | packet (counts : List Nat) (s : Hci)

/-- The beginning of a new packet. -/
def beginPacket (p : Pools) (counts : List Nat) (s : Hci) : Option Begun :=
  match h4Read { wire := s.wire, counts := counts } 1 0 with
  | none => none
  | some ([], u) => some (.again { s with wire := u.wire })
  | some (type :: _, u) =>
    if type = H4Type.cmd.byte then
      (h4CmdRecv p u.counts { s with wire := u.wire }).map fun (counts, s) =>
        .packet counts s.checkTailroom
    else if type = H4Type.acl.byte then
      (h4AclRecv p u.counts { s with wire := u.wire }).map fun (counts, s) =>
        .packet counts s.checkTailroom
    else some (.unknown { s with wire := u.wire })

/-- The rest of the loop body: the payload is discarded, or read into the buffer. -/
def receivePayload (counts : List Nat) (s : Hci) : Option Hci :=
  match s.buf with
  | none =>
    let (read, u) := h4Discard { wire := s.wire, counts := counts } s.remaining
    some { s with wire := u.wire, remaining := s.remaining - read.length }
  | some buf =>
    match h4Read { wire := s.wire, counts := counts } s.remaining 0 with
    | none => none
    | some (read, u) =>
      let buf := { buf with data := buf.data ++ read }
      let remaining := s.remaining - read.length
      if remaining = 0 then
        some { s with
          buf := none, remaining := remaining, txQueue := s.txQueue ++ [buf], wire := u.wire }
      else some { s with buf := some buf, remaining := remaining, wire := u.wire }

/-- A turn of the loop: whether `uart_irq_rx_ready` holds, and what the reads of the turn return. -/
structure Turn where
  rxReady : Bool := true
  counts : List Nat := []

/-- `bt_uart_isr`, for as many turns as the interrupt is pending.  The result is `none` where a turn
does not end. -/
def btUartIsr (p : Pools) (s : Hci) : List Turn → Option Hci
  | [] => some s
  | turn :: turns =>
    if turn.rxReady = false then some s
    else if s.remaining ≠ 0 then
      (s.receivePayload turn.counts).bind fun s => btUartIsr p s turns
    else
      match s.beginPacket p turn.counts with
      | none => none
      | some (.again s) => btUartIsr p s turns
      | some (.unknown s) => some s
      | some (.packet counts s) =>
        (s.receivePayload counts).bind fun s => btUartIsr p s turns

end Hci

/-! ## Reads -/

/-- What `h4_read` reads: bytes from the front of the wire, no more than asked for, and at least as
many as demanded. -/
theorem h4ReadLoop_spec {atLeast len : Nat} {counts : List Nat} {wire read : List UInt8}
    (henough : atLeast ≤ read.length + wire.length) :
    ∃ n counts', h4ReadLoop atLeast counts len wire read =
        some (read ++ wire.take n, { wire := wire.drop n, counts := counts' }) ∧
      n ≤ len ∧ n ≤ wire.length ∧ (n = len ∨ atLeast ≤ read.length + n) ∧
      (counts = [] → n = min len wire.length ∧ counts' = []) := by
  induction counts generalizing len wire read with
  | nil =>
    refine ⟨min len wire.length, [], ?_, by omega, by omega, by omega, fun _ => ⟨rfl, rfl⟩⟩
    rw [h4ReadLoop, if_neg (by omega)]
    rcases Nat.le_total len wire.length with hle | hle
    · rw [Nat.min_eq_left hle]
    · rw [Nat.min_eq_right hle, List.take_of_length_le hle, List.drop_of_length_le hle,
        List.take_length, List.drop_length]
  | cons count counts ih =>
    rw [h4ReadLoop]
    by_cases hlen : len = 0
    · rw [if_pos hlen]
      refine ⟨0, count :: counts, ?_, by omega, by omega, by omega, nofun⟩
      rw [List.take_zero, List.append_nil, List.drop_zero]
    rw [if_neg hlen]
    dsimp only
    by_cases hrx : (wire.take len).take count = []
    · rw [if_pos hrx]
      by_cases hmin : read.length < atLeast
      · rw [if_pos hmin]
        obtain ⟨n, counts', heq, hn, hwire, hread, -⟩ := @ih len wire read henough
        exact ⟨n, counts', heq, hn, hwire, hread, nofun⟩
      · rw [if_neg hmin]
        refine ⟨0, counts, ?_, by omega, by omega, by omega, nofun⟩
        rw [List.take_zero, List.append_nil, List.drop_zero]
    · rw [if_neg hrx]
      -- this call reads the first `k` bytes of the wire, and the rest of the loop the `n` behind
      obtain ⟨k, hk, hklen, hkwire⟩ : ∃ k, (wire.take len).take count = wire.take k ∧ k ≤ len ∧
          k ≤ wire.length :=
        ⟨min (min count len) wire.length, by rw [List.take_take, List.take_eq_take_min], by omega,
          by omega⟩
      have hlength : (wire.take k).length = k := by rw [List.length_take, Nat.min_eq_left hkwire]
      rw [hk, hlength]
      obtain ⟨n, counts', heq, hn, hwire, hread, -⟩ :=
        @ih (len - k) (wire.drop k) (read ++ wire.take k)
          (by rw [List.length_append, hlength, List.length_drop]; omega)
      rw [List.length_drop] at hwire
      rw [List.length_append, hlength] at hread
      refine ⟨k + n, counts', ?_, by omega, by omega, by omega, nofun⟩
      rw [heq, List.append_assoc, ← List.take_add, List.drop_drop]

theorem h4Read_all {u : Uart} {len : Nat} (henough : len ≤ u.wire.length) :
    ∃ counts', h4Read u len len =
      some (u.wire.take len, { wire := u.wire.drop len, counts := counts' }) ∧
        (u.counts = [] → counts' = []) := by
  obtain ⟨n, counts', heq, hn, -, hread, hcounts⟩ :=
    @h4ReadLoop_spec len len u.counts u.wire [] (by simpa using henough)
  have hall : n = len := by
    rw [List.length_nil] at hread
    omega
  subst hall
  exact ⟨counts', heq, fun h => (hcounts h).2⟩

/-- With none demanded, `h4_read` returns with some of them, and with all that are there once the
reads return all. -/
theorem h4Read_some (u : Uart) (len : Nat) :
    ∃ n counts', h4Read u len 0 =
        some (u.wire.take n, { wire := u.wire.drop n, counts := counts' }) ∧
      n ≤ len ∧ n ≤ u.wire.length ∧
      (u.counts = [] → n = min len u.wire.length ∧ counts' = []) := by
  obtain ⟨n, counts', heq, hn, hwire, -, hcounts⟩ :=
    @h4ReadLoop_spec 0 len u.counts u.wire [] (Nat.zero_le _)
  exact ⟨n, counts', heq, hn, hwire, hcounts⟩

theorem h4Discard_some (u : Uart) (len : Nat) :
    ∃ n counts', h4Discard u len =
        (u.wire.take n, { wire := u.wire.drop n, counts := counts' }) ∧
      n ≤ len ∧ n ≤ u.wire.length ∧
      (u.counts = [] → n = min (min len h4DiscardLen) u.wire.length) := by
  obtain ⟨n, hn⟩ : ∃ n, n = min (min (u.counts.headD (min len h4DiscardLen))
      (min len h4DiscardLen)) u.wire.length := ⟨_, rfl⟩
  have hrx : (u.wire.take (min len h4DiscardLen)).take (u.counts.headD (min len h4DiscardLen)) =
      u.wire.take n := by
    rw [List.take_take, List.take_eq_take_min, hn]
  have hlength : (u.wire.take n).length = n := by
    rw [List.length_take]
    omega
  refine ⟨n, u.counts.tail, ?_, by omega, by omega, fun h => ?_⟩
  · unfold h4Discard uartFifoRead
    dsimp only
    rw [hrx, hlength]
  · rw [h, List.headD_nil] at hn
    omega

end HciUart
end ZephyrSamples
