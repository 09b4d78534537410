import ZephyrSamples.HciUart.Isr
import ZephyrSamples.Lib.Message

/-!
# Packets from RPMsg and SPI

`hci_rpmsg_rx` of the `hci_rpmsg` sample and the receive branch of `bt_tx_thread` of the `hci_spi`
sample.  Both copy what `bt_uart_isr` reads into a buffer whose room it has checked: RPMsg checks
the length field against the message but not against the buffer, and SPI neither. -/

namespace ZephyrSamples
namespace HciTransports

open HciUart (H4Type)

/-- The state of the pools: the sizes of their buffers, and whether one is free. -/
structure Pools where
  bufSize : H4Type → Nat
  available : H4Type → Bool

/-- What came of a message: whether bytes were read from behind it, whether some were appended
behind the end of a buffer, and what was put on `tx_queue`, or passed to `bt_send`. -/
structure Received where
  outside : Bool := false
  overrun : Bool := false
  passed : Option (H4Type × List UInt8) := none
  deriving DecidableEq

/-- `hci_rpmsg_cmd_recv` and `hci_rpmsg_acl_recv`, with the message from `data` on. -/
def hciRpmsgRecv (type : H4Type) (pools : Pools) (msg : Message) (data : Nat)
    (remaining : BitVec 32) : Received :=
  if remaining.toNat < type.hdrSize then {}
  else if pools.available type = false then {}
  else
    let hdr := msg.read data type.hdrSize
    let outside := msg.outside data type.hdrSize
    let data := data + type.hdrSize
    let remaining := remaining - BitVec.ofNat 32 type.hdrSize
    let buf := Sink.addMem { size := pools.bufSize type } hdr
    if remaining.toNat ≠ type.hdrLen hdr then { outside := outside, overrun := buf.overrun }
    else
      let buf := buf.addMem (msg.read data remaining.toNat)
      { outside := outside || msg.outside data remaining.toNat
        overrun := buf.overrun
        passed := some (type, buf.data) }

def hciRpmsgCmdRecv : Pools → Message → Nat → BitVec 32 → Received := hciRpmsgRecv .cmd

def hciRpmsgAclRecv : Pools → Message → Nat → BitVec 32 → Received := hciRpmsgRecv .acl

/-- The message has `len` bytes from address 0 on. -/
def hciRpmsgRx (pools : Pools) (mem : Nat → UInt8) (len : BitVec 32) : Received :=
  let msg : Message := { mem := mem, len := len.toNat }
  let pktIndicator := msg.mem 0
  let remaining := len - 1
  let received :=
    if pktIndicator = H4Type.cmd.byte then hciRpmsgCmdRecv pools msg 1 remaining
    else if pktIndicator = H4Type.acl.byte then hciRpmsgAclRecv pools msg 1 remaining
    else {}
  { received with outside := msg.outside 0 1 || received.outside }

def spiMaxMsgLen : Nat := 255

/-- A case of the `switch` of `bt_tx_thread`. -/
def hciSpiRecv (type : H4Type) (pools : Pools) (rxmsg : Message) : Received :=
  let hdr := rxmsg.read 1 type.hdrSize
  let outside := rxmsg.outside 1 type.hdrSize
  if pools.available type = false then { outside := outside }
  else
    let len := type.hdrLen hdr
    let buf := (Sink.addMem { size := pools.bufSize type } hdr).addMem
      (rxmsg.read (1 + type.hdrSize) len)
    { outside := outside || rxmsg.outside (1 + type.hdrSize) len
      overrun := buf.overrun
      passed := some (type, buf.data) }

/-- The receive branch of `bt_tx_thread`, after `spi_transceive` has filled `rxmsg`. -/
def btTxThread (pools : Pools) (mem : Nat → UInt8) : Received :=
  let rxmsg : Message := { mem := mem, len := spiMaxMsgLen }
  if rxmsg.mem 0 = H4Type.cmd.byte then hciSpiRecv .cmd pools rxmsg
  else if rxmsg.mem 0 = H4Type.acl.byte then hciSpiRecv .acl pools rxmsg
  else {}

/-! ## Validation -/

def typeOf (byte : UInt8) : Option H4Type :=
  if byte = H4Type.cmd.byte then some .cmd
  else if byte = H4Type.acl.byte then some .acl
  else none

/-- The length of a packet with its header, by the length field. -/
def packetLen (type : H4Type) (msg : Message) : Nat :=
  type.hdrSize + type.hdrLen (msg.read 1 type.hdrSize)

/-- What is to be passed on: a packet for which there is a buffer and room in it, and whose length
is `consistent` with that of the message. -/
def packet (consistent : Nat → Nat → Bool) (pools : Pools) (msg : Message) :
    Option (H4Type × List UInt8) :=
  match typeOf (msg.mem 0) with
  | none => none
  | some type =>
    if pools.available type ∧ 1 + type.hdrSize ≤ msg.len ∧
        consistent (1 + packetLen type msg) msg.len ∧ packetLen type msg ≤ pools.bufSize type then
      some (type, msg.read 1 (packetLen type msg))
    else none

/-- Nothing is read or written out of place, and the right packets are passed on. -/
structure Validated (packet : Option (H4Type × List UInt8)) (received : Received) : Prop where
  outside : received.outside = false
  overrun : received.overrun = false
  passed : received.passed = packet

/-- A message of RPMsg is one packet. -/
def rpmsgPacket (pools : Pools) (mem : Nat → UInt8) (len : BitVec 32) :
    Option (H4Type × List UInt8) :=
  packet (fun packet len => packet == len) pools { mem := mem, len := len.toNat }

/-- A message of SPI is filled up behind its packet. -/
def spiPacket (pools : Pools) (mem : Nat → UInt8) : Option (H4Type × List UInt8) :=
  packet (fun packet len => decide (packet ≤ len)) pools { mem := mem, len := spiMaxMsgLen }

/-- The message is not empty, and if its header is copied, the buffer has room for it, and for the
payload that is appended. -/
def RpmsgFits (pools : Pools) (mem : Nat → UInt8) (len : BitVec 32) : Prop :=
  let msg : Message := { mem := mem, len := len.toNat }
  0 < msg.len ∧ ∀ type, typeOf (mem 0) = some type → pools.available type →
    1 + type.hdrSize ≤ msg.len →
      type.hdrSize ≤ pools.bufSize type ∧
        (1 + packetLen type msg = msg.len → packetLen type msg ≤ pools.bufSize type)

/-- The length field of a packet for which there is a buffer ends within the message, and within the
buffer. -/
def SpiFits (pools : Pools) (mem : Nat → UInt8) : Prop :=
  let rxmsg : Message := { mem := mem, len := spiMaxMsgLen }
  ∀ type, typeOf (mem 0) = some type → pools.available type →
    1 + packetLen type rxmsg ≤ spiMaxMsgLen ∧ packetLen type rxmsg ≤ pools.bufSize type

variable {pools : Pools} {mem : Nat → UInt8} {type : H4Type} {msg : Message} {remaining : BitVec 32}
  {consistent : Nat → Nat → Bool}

/-! ## RPMsg -/

theorem hciRpmsgRx_eq (len : BitVec 32) :
    hciRpmsgRx pools mem len =
      let msg : Message := { mem := mem, len := len.toNat }
      let received : Received := match typeOf (mem 0) with
        | none => {}
        | some type => hciRpmsgRecv type pools msg 1 (len - 1)
      { received with outside := msg.outside 0 1 || received.outside } := by
  unfold hciRpmsgRx HciTransports.typeOf hciRpmsgCmdRecv hciRpmsgAclRecv
  dsimp only
  by_cases hcmd : mem 0 = H4Type.cmd.byte
  · rw [if_pos hcmd, if_pos hcmd]
  · rw [if_neg hcmd, if_neg hcmd]
    by_cases hacl : mem 0 = H4Type.acl.byte
    · rw [if_pos hacl, if_pos hacl]
    · rw [if_neg hacl, if_neg hacl]

/-- The number of bytes that are left behind a header that is there. -/
theorem toNat_sub_hdrSize (hhdr : type.hdrSize ≤ remaining.toNat) :
    (remaining - BitVec.ofNat 32 type.hdrSize).toNat = remaining.toNat - type.hdrSize := by
  have hlt := remaining.isLt
  rw [BitVec.toNat_sub, BitVec.toNat_ofNat]
  omega

theorem hciRpmsgRecv_of_available (havailable : pools.available type = true)
    (hhdr : type.hdrSize ≤ remaining.toNat) (hlen : msg.len = 1 + remaining.toNat) :
    hciRpmsgRecv type pools msg 1 remaining =
      if 1 + packetLen type msg = msg.len then
        { overrun := decide (pools.bufSize type < packetLen type msg)
          passed := some (type, msg.read 1 (packetLen type msg)) }
      else { overrun := decide (pools.bufSize type < type.hdrSize) } := by
  have hpacket : packetLen type msg = type.hdrSize + type.hdrLen (msg.read 1 type.hdrSize) := rfl
  have hread : msg.outside 1 type.hdrSize = false :=
    (Message.outside_eq_false_iff (by omega)).mpr (by omega)
  unfold hciRpmsgRecv
  rw [if_neg (Nat.not_lt.mpr hhdr), if_neg (by simp [havailable])]
  dsimp only
  rw [toNat_sub_hdrSize hhdr, hread]
  by_cases hwhole : 1 + packetLen type msg = msg.len
  · have hpayload : remaining.toNat - type.hdrSize = type.hdrLen (msg.read 1 type.hdrSize) := by
      omega
    have hinside : msg.outside (1 + type.hdrSize) (type.hdrLen (msg.read 1 type.hdrSize)) = false :=
      (Message.outside_eq_false_iff (by omega)).mpr (by omega)
    rw [if_neg (not_not_intro hpayload), if_pos hwhole, hpayload, hinside,
      Sink.data_addMem_addMem, Message.read_append, ← hpacket, Sink.overrun_addMem_addMem,
      Message.length_read, Message.length_read, ← hpacket]
    rfl
  · rw [if_pos fun hpayload => hwhole (by omega), if_neg hwhole, Sink.overrun_addMem,
      Message.length_read]

theorem hciRpmsgRecv_of_unavailable (h : pools.available type = false) :
    hciRpmsgRecv type pools msg 1 remaining = {} := by
  unfold hciRpmsgRecv
  rw [if_pos h, ite_self]

theorem packet_of_none (h : typeOf (msg.mem 0) = none) : packet consistent pools msg = none := by
  unfold packet
  rw [h]

theorem packet_of_some (h : typeOf (msg.mem 0) = some type) :
    packet consistent pools msg =
      if pools.available type ∧ 1 + type.hdrSize ≤ msg.len ∧
          consistent (1 + packetLen type msg) msg.len ∧ packetLen type msg ≤ pools.bufSize type then
        some (type, msg.read 1 (packetLen type msg)) else none := by
  unfold packet
  rw [h]

/-- What becomes of a message of a type that is known. -/
theorem hciRpmsgRecv_validated_iff (hlen : msg.len = 1 + remaining.toNat) :
    Validated
        (if pools.available type ∧ 1 + type.hdrSize ≤ msg.len ∧
            1 + packetLen type msg == msg.len ∧ packetLen type msg ≤ pools.bufSize type then
          some (type, msg.read 1 (packetLen type msg))
        else none)
        (hciRpmsgRecv type pools msg 1 remaining) ↔
      (pools.available type → 1 + type.hdrSize ≤ msg.len →
        type.hdrSize ≤ pools.bufSize type ∧
          (1 + packetLen type msg = msg.len → packetLen type msg ≤ pools.bufSize type)) := by
  cases havailable : pools.available type with
  | false =>
    rw [hciRpmsgRecv_of_unavailable havailable, if_neg (by simp)]
    exact iff_of_true ⟨rfl, rfl, rfl⟩ nofun
  | true =>
    by_cases hhdr : 1 + type.hdrSize ≤ msg.len
    · rw [hciRpmsgRecv_of_available havailable (by omega) hlen]
      by_cases hwhole : 1 + packetLen type msg = msg.len
      · have hhdrSize : type.hdrSize ≤ packetLen type msg := Nat.le_add_right _ _
        rw [if_pos hwhole]
        by_cases hroom : packetLen type msg ≤ pools.bufSize type
        · rw [if_pos ⟨rfl, hhdr, by simpa using hwhole, hroom⟩]
          refine iff_of_true ⟨rfl, decide_eq_false (by omega), rfl⟩ fun _ _ => ?_
          exact ⟨by omega, fun _ => hroom⟩
        · refine iff_of_false (fun h => ?_) fun h => hroom ((h rfl hhdr).2 hwhole)
          exact hroom (Nat.not_lt.mp (of_decide_eq_false h.overrun))
      · rw [if_neg hwhole, if_neg (by simp [hwhole])]
        constructor
        · intro h _ _
          exact ⟨Nat.not_lt.mp (of_decide_eq_false h.overrun), fun h => absurd h hwhole⟩
        · intro h
          have hroom := (h rfl hhdr).1
          exact ⟨rfl, decide_eq_false (by omega), rfl⟩
    · have hshort : hciRpmsgRecv type pools msg 1 remaining = {} := if_pos (by omega)
      rw [hshort, if_neg fun h => hhdr h.2.1]
      exact iff_of_true ⟨rfl, rfl, rfl⟩ fun _ h => absurd h hhdr

/-- A message of RPMsg is validated exactly when it fits. -/
theorem hciRpmsgRx_validated_iff (pools : Pools) (mem : Nat → UInt8) (len : BitVec 32) :
    Validated (rpmsgPacket pools mem len) (hciRpmsgRx pools mem len) ↔ RpmsgFits pools mem len := by
  rw [hciRpmsgRx_eq]
  unfold rpmsgPacket RpmsgFits
  generalize hmsg : ({ mem := mem, len := len.toNat } : Message) = msg
  have hlen : msg.len = len.toNat := hmsg ▸ rfl
  have hmem : msg.mem = mem := hmsg ▸ rfl
  dsimp only
  by_cases hempty : msg.len = 0
  · have hread : msg.outside 0 1 = true := decide_eq_true ⟨Nat.one_pos, by omega⟩
    refine iff_of_false (fun h => ?_) fun h => by omega
    have houtside := h.outside
    rw [hread] at houtside
    exact Bool.noConfusion houtside
  have hread : msg.outside 0 1 = false := (Message.outside_eq_false_iff (by omega)).mpr (by omega)
  have hremaining : msg.len = 1 + (len - 1).toNat := by
    have hlt := len.isLt
    have hone : (1 : BitVec 32).toNat = 1 := rfl
    rw [BitVec.toNat_sub, hone]
    omega
  rw [hread, ← hmem, and_iff_right (Nat.pos_of_ne_zero hempty)]
  cases htype : typeOf (msg.mem 0) with
  | none =>
    rw [packet_of_none htype]
    exact iff_of_true ⟨rfl, rfl, rfl⟩ nofun
  | some type =>
    rw [packet_of_some htype]
    simp only [Option.some.injEq, forall_eq', Bool.false_or]
    exact hciRpmsgRecv_validated_iff hremaining

/-! ## SPI -/

theorem btTxThread_eq :
    btTxThread pools mem =
      match typeOf (mem 0) with
      | none => {}
      | some type => hciSpiRecv type pools { mem := mem, len := spiMaxMsgLen } := by
  unfold btTxThread HciTransports.typeOf
  dsimp only
  by_cases hcmd : mem 0 = H4Type.cmd.byte
  · rw [if_pos hcmd, if_pos hcmd]
  · rw [if_neg hcmd, if_neg hcmd]
    by_cases hacl : mem 0 = H4Type.acl.byte
    · rw [if_pos hacl, if_pos hacl]
    · rw [if_neg hacl, if_neg hacl]

theorem hdrSize_lt_spiMaxMsgLen (type : H4Type) : type.hdrSize < spiMaxMsgLen := by
  cases type <;> decide

theorem outside_hdr (hlen : msg.len = spiMaxMsgLen) : msg.outside 1 type.hdrSize = false := by
  have hhdr := hdrSize_lt_spiMaxMsgLen type
  rw [Message.outside_eq_false_iff (by omega)]
  omega

theorem hciSpiRecv_of_unavailable (h : pools.available type = false)
    (hlen : msg.len = spiMaxMsgLen) : hciSpiRecv type pools msg = {} := by
  unfold hciSpiRecv
  rw [if_pos h, outside_hdr hlen]

theorem hciSpiRecv_of_available (h : pools.available type = true)
    (hlen : msg.len = spiMaxMsgLen) :
    hciSpiRecv type pools msg =
      { outside := decide (msg.len < 1 + packetLen type msg)
        overrun := decide (pools.bufSize type < packetLen type msg)
        passed := some (type, msg.read 1 (packetLen type msg)) } := by
  have hpacket : packetLen type msg = type.hdrSize + type.hdrLen (msg.read 1 type.hdrSize) := rfl
  unfold hciSpiRecv
  have hhdr := hdrSize_lt_spiMaxMsgLen type
  rw [if_neg (by simp [h]), outside_hdr hlen]
  dsimp only
  rw [Message.outside_eq (by omega), Bool.false_or, Sink.data_addMem_addMem, Message.read_append,
    Sink.overrun_addMem_addMem, Message.length_read, Message.length_read, Nat.add_assoc, ← hpacket]

/-- A message of SPI is validated exactly when it fits. -/
theorem btTxThread_validated_iff (pools : Pools) (mem : Nat → UInt8) :
    Validated (spiPacket pools mem) (btTxThread pools mem) ↔ SpiFits pools mem := by
  rw [btTxThread_eq]
  unfold spiPacket SpiFits
  generalize hmsg : ({ mem := mem, len := spiMaxMsgLen } : Message) = msg
  have hlen : msg.len = spiMaxMsgLen := hmsg ▸ rfl
  have hmem : msg.mem = mem := hmsg ▸ rfl
  rw [← hmem]
  cases htype : typeOf (msg.mem 0) with
  | none =>
    rw [packet_of_none htype]
    exact iff_of_true ⟨rfl, rfl, rfl⟩ nofun
  | some type =>
    rw [packet_of_some htype]
    simp only [Option.some.injEq, forall_eq']
    cases havailable : pools.available type with
    | false =>
      rw [hciSpiRecv_of_unavailable havailable hlen, if_neg (by simp)]
      exact iff_of_true ⟨rfl, rfl, rfl⟩ nofun
    | true =>
      have hhdr := hdrSize_lt_spiMaxMsgLen type
      have hhdrSize : type.hdrSize ≤ packetLen type msg := Nat.le_add_right _ _
      rw [hciSpiRecv_of_available havailable hlen]
      constructor
      · intro h _
        have hinside := of_decide_eq_false h.outside
        have hroom := of_decide_eq_false h.overrun
        exact ⟨by omega, by omega⟩
      · intro h
        obtain ⟨hinside, hroom⟩ := h rfl
        rw [if_pos ⟨rfl, by omega, decide_eq_true (by omega), hroom⟩]
        exact ⟨decide_eq_false (by omega), decide_eq_false (by omega), rfl⟩

/-! ## Both -/

theorem received_validated_iff (pools : Pools) (mem : Nat → UInt8) :
    (∀ len : BitVec 32,
      Validated (rpmsgPacket pools mem len) (hciRpmsgRx pools mem len) ↔
        RpmsgFits pools mem len) ∧
    (Validated (spiPacket pools mem) (btTxThread pools mem) ↔ SpiFits pools mem) :=
  ⟨hciRpmsgRx_validated_iff pools mem, btTxThread_validated_iff pools mem⟩

/-- Two messages of RPMsg, one without a byte and one with a command of 258 bytes for a buffer of
73, and a message of SPI whose length field is 255. -/
theorem received_not_validated :
    let pools : Pools := ⟨fun _ => 73, fun _ => true⟩
    let command (i : Nat) : UInt8 := [1, 3, 12, 255].getD i 0
    ¬ Validated (rpmsgPacket pools command 0) (hciRpmsgRx pools command 0) ∧
    ¬ Validated (rpmsgPacket pools command 259) (hciRpmsgRx pools command 259) ∧
    ¬ Validated (spiPacket pools command) (btTxThread pools command) := by
  refine ⟨fun h => ?_, fun h => ?_, fun h => ?_⟩
  · exact absurd h.outside (by decide +kernel)
  · exact absurd h.overrun (by decide +kernel)
  · exact absurd h.outside (by decide +kernel)

end HciTransports
end ZephyrSamples
