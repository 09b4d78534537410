import ZephyrSamples.Lib.Memory
import ZephyrSamples.Lib.Runs

/-!
# The echo of the WebUSB sample

`webusb_read_cb` starts the transfer that sends the packet back and the one that reads the next
packet, both on `rx_buf`.  The packets are echoed exactly when none is complete before the last one
has been sent, and when what is read meanwhile does not change what is still to be sent.
-/

namespace ZephyrSamples
namespace Webusb

open Runs Memory

abbrev Packet := List UInt8

/-- `sizeof(rx_buf)` -/
def rxBufSize : Nat := 64

/-- A transfer to the host: how many bytes of `rx_buf` it sends, and the bytes it has read from
there so far. -/
structure Write where
  size : Nat
  sent : List UInt8
  deriving DecidableEq, Repr

/-- `rx_buf` and the transfers on the two endpoints; of the one that reads, the bytes it has put
into `rx_buf` so far.  `received` are the packets `webusb_read_cb` was called for, `echoed` those
whose write is complete, as they were sent. -/
structure Device where
  rxBuf : List UInt8
  read : Option Packet
  write : Option Write
  received : List Packet
  echoed : List Packet
  deriving DecidableEq, Repr

/-- Before the device is configured. -/
def start : Device where
  rxBuf := List.replicate rxBufSize 0
  read := none
  write := none
  received := []
  echoed := []

/-- USB_DC_CONFIGURED, or what the USB stack does with the transfers: it puts bytes of a packet into
`rx_buf`, completes the read with them or with a size that is not positive, reads bytes from
`rx_buf` to send them, or completes the write. -/
inductive Event where
  | configured
  | fill (bytes : List UInt8)
  | readDone
  | readFailed (size : Int)
  | send (n : Nat)
  | writeDone
  deriving DecidableEq, Repr

/-- `usb_transfer` with USB_TRANS_WRITE; an active transfer makes it fail. -/
def usbTransferWrite (s : Device) (size : Nat) : Device :=
  match s.write with
  | none => { s with write := some { size := size, sent := [] } }
  | some _ => s

/-- `usb_transfer` with USB_TRANS_READ -/
def usbTransferRead (s : Device) : Device :=
  match s.read with
  | none => { s with read := some [] }
  | some _ => s

def webusbReadCb (s : Device) (size : Int) : Device :=
  if size ≤ 0 then usbTransferRead s
  else usbTransferRead (usbTransferWrite s size.toNat)

def step (s : Device) : Event → Device
  | .configured => webusbReadCb s 0
  | .fill bytes =>
    match s.read with
    | none => s
    | some packet =>
      { s with rxBuf := overwrite s.rxBuf packet.length bytes, read := some (packet ++ bytes) }
  | .readDone =>
    match s.read with
    | none => s
    | some packet =>
      webusbReadCb { s with read := none, received := s.received ++ [packet] } packet.length
  | .readFailed size => webusbReadCb { s with read := none } size
  | .send n =>
    match s.write with
    | none => s
    | some w =>
      { s with write := some { w with sent := w.sent ++ (s.rxBuf.drop w.sent.length).take n } }
  | .writeDone =>
    match s.write with
    | none => s
    | some w => { s with write := none, echoed := s.echoed ++ [w.sent] }

/-- A packet has between one byte and 64, a write sends as many bytes as it is given, and only
transfers that are active complete. -/
def Possible (s : Device) : Event → Prop
  | .configured => True
  | .fill bytes => ∃ packet ∈ s.read, packet.length + bytes.length ≤ rxBufSize
  | .readDone => ∃ packet ∈ s.read, packet ≠ []
  | .readFailed size => s.read ≠ none ∧ size ≤ 0
  | .send n => ∃ w ∈ s.write, w.sent.length + n ≤ w.size
  | .writeDone => ∃ w ∈ s.write, w.sent.length = w.size

instance (s : Device) : ∀ e, Decidable (Possible s e)
  | .configured => inferInstanceAs (Decidable True)
  | .fill _ => inferInstanceAs (Decidable (∃ packet ∈ s.read, _))
  | .readDone => inferInstanceAs (Decidable (∃ packet ∈ s.read, _))
  | .readFailed _ => inferInstanceAs (Decidable (_ ∧ _))
  | .send _ => inferInstanceAs (Decidable (∃ w ∈ s.write, _))
  | .writeDone => inferInstanceAs (Decidable (∃ w ∈ s.write, _))

/-- What a write still has to read from `rx_buf`. -/
def Write.rest (w : Write) (rxBuf : List UInt8) : List UInt8 :=
  (rxBuf.drop w.sent.length).take (w.size - w.sent.length)

/-- The packet on its way to the host: what is sent of it and what is still in `rx_buf`. -/
def Device.sending (s : Device) : List Packet :=
  match s.write with
  | none => []
  | some w => [w.sent ++ w.rest s.rxBuf]

/-- The packets received are those sent back, and the one on its way. -/
def Echoes (s : Device) : Prop := s.echoed ++ s.sending = s.received

instance (s : Device) : Decidable (Echoes s) := inferInstanceAs (Decidable (_ = _))

/-- Bytes that are read do not change those a write still has to send, and no packet is complete
while a write is active. -/
def Undisturbed (s : Device) : Event → Prop
  | .fill bytes =>
    ∀ packet ∈ s.read, ∀ w ∈ s.write,
      w.rest (overwrite s.rxBuf packet.length bytes) = w.rest s.rxBuf
  | .readDone => s.write = none
  | .configured => True
  | .readFailed _ => True
  | .send _ => True
  | .writeDone => True

instance (s : Device) : ∀ e, Decidable (Undisturbed s e)
  | .fill _ => inferInstanceAs (Decidable (∀ packet ∈ s.read, ∀ w ∈ s.write, _))
  | .readDone => inferInstanceAs (Decidable (s.write = none))
  | .configured => inferInstanceAs (Decidable True)
  | .readFailed _ => inferInstanceAs (Decidable True)
  | .send _ => inferInstanceAs (Decidable True)
  | .writeDone => inferInstanceAs (Decidable True)

/-- The bytes of the packet being read stand at the start of `rx_buf`, and a write reads no further
than its end. -/
structure Inv (s : Device) : Prop where
  length : s.rxBuf.length = rxBufSize
  room : ∀ packet ∈ s.read, packet.length ≤ rxBufSize
  read : ∀ packet ∈ s.read, s.rxBuf.take packet.length = packet
  write : ∀ w ∈ s.write, w.sent.length ≤ w.size ∧ w.size ≤ rxBufSize

variable {s : Device}

theorem inv_start : Inv start where
  length := rfl
  room _ h := nomatch h
  read _ h := nomatch h
  write _ h := nomatch h

theorem inv_usbTransferRead (h : Inv s) : Inv (usbTransferRead s) := by
  unfold usbTransferRead
  split
  · refine ⟨h.length, ?_, ?_, h.write⟩
    · simp
    · simp
  · exact h

theorem inv_usbTransferWrite (h : Inv s) {size : Nat} (hsize : size ≤ rxBufSize) :
    Inv (usbTransferWrite s size) := by
  unfold usbTransferWrite
  split
  · exact ⟨h.length, h.room, h.read, by simpa using hsize⟩
  · exact h

theorem inv_webusbReadCb (h : Inv s) {size : Int} (hsize : size ≤ rxBufSize) :
    Inv (webusbReadCb s size) := by
  unfold webusbReadCb
  split
  · exact inv_usbTransferRead h
  · exact inv_usbTransferRead (inv_usbTransferWrite h (by omega))

theorem inv_read_none {received : List Packet} (h : Inv s) :
    Inv { s with read := none, received := received } :=
  ⟨h.length, fun _ hno => (nomatch hno), fun _ hno => (nomatch hno), h.write⟩

theorem inv_step {e : Event} (h : Inv s) (he : Possible s e) : Inv (step s e) := by
  cases e with
  | configured => exact inv_webusbReadCb h (by decide)
  | fill bytes =>
    obtain ⟨packet, hpacket, hroom⟩ := he
    have hread : s.read = some packet := hpacket
    have hstart : packet.length + bytes.length ≤ s.rxBuf.length := by rwa [h.length]
    simp only [step, hread]
    refine ⟨?_, ?_, ?_, h.write⟩
    · rw [length_overwrite hstart, h.length]
    · simpa using hroom
    · intro packet' hpacket'
      obtain rfl : packet ++ bytes = packet' := Option.some.inj hpacket'
      show (overwrite s.rxBuf packet.length bytes).take (packet ++ bytes).length = packet ++ bytes
      rw [List.length_append, take_overwrite (by omega), h.read packet hpacket]
  | readDone =>
    obtain ⟨packet, hpacket, -⟩ := he
    have hread : s.read = some packet := hpacket
    have hroom := h.room packet hpacket
    simp only [step, hread]
    exact inv_webusbReadCb (inv_read_none h) (by omega)
  | readFailed size =>
    have hsize : size ≤ (rxBufSize : Int) := Int.le_trans he.2 (by decide)
    exact inv_webusbReadCb (inv_read_none h) hsize
  | send n =>
    obtain ⟨w, hw, hn⟩ := he
    have hwrite : s.write = some w := hw
    have hsize := (h.write w hw).2
    simp only [step, hwrite]
    refine ⟨h.length, h.room, h.read, ?_⟩
    intro w' hw'
    obtain rfl := Option.some.inj hw'
    refine ⟨?_, hsize⟩
    simp only [List.length_append, List.length_take, List.length_drop]
    omega
  | writeDone =>
    obtain ⟨w, hw, -⟩ := he
    have hwrite : s.write = some w := hw
    simp only [step, hwrite]
    exact ⟨h.length, h.room, h.read, fun _ hno => nomatch hno⟩

@[simp] theorem sending_usbTransferRead (s : Device) :
    (usbTransferRead s).sending = s.sending := by
  unfold usbTransferRead
  split <;> rfl

@[simp] theorem received_usbTransferRead (s : Device) :
    (usbTransferRead s).received = s.received ∧ (usbTransferRead s).echoed = s.echoed := by
  unfold usbTransferRead
  split <;> exact ⟨rfl, rfl⟩

theorem echoes_usbTransferRead_iff : Echoes (usbTransferRead s) ↔ Echoes s := by
  simp [Echoes]

theorem echoes_webusbReadCb_iff {size : Int} (hsize : size ≤ 0) :
    Echoes (webusbReadCb s size) ↔ Echoes s := by
  rw [webusbReadCb, if_pos hsize, echoes_usbTransferRead_iff]

/-- A packet that is complete is sent back if the last one has been. -/
theorem echoes_readDone_iff {packet : Packet} (h : Inv s) (hs : Echoes s)
    (hread : s.read = some packet) (hne : packet ≠ []) :
    Echoes (step s .readDone) ↔ s.write = none := by
  have hpos : ¬ ((packet.length : Int) ≤ 0) := by
    have := List.length_pos_iff.mpr hne
    omega
  simp only [step, hread, webusbReadCb, if_neg hpos, echoes_usbTransferRead_iff, Int.toNat_natCast]
  cases hwrite : s.write with
  | none =>
    refine iff_of_true ?_ rfl
    have hechoed : s.echoed = s.received := by simpa [Echoes, Device.sending, hwrite] using hs
    have hpacket := h.read packet hread
    simp [Echoes, Device.sending, usbTransferWrite, Write.rest, hechoed, hpacket]
  | some w =>
    refine iff_of_false ?_ (by simp)
    intro hnext
    have hnext : s.echoed ++ s.sending = s.received ++ [packet] := by
      simpa [Echoes, Device.sending, usbTransferWrite, hwrite] using hnext
    have hlength := congrArg List.length (hs.symm.trans hnext)
    simp at hlength

/-- Bytes that are sent are those that were still to be sent. -/
theorem Write.rest_send (w : Write) (rxBuf : List UInt8) {n : Nat}
    (hn : w.sent.length + n ≤ w.size) (hsize : w.size ≤ rxBuf.length) :
    w.sent ++ (rxBuf.drop w.sent.length).take n ++
        ({ w with sent := w.sent ++ (rxBuf.drop w.sent.length).take n } : Write).rest rxBuf =
      w.sent ++ w.rest rxBuf := by
  have hlength : (w.sent ++ (rxBuf.drop w.sent.length).take n).length = w.sent.length + n := by
    simp only [List.length_append, List.length_take, List.length_drop]
    omega
  have hsplit : w.size - w.sent.length = n + (w.size - (w.sent.length + n)) := by omega
  simp only [Write.rest, hlength]
  rw [List.append_assoc, hsplit, List.take_add, List.drop_drop]

theorem echoes_step_iff {e : Event} (h : Inv s) (he : Possible s e) (hs : Echoes s) :
    Echoes (step s e) ↔ Undisturbed s e := by
  cases e with
  | configured => exact iff_of_true ((echoes_webusbReadCb_iff (Int.le_refl 0)).mpr hs) trivial
  | fill bytes =>
    obtain ⟨packet, hpacket, -⟩ := he
    have hread : s.read = some packet := hpacket
    simp only [step, hread, Undisturbed]
    cases hwrite : s.write with
    | none =>
      refine iff_of_true ?_ (by simp)
      simpa [Echoes, Device.sending, hwrite] using hs
    | some w =>
      have hs : s.echoed ++ [w.sent ++ w.rest s.rxBuf] = s.received := by
        simpa [Echoes, Device.sending, hwrite] using hs
      simp [Echoes, Device.sending, ← hs]
  | readDone =>
    obtain ⟨packet, hpacket, hne⟩ := he
    exact echoes_readDone_iff h hs hpacket hne
  | readFailed size => exact iff_of_true ((echoes_webusbReadCb_iff he.2).mpr hs) trivial
  | send n =>
    obtain ⟨w, hw, hn⟩ := he
    have hwrite : s.write = some w := hw
    have hsize : w.size ≤ s.rxBuf.length := by
      rw [h.length]
      exact (h.write w hw).2
    have hs : s.echoed ++ [w.sent ++ w.rest s.rxBuf] = s.received := by
      simpa [Echoes, Device.sending, hwrite] using hs
    refine iff_of_true ?_ trivial
    simp only [step, hwrite, Echoes, Device.sending]
    rw [w.rest_send s.rxBuf hn hsize]
    exact hs
  | writeDone =>
    obtain ⟨w, hw, hall⟩ := he
    have hwrite : s.write = some w := hw
    refine iff_of_true ?_ trivial
    simpa [Echoes, Device.sending, step, hwrite, Write.rest, hall] using hs

/-- Every run, for every sequence of packets and every order of the completions. -/
theorem webusb_echoes_iff_undisturbed {es : List Event} (he : Along step Possible start es) :
    Always step Echoes start es ↔ Along step Undisturbed start es :=
  always_iff_along_of_along step (P := Echoes) (fun _ _ h he => inv_step h he)
    (fun _ _ h he hs => echoes_step_iff h he hs) inv_start (by decide) he

/-- Two packets, the second one read after the first one was sent. -/
def twoPackets : List Event :=
  [.configured, .fill [1, 2], .readDone, .send 2, .writeDone, .fill [3], .readDone, .send 1,
    .writeDone]

theorem webusb_echoes_twoPackets :
    Along step Possible start twoPackets ∧ Always step Echoes start twoPackets :=
  ⟨by decide, (webusb_echoes_iff_undisturbed (by decide)).mpr (by decide)⟩

/-- The second packet is put into `rx_buf`, and is complete, before the first one is sent. -/
def overtaken : List Event :=
  [.configured, .fill [1, 2], .readDone, .fill [3, 4], .readDone, .send 2, .writeDone]

/-- The host gets the second packet for the first one, and nothing for the second one. -/
theorem overtaken_not_echoed :
    Along step Possible start overtaken ∧ (run step start overtaken).received = [[1, 2], [3, 4]] ∧
      (run step start overtaken).echoed = [[3, 4]] ∧ (run step start overtaken).write = none ∧
      ¬ Always step Echoes start overtaken :=
  ⟨by decide, by decide, by decide, by decide, fun h => absurd h.last (by decide)⟩

end Webusb
end ZephyrSamples
