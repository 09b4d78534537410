import ZephyrSamples.Lib.NetBuf
import ZephyrSamples.WpanSerial.Framing

/-!
# The commands of the serial host

What `rx_thread` does with a packet of `rx_queue`, down to the pulls from its buffer.  None of them
is preceded by a look at the length, so a packet is read within its bounds exactly when it is
complete: when its command has all its bytes, and a data command all the attributes it announces. -/

namespace ZephyrSamples
namespace WpanSerial

open Runs NetBuf

/-- The calls that leave `rx_thread`: `send_data`, and the radio's. -/
inductive Action where
  | sendData (cfg data : List UInt8)
  | tx (frag : NetBuf)
  | setChannel (chan : UInt8)

/-- `mac_addr`, and what `radio_api->tx` returns. -/
structure Radio where
  macAddr : List UInt8
  txRet : Int

def getIeeeAddr (radio : Radio) : Action :=
  .sendData ['!'.toUInt8, 'M'.toUInt8] radio.macAddr.reverse

def processRequest (radio : Radio) (buf : NetBuf) : NetBuf × List Action :=
  let (cmd, buf) := buf.pullU8
  (buf, if cmd = 'M'.toUInt8 then [getIeeeAddr radio] else [])

def sendPktReport (seq status numTx : UInt8) : Action :=
  .sendData ['!'.toUInt8, 'R'.toUInt8] [seq, status, numTx]

/-- The loop over the attributes, each a byte and a value of two bytes. -/
def pullAttrs : Nat → NetBuf → NetBuf
  | 0, buf => buf
  | i + 1, buf => pullAttrs i (buf.pullU8.2.pullBe16.2)

def processData (radio : Radio) (buf : NetBuf) : NetBuf × List Action :=
  let (seq, buf) := buf.pullU8
  let (numAttr, buf) := buf.pullU8
  let buf := pullAttrs numAttr.toNat buf
  (buf, [.tx buf, sendPktReport seq (UInt8.ofInt radio.txRet) 1])

def processConfig (radio : Radio) (buf : NetBuf) : NetBuf × List Action :=
  let (cmd, buf) := buf.pullU8
  if cmd = 'S'.toUInt8 then processData radio buf
  else if cmd = 'C'.toUInt8 then
    let (chan, buf) := buf.pullU8
    (buf, [.setChannel chan])
  else (buf, [])

/-- `rx_thread` for one packet. -/
def rxThread (radio : Radio) (buf : NetBuf) : NetBuf × List Action :=
  let (specifier, buf) := buf.pullU8
  if specifier = '?'.toUInt8 then processRequest radio buf
  else if specifier = '!'.toUInt8 then processConfig radio buf
  else (buf, [])

/-! ## Complete packets -/

/-- The frame of a data command: the bytes behind the announced attributes. -/
def frame (pkt : Pkt) : List UInt8 := (pkt.drop 4).drop (3 * (pkt.getD 3 0).toNat)

/-- No pull takes more than there is, and the radio gets the frame. -/
structure Inside (pkt : Pkt) (result : NetBuf × List Action) : Prop where
  held : result.1.short = false
  tx : ∀ frag, .tx frag ∈ result.2 → frag.bytes = frame pkt

/-- A data command: its sequence number, the number of attributes, and three bytes for each. -/
def DataComplete : List UInt8 → Prop
  | _ :: numAttr :: attrs => 3 * numAttr.toNat ≤ attrs.length
  | _ => False

def ConfigComplete : List UInt8 → Prop
  | [] => False
  | cmd :: rest =>
    if cmd = 'S'.toUInt8 then DataComplete rest
    else if cmd = 'C'.toUInt8 then rest ≠ []
    else True

/-- The packet has all the bytes its command needs. -/
def Complete : Pkt → Prop
  | [] => False
  | specifier :: rest =>
    if specifier = '?'.toUInt8 then rest ≠ []
    else if specifier = '!'.toUInt8 then ConfigComplete rest
    else True

instance : DecidablePred DataComplete
  | [] => .isFalse id
  | [_] => .isFalse id
  | _ :: numAttr :: attrs => inferInstanceAs (Decidable (3 * numAttr.toNat ≤ attrs.length))

instance : DecidablePred ConfigComplete
  | [] => .isFalse id
  | cmd :: rest =>
    inferInstanceAs (Decidable (if cmd = 'S'.toUInt8 then DataComplete rest
      else if cmd = 'C'.toUInt8 then rest ≠ [] else True))

instance : DecidablePred Complete
  | [] => .isFalse id
  | specifier :: rest =>
    inferInstanceAs (Decidable (if specifier = '?'.toUInt8 then rest ≠ []
      else if specifier = '!'.toUInt8 then ConfigComplete rest else True))

variable {radio : Radio} {buf : NetBuf} {n : Nat}

/-! ## The attributes -/

theorem pullAttrs_short_of_short (h : buf.short = true) : (pullAttrs n buf).short = true := by
  induction n generalizing buf with
  | zero => exact h
  | succ n ih => exact ih (short_pull_of_short (short_pull_of_short h))

/-- The attributes are pulled from what there is exactly when there are enough bytes. -/
theorem pullAttrs_short_iff (h : buf.short = false) :
    (pullAttrs n buf).short = false ↔ 3 * n ≤ buf.bytes.length := by
  induction n generalizing buf with
  | zero => simp [pullAttrs, h]
  | succ n ih =>
    have hattr : (pullAttrs (n + 1) buf) = pullAttrs n ((buf.pull 1).pull 2) := rfl
    rw [hattr]
    by_cases hthree : 3 ≤ buf.bytes.length
    · have hone : (buf.pull 1).short = false := short_pull_eq_false_iff.mpr ⟨h, by omega⟩
      have hlen : (buf.pull 1).bytes.length = buf.bytes.length - 1 := by
        rw [bytes_pull (by omega), List.length_drop]
      have htwo : ((buf.pull 1).pull 2).short = false :=
        short_pull_eq_false_iff.mpr ⟨hone, by omega⟩
      rw [ih htwo, bytes_pull (by omega), List.length_drop, hlen]
      omega
    · have hshort : ((buf.pull 1).pull 2).short = true := by
        by_contra hno
        obtain ⟨hone, htwo⟩ := short_pull_eq_false_iff.mp (Bool.eq_false_iff.mpr hno)
        have hpos := (short_pull_eq_false_iff.mp hone).2
        rw [bytes_pull hpos, List.length_drop] at htwo
        omega
      rw [pullAttrs_short_of_short hshort]
      simp only [Bool.true_eq_false, false_iff]
      omega

theorem bytes_pullAttrs (h : 3 * n ≤ buf.bytes.length) :
    (pullAttrs n buf).bytes = buf.bytes.drop (3 * n) := by
  induction n generalizing buf with
  | zero => rfl
  | succ n ih =>
    have hone : (buf.pull 1).bytes = buf.bytes.drop 1 := bytes_pull (by omega)
    have hthree : ((buf.pull 1).pull 2).bytes = buf.bytes.drop 3 := by
      rw [bytes_pull (by rw [hone, List.length_drop]; omega), hone, List.drop_drop]
    have hattr : (pullAttrs (n + 1) buf) = pullAttrs n ((buf.pull 1).pull 2) := rfl
    rw [hattr, ih (by rw [hthree, List.length_drop]; omega), hthree, List.drop_drop]
    congr 1
    omega

/-! ## What each function pulls -/

theorem processRequest_short_iff (h : buf.short = false) :
    (processRequest radio buf).1.short = false ↔ buf.bytes ≠ [] := by
  show (buf.pull 1).short = false ↔ _
  rw [short_pull_one_iff]
  exact and_iff_right h

theorem processData_short_iff (h : buf.short = false) :
    (processData radio buf).1.short = false ↔ DataComplete buf.bytes := by
  show (pullAttrs (buf.pull 1).pullU8.1.toNat ((buf.pull 1).pull 1)).short = false ↔ _
  cases hbytes : buf.bytes with
  | nil =>
    rw [pullAttrs_short_of_short (short_pull_of_short (short_pull_of_nil hbytes Nat.one_pos))]
    exact iff_of_false nofun id
  | cons seq rest =>
    have hrest : (buf.pull 1).bytes = rest := bytes_pull_one hbytes
    have hheld : (buf.pull 1).short = false := (short_pull_one hbytes).trans h
    cases rest with
    | nil =>
      rw [pullAttrs_short_of_short (short_pull_of_nil hrest Nat.one_pos)]
      exact iff_of_false nofun id
    | cons numAttr attrs =>
      have hnum : (buf.pull 1).pullU8.1 = numAttr := mem_data_of_bytes hrest
      have hattrs : ((buf.pull 1).pull 1).bytes = attrs := bytes_pull_one hrest
      rw [pullAttrs_short_iff ((short_pull_one hrest).trans hheld), hnum, hattrs]
      rfl

/-- The radio gets what follows the attributes of a complete data command. -/
theorem processData_tx (h : DataComplete buf.bytes) {frag : NetBuf}
    (hfrag : .tx frag ∈ (processData radio buf).2) :
    frag.bytes = (buf.bytes.drop 2).drop (3 * (buf.bytes.getD 1 0).toNat) := by
  have heq : frag = pullAttrs (buf.pull 1).pullU8.1.toNat ((buf.pull 1).pull 1) := by
    simpa [processData, sendPktReport, pullU8] using hfrag
  match hbytes : buf.bytes with
  | [] =>
    rw [hbytes] at h
    exact h.elim
  | [_] =>
    rw [hbytes] at h
    exact h.elim
  | seq :: numAttr :: attrs =>
    have hrest : (buf.pull 1).bytes = numAttr :: attrs := bytes_pull_one hbytes
    have hnum : (buf.pull 1).pullU8.1 = numAttr := mem_data_of_bytes hrest
    have hattrs : ((buf.pull 1).pull 1).bytes = attrs := bytes_pull_one hrest
    have hlen : 3 * numAttr.toNat ≤ attrs.length := by
      rw [hbytes] at h
      exact h
    rw [heq, hnum, bytes_pullAttrs (by rw [hattrs]; exact hlen), hattrs]
    rfl

theorem processData_short_of_short (h : buf.short = true) :
    (processData radio buf).1.short = true :=
  pullAttrs_short_of_short (short_pull_of_short (short_pull_of_short h))

/-- A command that is not there is looked up all the same. -/
theorem processConfig_short_of_pull (hcmd : (buf.pull 1).short = true) :
    (processConfig radio buf).1.short = true := by
  show (if _ then processData radio (buf.pull 1) else if _ then _ else _ :
    NetBuf × List Action).1.short = true
  split
  · exact processData_short_of_short hcmd
  · split
    · exact short_pull_of_short hcmd
    · exact hcmd

theorem processConfig_short_iff (h : buf.short = false) :
    (processConfig radio buf).1.short = false ↔ ConfigComplete buf.bytes := by
  cases hbytes : buf.bytes with
  | nil =>
    have hshort : (processConfig radio buf).1.short = true :=
      processConfig_short_of_pull (short_pull_of_nil hbytes Nat.one_pos)
    refine iff_of_false ?_ id
    rw [Bool.not_eq_false]
    exact hshort
  | cons cmd rest =>
    have hcmd : buf.pullU8.1 = cmd := mem_data_of_bytes hbytes
    have hrest : (buf.pull 1).bytes = rest := bytes_pull_one hbytes
    have hheld : (buf.pull 1).short = false := (short_pull_one hbytes).trans h
    show (if buf.pullU8.1 = _ then processData radio (buf.pull 1) else if buf.pullU8.1 = _ then
      ((buf.pull 1).pull 1, _) else (buf.pull 1, []) : NetBuf × List Action).1.short = false ↔ _
    rw [hcmd, ConfigComplete]
    by_cases hsend : cmd = 'S'.toUInt8
    · rw [if_pos hsend, if_pos hsend, processData_short_iff hheld, hrest]
    · rw [if_neg hsend, if_neg hsend]
      by_cases hchannel : cmd = 'C'.toUInt8
      · rw [if_pos hchannel, if_pos hchannel, short_pull_one_iff, hrest]
        exact and_iff_right hheld
      · rw [if_neg hchannel, if_neg hchannel]
        exact iff_of_true hheld trivial

theorem processConfig_tx (h : ConfigComplete buf.bytes) {frag : NetBuf}
    (hfrag : .tx frag ∈ (processConfig radio buf).2) :
    frag.bytes = (buf.bytes.drop 3).drop (3 * (buf.bytes.getD 2 0).toNat) := by
  match hbytes : buf.bytes with
  | [] =>
    rw [hbytes] at h
    exact h.elim
  | cmd :: rest =>
    have hcmd : buf.pullU8.1 = cmd := mem_data_of_bytes hbytes
    have hrest : (buf.pull 1).bytes = rest := bytes_pull_one hbytes
    change .tx frag ∈ (if buf.pullU8.1 = _ then processData radio (buf.pull 1) else
      if buf.pullU8.1 = _ then _ else _ : NetBuf × List Action).2 at hfrag
    rw [hbytes, ConfigComplete] at h
    rw [hcmd] at hfrag
    by_cases hsend : cmd = 'S'.toUInt8
    · rw [if_pos hsend] at h hfrag
      rw [← hrest] at h ⊢
      exact processData_tx h hfrag
    · rw [if_neg hsend] at hfrag
      split at hfrag
      · simp at hfrag
      · simp at hfrag

theorem rxThread_short_iff (h : buf.short = false) :
    (rxThread radio buf).1.short = false ↔ Complete buf.bytes := by
  cases hbytes : buf.bytes with
  | nil =>
    have hspecifier : (buf.pull 1).short = true := short_pull_of_nil hbytes Nat.one_pos
    refine iff_of_false ?_ id
    show ¬ (if _ then processRequest radio (buf.pull 1) else if _ then
      processConfig radio (buf.pull 1) else _ : NetBuf × List Action).1.short = false
    rw [Bool.not_eq_false]
    split
    · exact short_pull_of_short hspecifier
    · split
      · exact processConfig_short_of_pull (short_pull_of_short hspecifier)
      · exact hspecifier
  | cons specifier rest =>
    have hspecifier : buf.pullU8.1 = specifier := mem_data_of_bytes hbytes
    have hrest : (buf.pull 1).bytes = rest := bytes_pull_one hbytes
    have hheld : (buf.pull 1).short = false := (short_pull_one hbytes).trans h
    show (if buf.pullU8.1 = _ then processRequest radio (buf.pull 1) else
      if buf.pullU8.1 = _ then processConfig radio (buf.pull 1) else
      (buf.pull 1, []) : NetBuf × List Action).1.short = false ↔ _
    rw [hspecifier, Complete]
    by_cases hrequest : specifier = '?'.toUInt8
    · rw [if_pos hrequest, if_pos hrequest, processRequest_short_iff hheld, hrest]
    · rw [if_neg hrequest, if_neg hrequest]
      by_cases hconfig : specifier = '!'.toUInt8
      · rw [if_pos hconfig, if_pos hconfig, processConfig_short_iff hheld, hrest]
      · rw [if_neg hconfig, if_neg hconfig]
        exact iff_of_true hheld trivial

theorem rxThread_tx (h : Complete buf.bytes) {frag : NetBuf}
    (hfrag : .tx frag ∈ (rxThread radio buf).2) : frag.bytes = frame buf.bytes := by
  match hbytes : buf.bytes with
  | [] =>
    rw [hbytes] at h
    exact h.elim
  | specifier :: rest =>
    have hspecifier : buf.pullU8.1 = specifier := mem_data_of_bytes hbytes
    have hrest : (buf.pull 1).bytes = rest := bytes_pull_one hbytes
    change .tx frag ∈ (if buf.pullU8.1 = _ then processRequest radio (buf.pull 1) else
      if buf.pullU8.1 = _ then processConfig radio (buf.pull 1) else
      (buf.pull 1, []) : NetBuf × List Action).2 at hfrag
    rw [hbytes, Complete] at h
    rw [hspecifier] at hfrag
    by_cases hrequest : specifier = '?'.toUInt8
    · rw [if_pos hrequest] at hfrag
      simp [processRequest, getIeeeAddr] at hfrag
    · rw [if_neg hrequest] at h hfrag
      by_cases hconfig : specifier = '!'.toUInt8
      · rw [if_pos hconfig] at h hfrag
        rw [← hrest] at h ⊢
        exact processConfig_tx h hfrag
      · rw [if_neg hconfig] at hfrag
        exact absurd hfrag List.not_mem_nil

/-! ## The packets of the receiver -/

/-- The packets of `rx_queue`, like the one under way, are not empty and fit their buffers. -/
structure Queued (capacity : Nat) (d : Receiver) : Prop where
  held : Held capacity d.pktCurr
  queue : ∀ pkt ∈ d.rxQueue, pkt ≠ [] ∧ pkt.length ≤ capacity

section

variable {capacity : Nat} {d : Receiver}

theorem Queued.addByte (h : Queued capacity d) (alloc : Bool) (c : UInt8) :
    Queued capacity (d.addByte capacity alloc c) := by
  unfold Receiver.addByte
  cases hpkt : d.pktCurr.or (if alloc then some [] else none) with
  | none => exact h
  | some pkt =>
    refine ⟨?_, by dsimp only; split <;> exact h.queue⟩
    dsimp only
    split
    · exact held_none capacity
    · refine ⟨fun heq => ?_, ?_⟩
      · exact List.append_ne_nil_of_right_ne_nil _ (List.cons_ne_nil _ _) (Option.some.inj heq)
      · simp only [Option.getD_some, List.length_append, List.length_singleton]
        omega

theorem Queued.slipProcessByte (h : Queued capacity d) (alloc : Bool) (c : UInt8) :
    Queued capacity (d.slipProcessByte capacity alloc c).2 := by
  have hstate (state : SlipState) : Queued capacity { d with slipState := state } :=
    ⟨h.held, h.queue⟩
  unfold Receiver.slipProcessByte
  split
  · dsimp only
    split
    · exact hstate .ok
    · exact h
  · split
    · exact (hstate .ok).addByte alloc slipEnd
    · split
      · exact (hstate .ok).addByte alloc slipEsc
      · exact hstate .garbage
  · split
    · exact hstate .esc
    · split
      · exact h
      · exact h.addByte alloc c

theorem Queued.receive (h : Queued capacity d) (r : Read) :
    Queued capacity (d.receive capacity r) := by
  have hnext := h.slipProcessByte r.alloc r.byte
  unfold Receiver.receive
  rcases hbyte : d.slipProcessByte capacity r.alloc r.byte with ⟨ended, next⟩
  rw [hbyte] at hnext
  cases ended with
  | false => exact hnext
  | true =>
    dsimp only
    cases hpkt : next.pktCurr with
    | none => exact hnext
    | some pkt =>
      have hheld := hnext.held
      rw [hpkt] at hheld
      refine ⟨held_none capacity, fun other hother => ?_⟩
      rcases List.mem_append.mp hother with hold | hnew
      · exact hnext.queue other hold
      · rw [List.mem_singleton.mp hnew]
        exact ⟨fun hnil => hheld.1 (congrArg some hnil), hheld.2⟩

theorem queued_run (capacity : Nat) (reads : List Read) :
    Queued capacity (run (Receiver.receive capacity) {} reads) :=
  run_invariant _ (fun _ r h => h.receive r) ⟨held_none capacity, nofun⟩ reads

end

/-- A packet that was received is read within its bounds exactly when it is complete. -/
theorem rxThread_inside_iff (capacity : BitVec 16) (reads : List Read) (pkt : Pkt)
    (hpkt : pkt ∈ (run (Receiver.receive capacity.toNat) {} reads).rxQueue)
    (behind : Nat → UInt8) (radio : Radio) :
    Inside pkt (rxThread radio (load behind pkt)) ↔ Complete pkt := by
  have hlen : pkt.length < 2 ^ 16 :=
    Nat.lt_of_le_of_lt ((queued_run capacity.toNat reads).queue pkt hpkt).2 capacity.isLt
  have hbytes : (load behind pkt).bytes = pkt := bytes_load behind hlen
  have hshort : (rxThread radio (load behind pkt)).1.short = false ↔
      Complete (load behind pkt).bytes := rxThread_short_iff rfl
  rw [hbytes] at hshort
  constructor
  · intro h
    exact hshort.mp h.held
  · intro h
    refine ⟨hshort.mpr h, fun frag hfrag => ?_⟩
    have htx := rxThread_tx (by rw [hbytes]; exact h) hfrag
    rwa [hbytes] at htx

/-- A data command with two attributes and a frame of one byte. -/
theorem rxThread_inside_data :
    Inside [33, 83, 7, 2, 1, 0, 9, 2, 0, 8, 65]
      (rxThread ⟨[], 0⟩ (load (fun _ => 192) [33, 83, 7, 2, 1, 0, 9, 2, 0, 8, 65])) :=
  (rxThread_inside_iff 128 (allocating [33, 83, 7, 2, 1, 0, 9, 2, 0, 8, 65, slipEnd]) _ (by decide)
    (fun _ => 192) ⟨[], 0⟩).mpr (by decide)

/-- A request without its command byte wraps the length. -/
theorem rxThread_outside : ¬ ∀ (capacity : BitVec 16) (reads : List Read),
    ∀ pkt ∈ (run (Receiver.receive capacity.toNat) {} reads).rxQueue,
      ∀ (behind : Nat → UInt8) (radio : Radio),
        Inside pkt (rxThread radio (load behind pkt)) := by
  intro h
  have hinside := h 128 (allocating [63, slipEnd]) [63] (by decide) (fun _ => 0) ⟨[], 0⟩
  exact absurd hinside.held (by decide)

end WpanSerial
end ZephyrSamples
