import ZephyrSamples.Eddystone.Advertising

/-!
# Reading a configuration back

Accepted writes of the radio power, the advertised power and the slot data of an unlocked slot, in
any order, and the reads behind them.  The advertised power is read from the field of the radio
power, and the frame is written through the address of the pointer to it, behind the slot. -/

namespace ZephyrSamples
namespace Eddystone

open Runs

/-- An accepted write: of at most one byte of a power, or of a frame with its type in front. -/
inductive ConfigWrite where
  | tx (buf : List Byte) (offset : Nat) (h : offset + buf.length ≤ 1)
  | advTx (buf : List Byte) (offset : Nat) (h : offset + buf.length ≤ 1)
  | slotData (rest : List Byte) (h : rest.length ≤ 18)

def urlFrame (rest : List Byte) : List Byte := EdsType.url.byte :: rest

/-- The request; the advertising restarts. -/
def ConfigWrite.event : ConfigWrite → Event
  | .tx buf offset _ => .write .tx buf offset 0 false
  | .advTx buf offset _ => .write .advTx buf offset 0 false
  | .slotData rest _ => .write .data (urlFrame rest) 0 0 false

def configure (s : Beacon) (w : ConfigWrite) : Beacon := step s w.event

/-- The values last written. -/
structure Written where
  tx : Option Byte
  advTx : Option Byte
  slotData : Option (List Byte)

def Written.none : Written := { tx := .none, advTx := .none, slotData := .none }

/-- A write of no byte leaves the value last written as it is. -/
def Written.add (last : Written) : ConfigWrite → Written
  | .tx buf _ _ => { last with tx := buf.head?.or last.tx }
  | .advTx buf _ _ => { last with advTx := buf.head?.or last.advTx }
  | .slotData rest _ => { last with slotData := some rest }

def written (ws : List ConfigWrite) : Written := ws.foldl Written.add .none

/-- How many bytes of a frame are written behind the slot. -/
def bytesBehind (s : Beacon) (buf : List Byte) : Nat :=
  (buf.take (min s.slot.ad.svcData.dataLen (buf.length + edsUrlWriteOffset)
    - edsUrlWriteOffset)).length

/-- The write changes the field of its characteristic only, and a frame only the bytes of its
array. -/
def Contained (s : Beacon) : ConfigWrite → Prop
  | .tx buf offset h =>
    ∃ power, configure s (.tx buf offset h) = s.setSlot { s.slot with txPower := power }
  | .advTx buf offset h =>
    ∃ power, configure s (.advTx buf offset h) = s.setSlot { s.slot with advTxPower := power }
  | .slotData rest _ => bytesBehind s (urlFrame rest) = 0

/-- After some writes each characteristic reads as it was last written, and each write kept to its
field. -/
structure ReadsBack (s : Beacon) (ws : List ConfigWrite) : Prop where
  tx : ∀ power, (written ws).tx = some power → ∀ len offset,
    readTxPower (run configure s ws) len offset = btGattAttrRead len offset [power]
  advTx : ∀ power, (written ws).advTx = some power → ∀ len offset,
    readAdvTxPower (run configure s ws) len offset = btGattAttrRead len offset [power]
  slotData : ∀ rest, (written ws).slotData = some rest → ∃ power, ∀ len offset,
    readAdvData (run configure s ws) len offset
      = btGattAttrRead len offset (EdsType.url.byte :: power :: rest)
  contained : Along configure Contained s ws

def ConfigWrite.IsSlotData : ConfigWrite → Prop
  | .slotData _ _ => True
  | _ => False

/-- No frame is written, and the advertised power, if it is, is the radio power at the end. -/
def SamePowers (s : Beacon) (ws : List ConfigWrite) : Prop :=
  (∀ w ∈ ws, ¬ w.IsSlotData) ∧
    ∀ power, (written ws).advTx = some power → (written ws).tx.getD s.slot.txPower = power

/-! ## The length of the frame -/

/-- The frame has at least one byte behind the offset for writing. -/
def LongFrame (s : Beacon) : Prop := edsUrlWriteOffset < s.slot.ad.svcData.dataLen

variable {s t : Beacon}

theorem LongFrame.of_ad (h : LongFrame s) (had : t.slot.ad = s.slot.ad) : LongFrame t := by
  unfold LongFrame
  rwa [had]

theorem longFrame_edsSlotRestart (h : LongFrame s) (type : EdsType) (err : Bool) :
    LongFrame (edsSlotRestart s type err).2 := by
  refine h.of_ad ?_
  rw [slot_edsSlotRestart]
  split <;> rfl

theorem longFrame_setFrame (h : LongFrame s) {buf : List Byte} (hbuf : buf ≠ []) :
    LongFrame (setFrame s buf) := by
  have hpos := List.length_pos_of_ne_nil hbuf
  have hlen : (setFrame s buf).slot.ad.svcData.dataLen
      = min s.slot.ad.svcData.dataLen (buf.length + edsUrlWriteOffset) := by
    show (s.setSlot _).slot.ad.svcData.dataLen = _
    rw [slot_setSlot]
  unfold LongFrame at h ⊢
  rw [hlen]
  omega

theorem longFrame_step (h : LongFrame s) (e : Event) : LongFrame (step s e) := by
  cases e with
  | read chrc len offset rand => exact h.of_ad (edited_read chrc rand).ad
  | write chrc buf offset stale err =>
    by_cases hchrc : chrc = .data
    · subst hchrc
      show LongFrame (writeAdvData s buf offset err).2
      obtain ⟨-, -, -, heq⟩ | ⟨-, -, hurl, heq⟩ | ⟨-, e, heq⟩ := writeAdvData_cases s buf offset err
      · rw [heq]
        exact longFrame_edsSlotRestart h .none err
      · have hbuf : buf ≠ [] := by
          rintro rfl
          exact absurd hurl.2 (by decide)
        rw [heq]
        exact longFrame_edsSlotRestart (longFrame_setFrame h hbuf) .url err
      · rw [heq]
        exact h
    · exact h.of_ad (edited_write hchrc stale err).ad
  | connected err =>
    simp only [step, connected]
    split <;> exact h
  | disconnected =>
    simp only [step, disconnected]
    split <;> exact h
  | idleTimeout err =>
    simp only [step, idleTimeout]
    split
    · split
      · exact longFrame_edsSlotRestart (s := { s with idleWork := false }) h .url err
      · exact h
    · exact h
  | resumed =>
    simp only [step, resumed]
    split <;> exact h

/-- A frame that is written has a byte that goes behind the slot. -/
theorem not_contained_slotData (h : LongFrame s) (rest : List Byte) (hrest : rest.length ≤ 18) :
    ¬ Contained s (.slotData rest hrest) := by
  unfold LongFrame edsUrlWriteOffset at h
  show ¬ (bytesBehind s (urlFrame rest) = 0)
  rw [bytesBehind, List.length_take, urlFrame, List.length_cons, edsUrlWriteOffset]
  omega

/-! ## The powers -/

/-- A write of a power, as the slot it leaves. -/
theorem configure_tx (hs : s.slot.state ≠ .locked) (buf : List Byte) (offset : Nat)
    (h : offset + buf.length ≤ 1) :
    configure s (.tx buf offset h)
      = s.setSlot { s.slot with txPower := memcpyByte s.slot.txPower buf } := by
  show (writeUnlessLocked s buf offset _).2 = _
  rw [writeUnlessLocked, if_neg hs, if_neg (Nat.not_lt.mpr h)]

theorem configure_advTx (hs : s.slot.state ≠ .locked) (buf : List Byte) (offset : Nat)
    (h : offset + buf.length ≤ 1) :
    configure s (.advTx buf offset h)
      = s.setSlot { s.slot with advTxPower := memcpyByte s.slot.advTxPower buf } := by
  show (writeUnlessLocked s buf offset _).2 = _
  rw [writeUnlessLocked, if_neg hs, if_neg (Nat.not_lt.mpr h)]

theorem memcpyByte_getD (b : Byte) (last : Option Byte) (buf : List Byte) :
    memcpyByte (last.getD b) buf = (buf.head?.or last).getD b := by
  cases buf <;> rfl

/-- The writes keep to their fields exactly when no frame is among them. -/
theorem along_contained_iff (hs : s.slot.state ≠ .locked) (hlong : LongFrame s)
    (ws : List ConfigWrite) :
    Along configure Contained s ws ↔ ∀ w ∈ ws, ¬ w.IsSlotData := by
  induction ws generalizing s with
  | nil => exact ⟨fun _ w hw => absurd hw List.not_mem_nil, fun _ => trivial⟩
  | cons w ws ih =>
    have hkeep : ∀ {slot : EdsSlot}, configure s w = s.setSlot slot → slot.state = s.slot.state →
        slot.ad = s.slot.ad → Contained s w → ¬ w.IsSlotData →
        (Along configure Contained s (w :: ws) ↔ ∀ v ∈ w :: ws, ¬ v.IsSlotData) := by
      intro slot hset hstate had hin hnot
      have hslot : (configure s w).slot = slot := by rw [hset, slot_setSlot]
      have hrest := ih (s := configure s w) (by rw [hslot, hstate]; exact hs)
        (hlong.of_ad (by rw [hslot, had]))
      rw [List.forall_mem_cons, ← hrest]
      exact and_congr (iff_of_true hin hnot) Iff.rfl
    cases w with
    | tx buf offset h =>
      have heq := configure_tx hs buf offset h
      exact hkeep heq rfl rfl ⟨_, heq⟩ id
    | advTx buf offset h =>
      have heq := configure_advTx hs buf offset h
      exact hkeep heq rfl rfl ⟨_, heq⟩ id
    | slotData rest h =>
      refine ⟨fun hin => absurd hin.1 (not_contained_slotData hlong rest h), fun hnot => ?_⟩
      exact absurd trivial (hnot _ List.mem_cons_self)

/-- What a run without frames leaves in the slot, from values last written. -/
theorem run_powers (hs : s.slot.state ≠ .locked) {ws : List ConfigWrite}
    (hnot : ∀ w ∈ ws, ¬ w.IsSlotData) (last : Written) (b : Byte)
    (htx : s.slot.txPower = last.tx.getD b) :
    (run configure s ws).slot.state = s.slot.state ∧
      (run configure s ws).slot.txPower = (ws.foldl Written.add last).tx.getD b ∧
      (ws.foldl Written.add last).slotData = last.slotData := by
  induction ws generalizing s last with
  | nil => exact ⟨rfl, htx, rfl⟩
  | cons w ws ih =>
    obtain ⟨hw, hrest⟩ := List.forall_mem_cons.mp hnot
    rw [run_cons, List.foldl_cons]
    cases w with
    | tx buf offset h =>
      have hslot := congrArg Beacon.slot (configure_tx hs buf offset h)
      rw [slot_setSlot] at hslot
      have hnext := ih (s := configure s (.tx buf offset h)) (by rw [hslot]; exact hs) hrest
        (last.add (.tx buf offset h)) (by
          rw [hslot]
          show memcpyByte s.slot.txPower buf = _
          rw [htx, memcpyByte_getD]
          rfl)
      rw [hslot] at hnext
      exact hnext
    | advTx buf offset h =>
      have hslot := congrArg Beacon.slot (configure_advTx hs buf offset h)
      rw [slot_setSlot] at hslot
      have hnext := ih (s := configure s (.advTx buf offset h)) (by rw [hslot]; exact hs) hrest
        (last.add (.advTx buf offset h)) (by rw [hslot]; exact htx)
      rw [hslot] at hnext
      exact hnext
    | slotData rest h => exact absurd trivial hw

/-- Two bytes that read the same are the same. -/
theorem btGattAttrRead_singleton_inj {a b : Byte}
    (h : ∀ len offset, btGattAttrRead len offset [a] = btGattAttrRead len offset [b]) : a = b := by
  have hread := h 1 0
  simp only [btGattAttrRead] at hread
  injection hread with hlist
  injection hlist

/-- On an unlocked slot, whatever was done to the beacon before: after every sequence of accepted
writes the characteristics read back and the writes keep to their fields exactly when no frame was
written and the advertised power is the radio power. -/
theorem reads_back_iff (following : List Byte) (es : List Event) (ws : List ConfigWrite)
    (hs : (run step (ready following) es).slot.state ≠ .locked) :
    ReadsBack (run step (ready following) es) ws ↔
      SamePowers (run step (ready following) es) ws := by
  have hready : LongFrame (ready following) := by
    show 4 < 19
    decide
  have hlong : LongFrame (run step (ready following) es) :=
    run_invariant step (I := LongFrame) (fun _ e h => longFrame_step h e) hready es
  generalize run step (ready following) es = s at hs hlong ⊢
  have hcontained := along_contained_iff hs hlong ws
  constructor
  · intro h
    have hnot := hcontained.mp h.contained
    obtain ⟨hstate, htx, -⟩ := run_powers hs hnot .none s.slot.txPower rfl
    refine ⟨hnot, fun power hpower => ?_⟩
    refine (btGattAttrRead_singleton_inj fun len offset => ?_)
    have hread := h.advTx power hpower len offset
    rw [readAdvTxPower, readUnlessLocked, if_neg (by rw [hstate]; exact hs), htx] at hread
    exact hread
  · rintro ⟨hnot, hsame⟩
    obtain ⟨hstate, htx, hdata⟩ := run_powers hs hnot .none s.slot.txPower rfl
    have hunlocked : (run configure s ws).slot.state ≠ .locked := by
      rw [hstate]
      exact hs
    refine ⟨fun power hpower len offset => ?_, fun power hpower len offset => ?_,
      fun rest hrest => ?_, hcontained.mpr hnot⟩
    · rw [readTxPower, readUnlessLocked, if_neg hunlocked, htx]
      show btGattAttrRead len offset [(written ws).tx.getD _] = _
      rw [hpower]
      rfl
    · rw [readAdvTxPower, readUnlessLocked, if_neg hunlocked, htx]
      show btGattAttrRead len offset [(written ws).tx.getD _] = _
      rw [hsame power hpower]
    · exact absurd (hdata.symm.trans hrest) nofun

/-- The radio power, written in two ways, reads back. -/
theorem reads_back_tx :
    ReadsBack (run step (ready []) [.disconnected])
      [.tx [0x7f] 0 (by decide), .tx [] 1 (by decide)] :=
  (reads_back_iff [] [.disconnected] _ (by decide)).mpr ⟨by simp [ConfigWrite.IsSlotData], nofun⟩

/-- The advertised power reads as the radio power, and a written frame as the old one, cut off. -/
theorem not_reads_back :
    ¬ ReadsBack (ready []) [.advTx [0x05] 0 (by decide)] ∧
      ¬ ReadsBack (ready []) [.slotData [0x02, 0x61] (by decide)] := by
  constructor
  · intro h
    exact absurd (h.advTx 0x05 rfl 1 0) (by decide)
  · intro h
    obtain ⟨power, hread⟩ := h.slotData [0x02, 0x61] rfl
    have hthird : readAdvData (run configure (ready []) [.slotData [0x02, 0x61] (by decide)]) 1 2
        = .ok [0x02] := hread 1 2
    exact absurd hthird (by decide)

end Eddystone
end ZephyrSamples
