import ZephyrSamples.Eddystone.Service

/-!
# The recorded type and the advertising

`eds_slot_restart` stops the advertising, starts another one and records the type of what it has
started.  The record agrees with the advertising, and a refused write changes nothing, exactly in
the runs in which the advertising starts each time it is restarted. -/

namespace ZephyrSamples
namespace Eddystone

open Runs

structure Agrees (s : Beacon) : Prop where
  url : s.slot.type = .url ↔ s.adv = .nonConnectable s.slot.ad
  none : s.slot.type = .none ↔ s.adv = .connectable ∨ s.adv = .heldByConnection

/-- What a write of slot data is about. -/
structure SameAdv (s t : Beacon) : Prop where
  ad : s.slot.ad = t.slot.ad
  type : s.slot.type = t.slot.type
  adv : s.adv = t.adv

def FailedWriteKeeps (s : Beacon) : Event → Prop
  | .write .data buf offset stale err =>
    (∃ e, answer s (.write .data buf offset stale err) = .error e) →
      SameAdv (step s (.write .data buf offset stale err)) s
  | _ => True

/-- The advertising starts if the event restarts it. -/
def Starts (s : Beacon) : Event → Prop
  | .write .data buf offset _ err =>
    s.slot.state ≠ .locked → offset = 0 →
      buf.length = 0 ∨ (buf.length ≤ 19 ∧ buf.headD 0 = EdsType.url.byte) → err = false
  | .idleTimeout err => s.idleWork = true → s.slot.type = .none → err = false
  | _ => True

/-- The types that are ever recorded. -/
def Recorded (s : Beacon) : Prop := s.slot.type = .url ∨ s.slot.type = .none

variable {s t : Beacon} {len offset : Nat} {buf : List Byte}

theorem sameAdv_refl (s : Beacon) : SameAdv s s := ⟨rfl, rfl, rfl⟩

theorem SameAdv.agrees_iff (h : SameAdv s t) : Agrees s ↔ Agrees t := by
  obtain ⟨had, htype, hadv⟩ := h
  constructor
  · rintro ⟨hurl, hnone⟩
    rw [had, htype, hadv] at hurl
    rw [htype, hadv] at hnone
    exact ⟨hurl, hnone⟩
  · rintro ⟨hurl, hnone⟩
    rw [← had, ← htype, ← hadv] at hurl
    rw [← htype, ← hadv] at hnone
    exact ⟨hurl, hnone⟩

theorem SameAdv.recorded (h : SameAdv s t) (ht : Recorded t) : Recorded s := by
  unfold Recorded
  rwa [h.type]

theorem sameAdv_of_edited (h : Edited s t) : SameAdv t s := ⟨h.ad, h.type, h.adv⟩

/-! ## One event -/

theorem agrees_edsSlotRestart_iff (h : Recorded s) {type : EdsType}
    (htype : type = .url ∨ type = .none) (err : Bool) :
    Agrees (edsSlotRestart s type err).2 ↔ err = false := by
  cases err with
  | true =>
    refine ⟨fun hagrees => ?_, fun hno => nomatch hno⟩
    rcases h with hurl | hnone
    · exact nomatch hagrees.url.mp hurl
    · rcases hagrees.none.mp hnone with hadv | hadv <;> cases hadv
  | false =>
    refine ⟨fun _ => rfl, fun _ => ?_⟩
    have hslot := slot_edsSlotRestart s type false
    have hadv := adv_edsSlotRestart s type false
    rcases htype with rfl | rfl
    · exact ⟨by simp [hslot, hadv], by simp [hslot, hadv]⟩
    · exact ⟨by simp [hslot, hadv], by simp [hslot, hadv]⟩

theorem recorded_edsSlotRestart (h : Recorded s) {type : EdsType}
    (htype : type = .url ∨ type = .none) (err : Bool) : Recorded (edsSlotRestart s type err).2 := by
  unfold Recorded
  rw [slot_edsSlotRestart]
  split
  · exact h
  · exact htype

/-- What a write of slot data does: it clears the slot, it restarts it with the frame it has
written, or it is refused at once. -/
theorem writeAdvData_cases (s : Beacon) (buf : List Byte) (offset : Nat) (err : Bool) :
    (s.slot.state ≠ .locked ∧ offset = 0 ∧ buf.length = 0 ∧
      writeAdvData s buf offset err = (.ok 0, (edsSlotRestart s .none err).2)) ∨
    (s.slot.state ≠ .locked ∧ offset = 0 ∧ (buf.length ≤ 19 ∧ buf.headD 0 = EdsType.url.byte) ∧
      writeAdvData s buf offset err =
        (if err then .error .unlikely else .ok buf.length,
          (edsSlotRestart (setFrame s buf) .url err).2)) ∨
    (¬ (s.slot.state ≠ .locked ∧ offset = 0 ∧
        (buf.length = 0 ∨ (buf.length ≤ 19 ∧ buf.headD 0 = EdsType.url.byte))) ∧
      ∃ e, writeAdvData s buf offset err = (.error e, s)) := by
  unfold writeAdvData
  by_cases hlocked : s.slot.state = .locked
  · rw [if_pos hlocked]
    exact .inr (.inr ⟨fun h => h.1 hlocked, _, rfl⟩)
  rw [if_neg hlocked]
  by_cases hoffset : offset ≠ 0
  · rw [if_pos hoffset]
    exact .inr (.inr ⟨fun h => hoffset h.2.1, _, rfl⟩)
  rw [if_neg hoffset]
  have hzero : offset = 0 := not_not.mp hoffset
  by_cases hlen : buf.length = 0
  · rw [if_pos hlen]
    exact .inl ⟨hlocked, hzero, hlen, rfl⟩
  rw [if_neg hlen]
  by_cases hlong : buf.length > 19
  · rw [if_pos hlong]
    exact .inr (.inr ⟨by omega, _, rfl⟩)
  rw [if_neg hlong]
  by_cases hurl : buf.headD 0 = EdsType.url.byte
  · rw [if_pos hurl]
    refine .inr (.inl ⟨hlocked, hzero, ⟨Nat.not_lt.mp hlong, hurl⟩, ?_⟩)
    cases err <;> rfl
  · rw [if_neg hurl]
    refine .inr (.inr ⟨fun h => ?_, _, rfl⟩)
    rcases h.2.2 with hnil | hframe
    · exact hlen hnil
    · exact hurl hframe.2

theorem agrees_writeAdvData_iff (h : Recorded s) (ha : Agrees s) (stale : Byte) (err : Bool) :
    Agrees (writeAdvData s buf offset err).2 ↔ Starts s (.write .data buf offset stale err) := by
  obtain ⟨hlocked, hzero, hlen, heq⟩ | ⟨hlocked, hzero, hurl, heq⟩ | ⟨hnot, e, heq⟩ :=
    writeAdvData_cases s buf offset err
  · rw [heq]
    show Agrees (edsSlotRestart s .none err).2 ↔ _
    rw [agrees_edsSlotRestart_iff h (.inr rfl)]
    exact ⟨fun herr _ _ _ => herr, fun hstarts => hstarts hlocked hzero (.inl hlen)⟩
  · have hframe : Recorded (setFrame s buf) := by
      unfold Recorded
      rwa [setFrame_type]
    rw [heq]
    show Agrees (edsSlotRestart (setFrame s buf) .url err).2 ↔ _
    rw [agrees_edsSlotRestart_iff hframe (.inl rfl)]
    exact ⟨fun herr _ _ _ => herr, fun hstarts => hstarts hlocked hzero (.inr hurl)⟩
  · rw [heq]
    exact ⟨fun _ hl hz hb => absurd ⟨hl, hz, hb⟩ hnot, fun _ => ha⟩

theorem recorded_writeAdvData (h : Recorded s) (err : Bool) :
    Recorded (writeAdvData s buf offset err).2 := by
  obtain ⟨-, -, -, heq⟩ | ⟨-, -, -, heq⟩ | ⟨-, e, heq⟩ := writeAdvData_cases s buf offset err
  · rw [heq]
    exact recorded_edsSlotRestart h (.inr rfl) err
  · have hframe : Recorded (setFrame s buf) := by
      unfold Recorded
      rwa [setFrame_type]
    rw [heq]
    exact recorded_edsSlotRestart hframe (.inl rfl) err
  · rw [heq]
    exact h

theorem recorded_step {e : Event} (h : Recorded s) : Recorded (step s e) := by
  cases e with
  | read chrc len offset rand => exact (sameAdv_of_edited (edited_read chrc rand)).recorded h
  | write chrc buf offset stale err =>
    by_cases hchrc : chrc = .data
    · subst hchrc
      exact recorded_writeAdvData h err
    · exact (sameAdv_of_edited (edited_write hchrc stale err)).recorded h
  | connected err =>
    simp only [step, connected]
    split <;> exact h
  | disconnected =>
    simp only [step, disconnected]
    split <;> exact h
  | idleTimeout err =>
    simp only [step, idleTimeout]
    split
    · split
      · exact recorded_edsSlotRestart (s := { s with idleWork := false }) h (.inl rfl) err
      · exact h
    · exact h
  | resumed =>
    simp only [step, resumed]
    split <;> exact h

theorem agrees_idleTimeout_iff (h : Recorded s) (ha : Agrees s) (err : Bool) :
    Agrees (idleTimeout s err) ↔ Starts s (.idleTimeout err) := by
  unfold idleTimeout
  by_cases hidle : s.idleWork = true
  · rw [if_pos hidle]
    show Agrees (if s.slot.type = .none
      then (edsSlotRestart { s with idleWork := false } .url err).2
      else { s with idleWork := false }) ↔ _
    by_cases hnone : s.slot.type = .none
    · have hrestart :
          Agrees (edsSlotRestart { s with idleWork := false } .url err).2 ↔ err = false :=
        agrees_edsSlotRestart_iff (s := { s with idleWork := false }) h (.inl rfl) err
      rw [if_pos hnone, hrestart]
      exact ⟨fun herr _ _ => herr, fun hstarts => hstarts hidle hnone⟩
    · rw [if_neg hnone]
      exact ⟨fun _ _ hno => absurd hno hnone, fun _ => ⟨ha.url, ha.none⟩⟩
  · rw [if_neg hidle]
    exact ⟨fun _ hno => absurd hno hidle, fun _ => ha⟩

/-- Connections and the stack move between the two ways of being recorded as nothing. -/
theorem agrees_of_moved (ha : Agrees s) (hslot : t.slot = s.slot)
    (hs : s.adv = .connectable ∨ s.adv = .heldByConnection)
    (ht : t.adv = .connectable ∨ t.adv = .heldByConnection) : Agrees t := by
  have hnone : t.slot.type = .none := by
    rw [hslot]
    exact ha.none.mpr hs
  rcases ht with hadv | hadv
  · exact ⟨by simp [hnone, hadv], by simp [hnone, hadv]⟩
  · exact ⟨by simp [hnone, hadv], by simp [hnone, hadv]⟩

theorem agrees_connected (ha : Agrees s) (err : Bool) : Agrees (connected s err) := by
  unfold connected
  cases err with
  | true => exact ha
  | false =>
    rw [if_neg Bool.false_ne_true]
    by_cases hadv : s.adv = .connectable
    · rw [if_pos hadv]
      exact agrees_of_moved ha rfl (.inl hadv) (.inr rfl)
    · rw [if_neg hadv]
      exact ⟨ha.url, ha.none⟩

theorem agrees_resumed (ha : Agrees s) : Agrees (resumed s) := by
  unfold resumed
  split
  · exact agrees_of_moved ha rfl (.inr ‹_›) (.inl rfl)
  · exact ha

theorem agrees_step_iff {e : Event} (h : Recorded s) (ha : Agrees s) :
    Agrees (step s e) ↔ Starts s e := by
  cases e with
  | read chrc len offset rand =>
    exact ⟨fun _ => trivial, fun _ => (sameAdv_of_edited (edited_read chrc rand)).agrees_iff.mpr ha⟩
  | write chrc buf offset stale err =>
    by_cases hchrc : chrc = .data
    · subst hchrc
      exact agrees_writeAdvData_iff h ha stale err
    · have hstarts : Starts s (.write chrc buf offset stale err) := by
        cases chrc <;> first | exact absurd rfl hchrc | trivial
      exact ⟨fun _ => hstarts,
        fun _ => (sameAdv_of_edited (edited_write hchrc stale err)).agrees_iff.mpr ha⟩
  | connected err => exact ⟨fun _ => trivial, fun _ => agrees_connected ha err⟩
  | disconnected =>
    refine ⟨fun _ => trivial, fun _ => ?_⟩
    simp only [step, disconnected]
    split
    · exact ⟨ha.url, ha.none⟩
    · exact ha
  | idleTimeout err => exact agrees_idleTimeout_iff h ha err
  | resumed => exact ⟨fun _ => trivial, fun _ => agrees_resumed ha⟩

theorem failedWriteKeeps_of_starts {e : Event} (h : Starts s e) : FailedWriteKeeps s e := by
  cases e with
  | write chrc buf offset stale err =>
    cases chrc with
    | data =>
      rintro ⟨e, he⟩
      show SameAdv (writeAdvData s buf offset err).2 s
      change Answer.ofWrite (writeAdvData s buf offset err).1 = .error e at he
      obtain ⟨-, -, -, heq⟩ | ⟨hlocked, hzero, hurl, heq⟩ | ⟨-, e, heq⟩ :=
        writeAdvData_cases s buf offset err
      · rw [heq] at he
        cases he
      · have herr : err = false := h hlocked hzero (.inr hurl)
        rw [heq, herr] at he
        cases he
      · rw [heq]
        exact sameAdv_refl s
    | _ => trivial
  | _ => trivial

/-- Every run, with every outcome of the starts. -/
theorem advertising_agrees_iff_starts (following : List Byte) (es : List Event) :
    Always step Agrees (ready following) es ∧ Along step FailedWriteKeeps (ready following) es ↔
      Along step Starts (ready following) es := by
  have hready : Agrees (ready following) := ⟨⟨nofun, nofun⟩, ⟨fun _ => .inl rfl, fun _ => rfl⟩⟩
  have hiff : Always step Agrees (ready following) es ↔ Along step Starts (ready following) es :=
    always_iff_along step (fun _ _ h => recorded_step h) (fun _ _ h ha => agrees_step_iff h ha)
      (.inr rfl) hready es
  constructor
  · exact fun h => hiff.mp h.1
  · intro h
    exact ⟨hiff.mpr h, h.imp_of_invariant step (I := fun _ => True)
      (fun _ _ _ hstarts => ⟨trivial, failedWriteKeeps_of_starts hstarts⟩) trivial⟩

/-- The advertising does not start after the frame has been written: the write is refused, the frame
is shorter and nothing is advertised. -/
theorem refused_write_shortens_frame :
    ¬ (Always step Agrees (ready [])
        [.connected false, .write .data [0x10, 0x00, 0x61] 0 0 true] ∧
      Along step FailedWriteKeeps (ready [])
        [.connected false, .write .data [0x10, 0x00, 0x61] 0 0 true]) := by
  rintro ⟨-, -, hkeeps, -⟩
  have hsame : SameAdv _ _ := hkeeps ⟨.unlikely, rfl⟩
  have hlen := congrArg (fun ad => ad.svcData.dataLen) hsame.ad
  exact absurd hlen (by decide)

end Eddystone
end ZephyrSamples
