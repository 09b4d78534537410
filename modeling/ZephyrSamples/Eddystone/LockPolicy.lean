import ZephyrSamples.Lib.Observation
import ZephyrSamples.Eddystone.Service

/-!
# The lock policy

What the comments of `eds_svc` say of a locked slot, and which requests it holds for.  A locked slot
stays locked, whatever the client does; the handlers of four characteristics do not look at the
lock, and a run keeps the policy exactly when no request of it is answered by one of them. -/

namespace ZephyrSamples
namespace Eddystone

open Runs Observation

def Locked (s : Beacon) : Prop := s.slot.state = .locked

instance (s : Beacon) : Decidable (Locked s) := inferInstanceAs (Decidable (_ = _))

/-- The requests that a locked slot refuses: all but reading Lock State, reading and writing Unlock,
and reading Remain Connectable. -/
def Protected : Event → Prop
  | .read chrc _ _ _ => chrc ≠ .lock ∧ chrc ≠ .unlock ∧ chrc ≠ .connectable
  | .write chrc _ _ _ _ => chrc ≠ .unlock
  | _ => False

/-- The answer is an error, and neither the slots nor the advertising change. -/
structure Refused (s : Beacon) (e : Event) : Prop where
  error : ∃ err, answer s e = .error err
  edsSlots : (step s e).edsSlots = s.edsSlots
  edsActiveSlot : (step s e).edsActiveSlot = s.edsActiveSlot
  adv : (step s e).adv = s.adv

def LockedRefuses (s : Beacon) (e : Event) : Prop := Locked s → Protected e → Refused s e

/-- Along a run a locked slot refuses the protected requests, and from where it is locked on the
client is told what it would be told with any other capabilities, powers, slot data and keys. -/
structure LockPolicy (s : Beacon) (es : List Event) : Prop where
  refused : Along step LockedRefuses s es
  concealed : ∀ before after, es = before ++ after → Locked (run step s before) →
    ∀ t, Locked t → answers step answer (run step s before) after = answers step answer t after

/-- A request that its handler grants without looking at the lock. -/
def Unchecked : Event → Prop
  | .read .caps _ offset _ => offset ≤ 7
  | .read .slot _ offset _ => offset ≤ 1
  | .read .ecdh _ offset _ => offset ≤ 32
  | .read .eid _ offset _ => offset ≤ 16
  | .write .slot buf offset stale _ => offset + buf.length ≤ 1 ∧ memcpyByte stale buf = 0
  | _ => False

def LockChecked (s : Beacon) (e : Event) : Prop := Locked s → ¬ Unchecked e

/-! ## The handlers of a locked slot -/

variable {s t : Beacon} {len offset : Nat} {buf : List Byte}

theorem btGattAttrRead_of_lt {value : List Byte} (h : value.length < offset) :
    btGattAttrRead len offset value = .error .invalidOffset :=
  if_pos h

theorem btGattAttrRead_of_le {value : List Byte} (h : offset ≤ value.length) :
    btGattAttrRead len offset value = .ok ((value.drop offset).take len) :=
  if_neg (Nat.not_lt.mpr h)

theorem readUnlessLocked_of_locked (h : Locked s) (err : AttErr) (value : List Byte) :
    readUnlessLocked s err len offset value = .error err :=
  if_pos h

theorem writeUnlessLocked_of_locked (h : Locked s) (slot : EdsSlot) :
    writeUnlessLocked s buf offset slot = (.error .writeNotPermitted, s) :=
  if_pos h

theorem length_bytes (caps : EdsCapabilities) : caps.bytes.length = 7 := rfl

/-- What a locked slot answers to a request, if it is not one of those the lock is
not checked for. -/
def lockedAnswer : Event → Answer
  | .read .caps _ _ _ => .error .invalidOffset
  | .read .slot _ _ _ => .error .invalidOffset
  | .read .intv _ _ _ => .error .writeNotPermitted
  | .read .lock len offset _ => .ofRead (btGattAttrRead len offset [EdsState.locked.byte])
  | .read .unlock len offset rand =>
    match rand with
    | none => .error .unlikely
    | some bytes => .ofRead (btGattAttrRead len offset (List.ofFn bytes))
  | .read .ecdh _ _ _ => .error .invalidOffset
  | .read .eid _ _ _ => .error .invalidOffset
  | .read .connectable len offset _ => .ofRead (readConnectable len offset)
  | .read _ _ _ _ => .error .readNotPermitted
  | .write .slot buf offset _ _ =>
    if offset + buf.length > 1 then .error .invalidOffset else .error .writeNotPermitted
  | .write .unlock _ _ _ _ => .error .notSupported
  | .write .data _ _ _ _ => .error .readNotPermitted
  | .write _ _ _ _ _ => .error .writeNotPermitted
  | _ => .none

theorem writeSlot_of_not_unchecked {stale : Byte}
    (h : ¬ (offset + buf.length ≤ 1 ∧ memcpyByte stale buf = 0)) :
    writeSlot s buf offset stale =
      (if offset + buf.length > 1 then .error .invalidOffset else .error .writeNotPermitted,
        s) := by
  unfold writeSlot
  by_cases hlen : offset + buf.length > 1
  · rw [if_pos hlen, if_pos hlen]
  · have hvalue : memcpyByte stale buf ≠ 0 := fun hzero => h ⟨Nat.not_lt.mp hlen, hzero⟩
    have hpos : (memcpyByte stale buf).toNat ≠ 0 := fun hzero =>
      hvalue (UInt8.toNat_inj.mp hzero)
    have hmany : (memcpyByte stale buf).toNat + 1 > numberOfSlots := by
      show 1 < _ + 1
      omega
    rw [if_neg hlen, if_neg hlen]
    exact dif_pos hmany

theorem ofRead_of_lt {value : List Byte} {size : Nat} (hsize : value.length = size)
    (h : ¬ offset ≤ size) :
    Answer.ofRead (btGattAttrRead len offset value) = .error .invalidOffset := by
  rw [btGattAttrRead_of_lt (by omega)]
  rfl

theorem answer_of_locked {e : Event} (h : Locked s) (he : ¬ Unchecked e) :
    answer s e = lockedAnswer e := by
  have hstate : s.slot.state = .locked := h
  cases e with
  | read chrc len offset rand =>
    cases chrc with
    | caps => exact ofRead_of_lt (length_bytes s.edsCaps) he
    | slot => exact ofRead_of_lt rfl he
    | intv => exact congrArg Answer.ofRead (readUnlessLocked_of_locked h _ _)
    | tx => exact congrArg Answer.ofRead (readUnlessLocked_of_locked h _ _)
    | advTx => exact congrArg Answer.ofRead (readUnlessLocked_of_locked h _ _)
    | lock =>
      show Answer.ofRead (btGattAttrRead len offset [s.slot.state.byte]) = _
      rw [hstate]
      rfl
    | unlock =>
      show Answer.ofRead (readUnlock s len offset rand).1 = _
      unfold readUnlock
      rw [if_neg (not_not_intro hstate)]
      cases rand <;> rfl
    | ecdh => exact ofRead_of_lt List.length_ofFn he
    | eid => exact ofRead_of_lt List.length_ofFn he
    | data => exact congrArg Answer.ofRead (if_pos hstate)
    | reset => rfl
    | connectable => rfl
  | write chrc buf offset stale err =>
    cases chrc with
    | slot =>
      show Answer.ofWrite (writeSlot s buf offset stale).1 = _
      rw [writeSlot_of_not_unchecked he]
      simp only [lockedAnswer]
      split <;> rfl
    | tx => exact congrArg (Answer.ofWrite ∘ Prod.fst) (writeUnlessLocked_of_locked h _)
    | advTx => exact congrArg (Answer.ofWrite ∘ Prod.fst) (writeUnlessLocked_of_locked h _)
    | lock => exact congrArg (Answer.ofWrite ∘ Prod.fst) (if_pos hstate)
    | unlock => exact congrArg Answer.ofWrite (if_neg (not_not_intro hstate))
    | data => exact congrArg (Answer.ofWrite ∘ Prod.fst) (if_pos hstate)
    | connectable => exact congrArg (Answer.ofWrite ∘ Prod.fst) (if_pos hstate)
    | _ => rfl
  | _ => rfl

theorem step_of_locked {e : Event} (h : Locked s) (hprotected : Protected e) (he : ¬ Unchecked e) :
    step s e = s := by
  have hstate : s.slot.state = .locked := h
  cases e with
  | read chrc len offset rand =>
    cases chrc with
    | unlock => exact absurd rfl hprotected.2.1
    | _ => rfl
  | write chrc buf offset stale err =>
    cases chrc with
    | slot => exact congrArg Prod.snd (writeSlot_of_not_unchecked he)
    | tx => exact congrArg Prod.snd (writeUnlessLocked_of_locked h _)
    | advTx => exact congrArg Prod.snd (writeUnlessLocked_of_locked h _)
    | lock => exact congrArg Prod.snd (if_pos hstate)
    | data => exact congrArg Prod.snd (if_pos hstate)
    | connectable => exact congrArg Prod.snd (if_pos hstate)
    | _ => rfl
  | connected err => exact hprotected.elim
  | disconnected => exact hprotected.elim
  | idleTimeout err => exact hprotected.elim
  | resumed => exact hprotected.elim

theorem lockedAnswer_error {e : Event} (hprotected : Protected e) :
    ∃ err, lockedAnswer e = .error err := by
  cases e with
  | read chrc len offset rand =>
    cases chrc with
    | lock => exact absurd rfl hprotected.1
    | unlock => exact absurd rfl hprotected.2.1
    | connectable => exact absurd rfl hprotected.2.2
    | _ => exact ⟨_, rfl⟩
  | write chrc buf offset stale err =>
    cases chrc with
    | slot =>
      simp only [lockedAnswer]
      split <;> exact ⟨_, rfl⟩
    | _ => exact ⟨_, rfl⟩
  | _ => exact hprotected.elim

theorem refused_of_checked {e : Event} (h : Locked s) (hprotected : Protected e)
    (he : ¬ Unchecked e) : Refused s e := by
  have hstep := step_of_locked h hprotected he
  obtain ⟨err, herr⟩ := lockedAnswer_error hprotected
  exact ⟨⟨err, (answer_of_locked h he).trans herr⟩, by rw [hstep], by rw [hstep], by rw [hstep]⟩

theorem granted_of_unchecked {e : Event} (he : Unchecked e) (s : Beacon) (err : AttErr) :
    answer s e ≠ .error err := by
  have hread : ∀ {value : List Byte} {size len offset : Nat}, value.length = size → offset ≤ size →
      Answer.ofRead (btGattAttrRead len offset value) ≠ .error err := by
    intro value size len offset hsize hle
    rw [btGattAttrRead_of_le (Nat.le_trans hle (Nat.le_of_eq hsize.symm))]
    exact (nomatch ·)
  cases e with
  | read chrc len offset rand =>
    cases chrc with
    | caps => exact hread (length_bytes s.edsCaps) he
    | slot => exact hread rfl he
    | ecdh => exact hread List.length_ofFn he
    | eid => exact hread List.length_ofFn he
    | _ => exact he.elim
  | write chrc buf offset stale err =>
    cases chrc with
    | slot =>
      obtain ⟨hlen, hvalue⟩ := he
      have hfew : ¬ (memcpyByte stale buf).toNat + 1 > numberOfSlots := by
        rw [hvalue]
        decide
      show Answer.ofWrite (writeSlot s buf offset stale).1 ≠ _
      unfold writeSlot
      rw [if_neg (Nat.not_lt.mpr hlen)]
      simp only [dif_neg hfew]
      exact (nomatch ·)
    | _ => exact he.elim
  | _ => exact he.elim

theorem protected_of_unchecked {e : Event} (he : Unchecked e) : Protected e := by
  cases e with
  | read chrc len offset rand =>
    cases chrc <;> first | exact he.elim | exact ⟨nofun, nofun, nofun⟩
  | write chrc buf offset stale err => cases chrc <;> first | exact he.elim | exact nofun
  | _ => exact he.elim

theorem lockedRefuses_iff (s : Beacon) (e : Event) : LockedRefuses s e ↔ LockChecked s e := by
  constructor
  · intro h hlocked he
    obtain ⟨err, herr⟩ := (h hlocked (protected_of_unchecked he)).error
    exact granted_of_unchecked he s err herr
  · exact fun h hlocked hprotected => refused_of_checked hlocked hprotected (h hlocked)

/-! ## Every run -/

theorem edsSlotRestart_state (type : EdsType) (err : Bool) :
    (edsSlotRestart s type err).2.slot.state = s.slot.state := by
  rw [slot_edsSlotRestart]
  split <;> rfl

/-- Nothing unlocks a slot. -/
theorem locked_step (h : Locked s) (e : Event) : Locked (step s e) := by
  have hstate : s.slot.state = .locked := h
  cases e with
  | read chrc len offset rand => exact (edited_read chrc rand).locked h
  | write chrc buf offset stale err =>
    by_cases hchrc : chrc = .data
    · subst hchrc
      show (writeAdvData s buf offset err).2.slot.state = .locked
      unfold writeAdvData
      rw [if_pos hstate]
      exact hstate
    · exact (edited_write hchrc stale err).locked h
  | connected err =>
    simp only [step, connected]
    split <;> exact h
  | disconnected =>
    simp only [step, disconnected]
    split <;> exact h
  | idleTimeout err =>
    simp only [step, idleTimeout]
    split
    · split
      · exact (edsSlotRestart_state _ err).trans hstate
      · exact h
    · exact h
  | resumed =>
    simp only [step, resumed]
    split <;> exact h

theorem answers_eq_of_locked {es : List Event} (hs : Locked s) (ht : Locked t)
    (h : ∀ e ∈ es, ¬ Unchecked e) : answers step answer s es = answers step answer t es := by
  refine answers_eq_of_related step answer (R := fun s t => Locked s ∧ Locked t) ?_ ?_ ⟨hs, ht⟩ h
  · rintro s t e ⟨hs, ht⟩ he
    rw [answer_of_locked hs he, answer_of_locked ht he]
  · rintro s t e ⟨hs, ht⟩
    exact ⟨locked_step hs e, locked_step ht e⟩

theorem notMem_of_along {es : List Event} (h : Locked s) (hes : Along step LockChecked s es) :
    ∀ e ∈ es, ¬ Unchecked e := by
  induction es generalizing s with
  | nil => exact fun e he => absurd he List.not_mem_nil
  | cons a es ih =>
    intro e he
    rcases List.mem_cons.mp he with rfl | hmem
    · exact hes.1 h
    · exact ih (locked_step h a) hes.2 e hmem

/-- Every run, from any state. -/
theorem lock_policy_iff_checked (s : Beacon) (es : List Event) :
    LockPolicy s es ↔ Along step LockChecked s es := by
  have hiff : Along step LockedRefuses s es ↔ Along step LockChecked s es :=
    along_congr step lockedRefuses_iff
  constructor
  · exact fun h => hiff.mp h.refused
  · intro h
    refine ⟨hiff.mpr h, ?_⟩
    rintro before after rfl hlocked t ht
    have hafter := ((along_append step).mp h).2
    exact answers_eq_of_locked hlocked ht (notMem_of_along hlocked hafter)

/-- The capabilities are read from a slot that has just been locked. -/
theorem locked_slot_tells_capabilities : ¬ LockPolicy (ready [])
    [.connected false, .write .lock [0x00] 0 0 false, .read .caps 22 0 none] := by
  intro h
  obtain ⟨err, herr⟩ := (h.refused.2.2.1 rfl ⟨nofun, nofun, nofun⟩).error
  cases herr

/-! ## What is told

Of the requests that are not checked, those that read at least one byte of the capabilities or of a
key tell it. -/

def Tells : Event → Prop
  | .read .caps len offset _ => 0 < len ∧ offset < 7
  | .read .ecdh len offset _ => 0 < len ∧ offset < 32
  | .read .eid len offset _ => 0 < len ∧ offset < 16
  | _ => False

theorem sameKeys_edsSlotRestart (type : EdsType) (err : Bool) :
    SameKeys (edsSlotRestart s type err).2 s := by
  cases err <;> exact ⟨rfl, rfl, rfl⟩

theorem sameKeys_writeAdvData (err : Bool) : SameKeys (writeAdvData s buf offset err).2 s := by
  unfold writeAdvData
  split
  · exact ⟨rfl, rfl, rfl⟩
  split
  · exact ⟨rfl, rfl, rfl⟩
  split
  · exact sameKeys_edsSlotRestart _ err
  split
  · exact ⟨rfl, rfl, rfl⟩
  split
  · cases err <;> exact ⟨rfl, rfl, rfl⟩
  · exact ⟨rfl, rfl, rfl⟩

theorem sameKeys_step (s : Beacon) (e : Event) : SameKeys (step s e) s := by
  cases e with
  | read chrc len offset rand => exact (edited_read chrc rand).keys
  | write chrc buf offset stale err =>
    by_cases hchrc : chrc = .data
    · subst hchrc
      exact sameKeys_writeAdvData err
    · exact (edited_write hchrc stale err).keys
  | connected err =>
    simp only [step, connected]
    split <;> exact ⟨rfl, rfl, rfl⟩
  | disconnected =>
    simp only [step, disconnected]
    split <;> exact ⟨rfl, rfl, rfl⟩
  | idleTimeout err =>
    simp only [step, idleTimeout]
    split
    · split
      · exact (sameKeys_edsSlotRestart .url err).trans ⟨rfl, rfl, rfl⟩
      · exact ⟨rfl, rfl, rfl⟩
    · exact ⟨rfl, rfl, rfl⟩
  | resumed =>
    simp only [step, resumed]
    split <;> exact ⟨rfl, rfl, rfl⟩

/-- A locked beacon whose capabilities and keys consist of one byte. -/
def filled (b : Byte) : Beacon :=
  { ready [] with
    edsCaps := { version := b, slots := b, uids := b, advTypes := b,
                 slotTypes := b.toUInt16 * 0x0101, txPower := b }
    edsSlots := fun _ => { initialSlot with state := .locked }
    edsEcdh := fun _ => b
    edsEid := fun _ => b }

theorem btGattAttrRead_replicate {n : Nat} (b : Byte) (h : offset ≤ n) :
    btGattAttrRead len offset (List.replicate n b) =
      .ok (List.replicate (min len (n - offset)) b) := by
  rw [btGattAttrRead_of_le (by rwa [List.length_replicate]), List.drop_replicate,
    List.take_replicate]

theorem read_filled_ne {n : Nat} (hlen : 0 < len) (h : offset < n) :
    Answer.ofRead (btGattAttrRead len offset (List.replicate n 0)) ≠
      Answer.ofRead (btGattAttrRead len offset (List.replicate n 1)) := by
  rw [btGattAttrRead_replicate 0 (Nat.le_of_lt h), btGattAttrRead_replicate 1 (Nat.le_of_lt h)]
  intro heq
  have hbytes := List.replicate_inj.mp (Answer.value.inj heq)
  rcases hbytes.2 with hzero | hbyte
  · omega
  · exact absurd hbyte (by decide)

theorem bytes_filled : (filled 0).edsCaps.bytes = List.replicate 7 0 ∧
    (filled 1).edsCaps.bytes = List.replicate 7 1 := by
  decide

theorem answer_ne_of_tells {e : Event} (he : Tells e) (hs : SameKeys s (filled 0))
    (ht : SameKeys t (filled 1)) : answer s e ≠ answer t e := by
  cases e with
  | read chrc len offset rand =>
    cases chrc with
    | caps =>
      show Answer.ofRead (btGattAttrRead len offset s.edsCaps.bytes) ≠
        Answer.ofRead (btGattAttrRead len offset t.edsCaps.bytes)
      rw [hs.edsCaps, ht.edsCaps, bytes_filled.1, bytes_filled.2]
      exact read_filled_ne he.1 he.2
    | ecdh =>
      show Answer.ofRead (btGattAttrRead len offset (List.ofFn s.edsEcdh)) ≠
        Answer.ofRead (btGattAttrRead len offset (List.ofFn t.edsEcdh))
      rw [hs.edsEcdh, ht.edsEcdh]
      exact read_filled_ne he.1 he.2
    | eid =>
      show Answer.ofRead (btGattAttrRead len offset (List.ofFn s.edsEid)) ≠
        Answer.ofRead (btGattAttrRead len offset (List.ofFn t.edsEid))
      rw [hs.edsEid, ht.edsEid]
      exact read_filled_ne he.1 he.2
    | _ => exact he.elim
  | _ => exact he.elim

/-- A read of no byte, or behind the last one, tells nothing. -/
theorem btGattAttrRead_empty {value value' : List Byte} {size : Nat} (h : value.length = size)
    (h' : value'.length = size) (hnone : ¬ (0 < len ∧ offset < size)) :
    btGattAttrRead len offset value = btGattAttrRead len offset value' := by
  unfold btGattAttrRead
  rw [h, h']
  split
  · rfl
  · have hempty : ∀ {v : List Byte}, v.length = size → (v.drop offset).take len = [] := by
      intro v hv
      apply List.eq_nil_of_length_eq_zero
      rw [List.length_take, List.length_drop, hv]
      omega
    rw [hempty h, hempty h']

theorem answer_eq_of_not_tells {e : Event} (hs : Locked s) (ht : Locked t) (he : ¬ Tells e) :
    answer s e = answer t e := by
  by_cases hun : Unchecked e
  · cases e with
    | read chrc len offset rand =>
      cases chrc with
      | caps =>
        exact congrArg Answer.ofRead (btGattAttrRead_empty (length_bytes _) (length_bytes _) he)
      | slot =>
        have hone : Subsingleton (Fin numberOfSlots) := inferInstanceAs (Subsingleton (Fin 1))
        show Answer.ofRead (readSlot s len offset) = Answer.ofRead (readSlot t len offset)
        unfold readSlot
        rw [Subsingleton.elim s.edsActiveSlot t.edsActiveSlot]
      | ecdh =>
        exact congrArg Answer.ofRead (btGattAttrRead_empty List.length_ofFn List.length_ofFn he)
      | eid =>
        exact congrArg Answer.ofRead (btGattAttrRead_empty List.length_ofFn List.length_ofFn he)
      | _ => exact hun.elim
    | write chrc buf offset stale err =>
      cases chrc with
      | slot =>
        show Answer.ofWrite (writeSlot s buf offset stale).1 =
          Answer.ofWrite (writeSlot t buf offset stale).1
        unfold writeSlot
        simp only
        split
        · rfl
        · split <;> rfl
      | _ => exact hun.elim
    | _ => exact hun.elim
  · rw [answer_of_locked hs hun, answer_of_locked ht hun]

theorem concealed_iff_not_tells (es : List Event) :
    (∀ s t, Locked s → Locked t → answers step answer s es = answers step answer t es) ↔
      ∀ e ∈ es, ¬ Tells e := by
  constructor
  · intro h e hmem he
    refine answers_ne_of_mem step answer
      (R := fun s t => SameKeys s (filled 0) ∧ SameKeys t (filled 1))
      (fun s t hst => answer_ne_of_tells he hst.1 hst.2) ?_ ?_ hmem
      (h (filled 0) (filled 1) rfl rfl)
    · rintro s t e ⟨hs, ht⟩
      exact ⟨(sameKeys_step s e).trans hs, (sameKeys_step t e).trans ht⟩
    · exact ⟨⟨rfl, rfl, rfl⟩, ⟨rfl, rfl, rfl⟩⟩
  · intro h s t hs ht
    refine answers_eq_of_related step answer (R := fun s t => Locked s ∧ Locked t) ?_ ?_ ⟨hs, ht⟩ h
    · rintro s t e ⟨hs, ht⟩ he
      exact answer_eq_of_not_tells hs ht he
    · rintro s t e ⟨hs, ht⟩
      exact ⟨locked_step hs e, locked_step ht e⟩

end Eddystone
end ZephyrSamples
