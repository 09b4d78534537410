import ZephyrSamples.Lib.Mailbox
import ZephyrSamples.Lighting.Server
import ZephyrSamples.Lighting.Storage

/-!
# Requests to save

`save_on_flash` leaves a request in `storage_id` and queues `storage_work`, which serves the request
it finds when it runs.  A request is lost when another one replaces it first and it is not made
again.  The file ends with the equivalence: all requests of a run are served exactly when every
request that is replaced is made again later.
-/

namespace ZephyrSamples
namespace Lighting
namespace Storage

open Runs

/-- What happens to the storage: a call of `save_on_flash`, a change of the memory by the rest of
the program, and a turn of the work queue. -/
inductive Event where
  | saveOnFlash (id : UInt8)
  | memory (memory : Server)
  | workQueue

/-- The mark of the item is cleared before its handler runs. -/
def step (n : Storage) : Event → Storage
  | .saveOnFlash id => n.saveOnFlash id
  | .memory memory => { n with memory := memory }
  | .workQueue => if n.queued then { n with queued := false }.storageWorkHandler else n

/-- The request `storage_work` is queued for. -/
def pending (n : Storage) : Option UInt8 := if n.queued then some n.storageId else none

/-- The request a turn of the work queue serves. -/
def executed (n : Storage) : Event → Option UInt8
  | .saveOnFlash _ => none
  | .memory _ => none
  | .workQueue => n.pending

/-- The call of `save_on_flash` an event makes: the nested one is that of
`save_gen_onpowerup_state`. -/
def requested (n : Storage) : Event → Option UInt8
  | .saveOnFlash id => some id
  | .memory _ => none
  | .workQueue =>
    if n.pending = some PsVariable.genOnpowerupState.id ∧ n.memory.onpowerup = 0x02 then
      some PsVariable.lastTargetStates.id
    else none

/-- The handler leaves `storage_work` queued in one case only. -/
theorem storageWorkHandler_pending {n : Storage} (hidle : n.queued = false) :
    n.storageWorkHandler.pending =
      if n.storageId = PsVariable.genOnpowerupState.id ∧ n.memory.onpowerup = 0x02 then
        some PsVariable.lastTargetStates.id
      else none := by
  have hpending (h : n.queued = false) : n.pending = none := by simp [pending, h]
  cases hid : PsVariable.ofId n.storageId with
  | none =>
    have hne : n.storageId ≠ PsVariable.genOnpowerupState.id := by
      intro h
      rw [h, PsVariable.ofId_id] at hid
      exact absurd hid nofun
    rw [storageWorkHandler_of_none hid, hpending hidle, if_neg fun h => hne h.1]
  | some v =>
    have hv := PsVariable.eq_id_of_ofId hid
    unfold storageWorkHandler
    rw [hid, hv]
    cases v
    case genOnpowerupState =>
      dsimp only [saveGenOnpowerupState]
      split
      case isTrue hrestore => exact (if_pos ⟨rfl, hrestore⟩).symm
      case isFalse hrestore => exact (hpending hidle).trans (if_neg fun h => hrestore h.2).symm
    all_goals
      rw [if_neg fun h => absurd h.1 (by decide)]
      exact hpending hidle

/-- `storage_id` with the pending mark is a mailbox with one slot. -/
def mailbox : Mailbox step UInt8 where
  slot := pending
  take := executed
  put := requested
  slot_of_take {n e i} h := by
    cases e with
    | saveOnFlash id => exact absurd h nofun
    | memory memory => exact absurd h nofun
    | workQueue => exact h
  slot_step n e := by
    cases e with
    | saveOnFlash id => rfl
    | memory memory => rfl
    | workQueue =>
      show pending (if n.queued then _ else _) = Option.or (requested n _)
        (if n.pending.isSome then _ else _)
      by_cases hq : n.queued
      · have hsome : n.pending = some n.storageId := if_pos hq
        rw [if_pos hq, storageWorkHandler_pending rfl, requested, hsome]
        simp
      · have hnone : n.pending = none := if_neg hq
        rw [if_neg hq, requested, hnone]
        simp

/-! ## What a run saves -/

/-- The event requests a save of the group. -/
def Requests (v : PsVariable) (n : Storage) (e : Event) : Prop := n.requested e = some v.id

/-- The event replaces a request to save the group, before it is served. -/
def Replaces (v : PsVariable) (n : Storage) (e : Event) : Prop :=
  n.pending = some v.id ∧ n.executed e = none ∧ n.requested e ≠ none ∧
    n.requested e ≠ some v.id

instance (v : PsVariable) (n : Storage) (e : Event) : Decidable (Requests v n e) :=
  inferInstanceAs (Decidable (_ = _))

instance (v : PsVariable) (n : Storage) (e : Event) : Decidable (Replaces v n e) :=
  inferInstanceAs (Decidable (_ ∧ _ ∧ _ ∧ _))

/-- In the run from `n` the work queue writes the group, and what the flash holds of it at the end
is what the memory held then. -/
def Saves (v : PsVariable) (n : Storage) (es : List Event) : Prop :=
  ∃ pre post, es = pre ++ .workQueue :: post ∧ (run step n pre).pending = some v.id ∧
    ∀ k ∈ v.keys, (run step n es).flash k = some (k.saved (run step n pre).memory)

/-- A turn of the work queue writes the group it is queued for, and nothing else. -/
theorem workQueue_flash {v : PsVariable} {n : Storage} (h : n.pending = some v.id) (k : PsKey) :
    (step n .workQueue).flash k = if k ∈ v.keys then some (k.saved n.memory) else n.flash k := by
  have hq : n.queued := by
    by_contra hq
    exact absurd ((if_neg hq).symm.trans h) nofun
  have hid : n.storageId = v.id := Option.some.inj ((if_pos hq).symm.trans h)
  show (if n.queued then _ else _ : Storage).flash k = _
  rw [if_pos hq]
  exact storageWorkHandler_flash (n := { n with queued := false }) hid k

theorem step_flash_of_not_takes {v : PsVariable} {n : Storage} {e : Event}
    (h : ¬mailbox.Takes v.id n e) {k : PsKey} (hk : k ∈ v.keys) :
    (step n e).flash k = n.flash k := by
  cases e with
  | saveOnFlash id => rfl
  | memory memory => rfl
  | workQueue =>
    by_cases hq : n.queued
    · have hpending : n.pending = some n.storageId := if_pos hq
      cases hid : PsVariable.ofId n.storageId with
      | none =>
        show (if n.queued then _ else _ : Storage).flash k = _
        rw [if_pos hq, storageWorkHandler_of_none (n := { n with queued := false }) hid]
      | some w =>
        rw [PsVariable.eq_id_of_ofId hid] at hpending
        rw [workQueue_flash hpending]
        refine if_neg fun hw => h ?_
        rw [PsVariable.eq_of_mem_keys hk hw]
        exact hpending
    · exact congrArg (fun n : Storage => n.flash k) (if_neg hq)

theorem run_flash_of_not_takes {v : PsVariable} {n : Storage} {es : List Event}
    (h : ¬Sometime step (mailbox.Takes v.id) n es) {k : PsKey} (hk : k ∈ v.keys) :
    (run step n es).flash k = n.flash k := by
  induction es generalizing n with
  | nil => rfl
  | cons e es ih =>
    rw [run_cons, ih fun hlater => h (Or.inr hlater)]
    exact step_flash_of_not_takes (fun hnow => h (Or.inl hnow)) hk

/-- The group is written if and only if the work queue takes a request for it: the last time counts
for the values at the end. -/
theorem saves_iff_takes {v : PsVariable} {n : Storage} {es : List Event} :
    Saves v n es ↔ Sometime step (mailbox.Takes v.id) n es := by
  constructor
  · rintro ⟨pre, post, rfl, hpending, -⟩
    induction pre generalizing n with
    | nil => exact Or.inl hpending
    | cons e pre ih => exact Or.inr (ih hpending)
  · intro h
    induction es generalizing n with
    | nil => exact h.elim
    | cons e es ih =>
      by_cases hlater : Sometime step (mailbox.Takes v.id) (step n e) es
      · obtain ⟨pre, post, rfl, hpending, hflash⟩ := ih hlater
        exact ⟨e :: pre, post, rfl, hpending, hflash⟩
      · have hnow : mailbox.Takes v.id n e := h.resolve_right hlater
        cases e with
        | saveOnFlash id => exact absurd hnow nofun
        | memory memory => exact absurd hnow nofun
        | workQueue =>
          have hpending : n.pending = some v.id := hnow
          refine ⟨[], es, rfl, hpending, fun k hk => ?_⟩
          rw [run_cons, run_flash_of_not_takes hlater hk, workQueue_flash hpending, if_pos hk]
          rfl

/-- A run from an idle storage to an idle storage saves every group after every request for it if
and only if every request that is replaced is made again later. -/
theorem saves_iff_renews {n : Storage} {es : List Event} (hstart : n.queued = false)
    (hend : (run step n es).queued = false) :
    (∀ v, After step (Requests v) (Saves v) n es) ↔
      ∀ v, After step (Replaces v) (Sometime step (Requests v)) n es := by
  have hidle (n : Storage) (h : n.queued = false) : mailbox.slot n = none := by
    show n.pending = none
    simp [pending, h]
  have hserved (v : PsVariable) :
      After step (mailbox.Puts v.id) (Sometime step (mailbox.Takes v.id)) n es ↔
        After step (mailbox.Overwrites v.id) (Sometime step (mailbox.Puts v.id)) n es :=
    Mailbox.served_iff (hidle n hstart) (hidle _ hend)
  constructor
  · intro h v
    exact (hserved v).mp ((h v).imp step fun _ _ => saves_iff_takes.mp)
  · intro h v
    exact ((hserved v).mpr (h v)).imp step fun _ _ => saves_iff_takes.mpr

/-- The storage of a node that restores its state at power up. -/
def restoring : Storage where
  memory := { lightDefaultVarInit with onpowerup := stateRestore }

/-- The work queue keeps up: each request is served before the next, the one made by
`save_gen_onpowerup_state` included. -/
theorem saves_targets_of_nested :
    After step (Requests .lastTargetStates) (Saves .lastTargetStates) restoring
      [.saveOnFlash PsVariable.genOnpowerupState.id, .workQueue, .workQueue,
        .saveOnFlash PsVariable.lightnessLastState.id, .workQueue] :=
  (saves_iff_renews rfl rfl).mpr (fun v => by cases v <;> decide) .lastTargetStates

/-- `set_target` requests the targets, `no_transition_work_handler` the last lightness before the
work queue gets to `storage_work`: the targets are never saved. -/
theorem not_saves_targets :
    (run step restoring
      [.saveOnFlash PsVariable.lastTargetStates.id, .saveOnFlash PsVariable.lightnessLastState.id,
        .workQueue]).queued = false ∧
      ¬After step (Requests .lastTargetStates) (Saves .lastTargetStates) restoring
        [.saveOnFlash PsVariable.lastTargetStates.id,
          .saveOnFlash PsVariable.lightnessLastState.id, .workQueue] := by
  refine ⟨rfl, fun h => ?_⟩
  have hsaved := saves_iff_takes.mp (h.1 rfl)
  rcases hsaved with hsaved | hsaved | hsaved
  · exact absurd hsaved nofun
  · exact absurd hsaved (by decide)
  · exact hsaved

end Storage
end Lighting
end ZephyrSamples
