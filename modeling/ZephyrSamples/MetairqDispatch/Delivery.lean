import Mathlib.Data.List.FinRange
import ZephyrSamples.MetairqDispatch.Statistics

/-!
# From the device to the tables

What comes of the messages of the device: the interrupt, the thread that dispatches, the queues of
the workers and what these record, in any interleaving.  A message may be dropped at a full queue,
and the others reach the worker they are for in the order in which they were sent.
-/

namespace ZephyrSamples
namespace MetairqDispatch

open Runs

/-- The messages sent so far, and `mirq_latencies` and `latencies` of `stats`.  A latency stands for
the message it is of. -/
structure Log where
  state : State
  sent : List Msg
  mirqLatencies : Fin maxEvents → Option Msg
  latencies : ThreadId → Fin latenciesSize → Option Msg

def Log.start : Log where
  state := MetairqDispatch.start
  sent := []
  mirqLatencies _ := none
  latencies _ _ := none

/-- The message that `dev_timer_expired` makes. -/
def State.sends (s : State) : Event → List Msg
  | .devTimerExpired target => if s.armed then [⟨s.msgSeq, target⟩] else []
  | _ => []

/-- What `record_latencies` writes to the tables. -/
def Log.writes (l : Log) : Event → Log
  | .worker t =>
    match (l.state.workers t).pc with
    | .store m lidx =>
      if h : lidx < latenciesSize then
        { l with latencies := Function.update l.latencies m.target
                  (Function.update (l.latencies m.target) ⟨lidx, h⟩ (some m)) }
      else l
    | .incMirq m =>
      if h : l.state.numMirq < maxEvents then
        { l with mirqLatencies := Function.update l.mirqLatencies ⟨l.state.numMirq, h⟩ (some m) }
      else l
    | _ => l
  | _ => l

def Log.step (qemu : Bool) (l : Log) (e : Event) : Log :=
  { l.writes e with state := MetairqDispatch.step qemu l.state e
                    sent := l.sent ++ l.state.sends e }

/-- The message of the worker that it has not counted. -/
def Pc.uncounted : Pc → List Msg
  | .count m => [m]
  | _ => []

/-- The message whose own latency is still to be stored. -/
def Pc.unstored : Pc → List Msg
  | .store m _ => [m]
  | _ => []

/-- The message that was counted and whose latency of the metairq is still to be stored. -/
def Pc.unlogged : Pc → List Msg
  | .store m _ => [m]
  | .incMirq m => [m]
  | _ => []

@[simp] theorem Pc.unlogged_count (m : Msg) : (Pc.count m).unlogged = [] := rfl

@[simp] theorem Pc.unlogged_store (m : Msg) (lidx : Nat) : (Pc.store m lidx).unlogged = [m] := rfl

@[simp] theorem Pc.unlogged_incMirq (m : Msg) : (Pc.incMirq m).unlogged = [m] := rfl

def Worker.waiting (w : Worker) : List Msg := w.pc.uncounted ++ w.msgq

/-- At how many places a message is. -/
def State.placed (s : State) (m : Msg) : Nat :=
  s.hwMsgs.count m + s.fetched.toList.count m + ∑ t, (s.workers t).waiting.count m +
    s.recorded.count m + s.lost.count m

/-- The way to the table of a thread, its end first. -/
def State.lane (s : State) (t : ThreadId) : List Msg :=
  s.recordedFor t ++
    ((s.workers t).waiting ++ (s.fetched.toList ++ s.hwMsgs).filter (·.target = t))

/-- No worker is about to write to a table. -/
def State.Rests (s : State) : Prop := ∀ t, (s.workers t).pc.unlogged = []

instance (s : State) : Decidable s.Rests :=
  inferInstanceAs (Decidable (∀ t, (s.workers t).pc.unlogged = []))

/-- The message of a worker in any of the statements that use it. -/
def Pc.holds (pc : Pc) : List Msg := pc.uncounted ++ pc.unlogged

/-- A table holds a list from its first place on, as far as it goes. -/
def Filled {n : Nat} {α : Type*} (table : Fin n → Option α) (xs : List α) : Prop :=
  ∀ i : Fin n, table i = xs[i.val]?

section Filled

variable {n : Nat} {α : Type*} {table : Fin n → Option α} {xs : List α}

theorem Filled.push (h : Filled table xs) (x : α) (hlt : xs.length < n) :
    Filled (Function.update table ⟨xs.length, hlt⟩ (some x)) (xs ++ [x]) := by
  intro i
  rcases eq_or_ne i ⟨xs.length, hlt⟩ with rfl | hne
  · rw [Function.update_self, List.getElem?_concat_length]
  · have hval : i.val ≠ xs.length := fun heq => hne (Fin.ext heq)
    rw [Function.update_of_ne hne, h i]
    rcases Nat.lt_or_gt_of_ne hval with hlow | hhigh
    · rw [List.getElem?_append_left hlow]
    · rw [List.getElem?_eq_none hhigh.le, List.getElem?_eq_none]
      rw [List.length_append, List.length_singleton]
      exact hhigh

theorem Filled.full (h : Filled table xs) (x : α) (hge : n ≤ xs.length) :
    Filled table (xs ++ [x]) := by
  intro i
  rw [h i, List.getElem?_append_left (i.isLt.trans_le hge)]

/-- What is in the table. -/
theorem Filled.filterMap (h : Filled table xs) (hle : xs.length ≤ n) :
    (List.finRange n).filterMap table = xs := by
  induction n generalizing xs with
  | zero => rw [List.eq_nil_of_length_eq_zero (Nat.le_zero.mp hle), List.finRange_zero]; rfl
  | succ n ih =>
    rw [List.finRange_succ, List.filterMap_cons, List.filterMap_map, h 0]
    cases xs with
    | nil => exact ih (fun i => h i.succ) (Nat.zero_le n)
    | cons x xs =>
      have htail : Filled (table ∘ Fin.succ) xs := fun i => h i.succ
      exact congrArg (x :: ·) (ih htail (Nat.le_of_succ_le_succ hle))

end Filled

structure Kept (l : Log) : Prop where
  inv : Inv l.state
  placed : ∀ m, l.state.placed m = l.sent.count m
  numbered : l.sent.map Msg.seq = List.range l.state.msgSeq
  own : ∀ t, ∀ m ∈ (l.state.workers t).pc.holds ++ (l.state.workers t).msgq, m.target = t
  lane : ∀ t, (l.state.lane t).Sublist (l.sent.filter (·.target = t))
  stored : ∀ t, ∃ ms : List Msg, ms ++ (l.state.workers t).pc.unstored = l.state.recordedFor t ∧
    (∀ m lidx, (l.state.workers t).pc = .store m lidx → lidx = ms.length) ∧
    Filled (l.latencies t) ms
  logged : ∃ ms : List Msg, ms.length = l.state.numMirq ∧
    (∀ m, ms.count m + ∑ t, (l.state.workers t).pc.unlogged.count m = l.state.recorded.count m) ∧
    Filled l.mirqLatencies ms

variable {qemu : Bool} {s : State} {l : Log} {t : ThreadId} {m : Msg}

theorem kept_start : Kept Log.start where
  inv := inv_start
  placed _ := by simp [Log.start, start, State.placed, Worker.waiting, Pc.uncounted]
  numbered := rfl
  own _ _ hm := absurd hm List.not_mem_nil
  lane _ := List.Sublist.refl _
  stored _ := ⟨[], rfl, fun _ _ hno => Pc.noConfusion hno, fun _ => rfl⟩
  logged := ⟨[], rfl, fun _ => by simp [Log.start, start, Pc.unlogged], fun _ => rfl⟩

/-- What a sum over the workers becomes with another one in the place of `t`. -/
theorem sum_update_worker (f : Worker → Nat) (workers : ThreadId → Worker) (t : ThreadId)
    (w : Worker) :
    ∑ x, f (Function.update workers t w x) + f (workers t) = ∑ x, f (workers x) + f w := by
  have hnew := Finset.add_sum_erase Finset.univ (fun x => f (Function.update workers t w x))
    (Finset.mem_univ t)
  have hold := Finset.add_sum_erase Finset.univ (fun x => f (workers x)) (Finset.mem_univ t)
  have hrest : ∑ x ∈ Finset.univ.erase t, f (Function.update workers t w x) =
      ∑ x ∈ Finset.univ.erase t, f (workers x) := by
    refine Finset.sum_congr rfl fun x hx => ?_
    rw [Function.update_of_ne (Finset.ne_of_mem_erase hx)]
  simp only [Function.update_self] at hnew
  omega

/-- A worker with another queue is at the same statement. -/
theorem update_queue_pc (workers : ThreadId → Worker) (t : ThreadId) (q : List Msg) (x : ThreadId) :
    (Function.update workers t { workers t with msgq := q } x).pc = (workers x).pc := by
  rcases eq_or_ne x t with rfl | hne
  · rw [Function.update_self]
  · rw [Function.update_of_ne hne]

theorem Kept.send (h : Kept l) (target : ThreadId) :
    Kept (l.step qemu (.devTimerExpired target)) := by
  have hinv := inv_devTimerExpired h.inv target
  by_cases harmed : l.state.armed = true
  · have hplaced := h.placed
    have hlane := h.lane
    have hnumbered : (l.sent ++ [(⟨l.state.msgSeq, target⟩ : Msg)]).map Msg.seq =
        List.range (l.state.msgSeq + 1) := by
      rw [List.map_append, h.numbered, List.range_succ]
      rfl
    simp only [Log.step, Log.writes, State.sends, MetairqDispatch.step, State.devTimerExpired,
      if_pos harmed] at hinv ⊢
    split
    · rename_i hroom
      rw [if_pos hroom] at hinv
      refine ⟨hinv, fun m => ?_, hnumbered, h.own, fun t => ?_, h.stored, h.logged⟩
      · specialize hplaced m
        simp only [State.placed, List.count_append] at hplaced ⊢
        omega
      · specialize hlane t
        simp only [State.lane, List.filter_append, ← List.append_assoc] at hlane ⊢
        exact hlane.append (List.Sublist.refl _)
    · rename_i hfull
      rw [if_neg hfull] at hinv
      refine ⟨hinv, fun m => ?_, hnumbered, h.own, fun t => ?_, h.stored, h.logged⟩
      · specialize hplaced m
        simp only [State.placed, List.count_append] at hplaced ⊢
        omega
      · rw [List.filter_append]
        exact (hlane t).trans (List.sublist_append_left _ _)
  · simp only [Log.step, Log.writes, State.sends, MetairqDispatch.step, State.devTimerExpired,
      if_neg harmed, List.append_nil]
    exact h

theorem Kept.fetch (h : Kept l) {hwMsgs : List Msg} (hfetched : l.state.fetched = none)
    (hhw : l.state.hwMsgs = m :: hwMsgs) :
    Kept { l with state := { l.state with hwMsgs := hwMsgs, fetched := some m } } := by
  have hplaced := h.placed
  have hlane := h.lane
  have hinv : Inv { l.state with hwMsgs := hwMsgs, fetched := some m } := by
    simpa only [State.metairqFn, hfetched, hhw] using inv_metairqFn h.inv
  refine ⟨hinv, fun m' => ?_, h.numbered, h.own, fun t => ?_, h.stored, h.logged⟩
  · specialize hplaced m'
    simp only [State.placed, hfetched, hhw, Option.toList, List.count_nil, List.count_cons]
      at hplaced ⊢
    omega
  · specialize hlane t
    rw [State.lane, hfetched, hhw] at hlane
    exact hlane

/-- The thread that dispatches puts its message into the queue of the worker. -/
theorem Kept.put (h : Kept l) (hfetched : l.state.fetched = some m)
    (hroom : (l.state.workers m.target).msgq.length < queueDepth) :
    Kept { l with state := { l.state with
      fetched := none
      workers := Function.update l.state.workers m.target { l.state.workers m.target with
        msgq := (l.state.workers m.target).msgq ++ [m] } } } := by
  have hplaced := h.placed
  have hlane := h.lane
  have hinv := inv_metairqFn h.inv
  simp only [State.metairqFn, hfetched, if_pos hroom] at hinv
  have hpc := update_queue_pc l.state.workers m.target ((l.state.workers m.target).msgq ++ [m])
  refine ⟨hinv, fun m' => ?_, h.numbered, fun x m' hm' => ?_, fun x => ?_, fun x => ?_, ?_⟩
  · have hsum := sum_update_worker (fun w => w.waiting.count m') l.state.workers m.target
      { l.state.workers m.target with msgq := (l.state.workers m.target).msgq ++ [m] }
    specialize hplaced m'
    simp only [State.placed, Worker.waiting, hfetched, Option.toList, List.count_nil,
      List.count_cons, List.count_append] at hplaced hsum ⊢
    omega
  · simp only [hpc] at hm'
    rcases eq_or_ne x m.target with rfl | hne
    · rw [Function.update_self, ← List.append_assoc] at hm'
      rcases List.mem_append.mp hm' with hold | hnew
      · exact h.own _ m' hold
      · rw [List.mem_singleton.mp hnew]
    · rw [Function.update_of_ne hne] at hm'
      exact h.own x m' hm'
  · specialize hlane x
    rcases eq_or_ne x m.target with rfl | hne
    · rw [State.lane, hfetched] at hlane
      simpa [State.lane, State.recordedFor, Worker.waiting] using hlane
    · rw [State.lane, hfetched] at hlane
      simpa [State.lane, State.recordedFor, hne, hne.symm] using hlane
  · simp only [hpc]
    exact h.stored x
  · simp only [hpc]
    exact h.logged

theorem Kept.drop (h : Kept l) (hfetched : l.state.fetched = some m)
    (hfull : ¬ (l.state.workers m.target).msgq.length < queueDepth) :
    Kept { l with state := { l.state with fetched := none, lost := l.state.lost ++ [m] } } := by
  have hplaced := h.placed
  have hlane := h.lane
  have hinv := inv_metairqFn h.inv
  simp only [State.metairqFn, hfetched, if_neg hfull] at hinv
  refine ⟨hinv, fun m' => ?_, h.numbered, h.own, fun x => ?_, h.stored, h.logged⟩
  · specialize hplaced m'
    simp only [State.placed, hfetched, Option.toList, List.count_nil, List.count_cons,
      List.count_append] at hplaced ⊢
    omega
  · refine List.Sublist.trans ?_ (hlane x)
    have hrest : ((none : Option Msg).toList ++ l.state.hwMsgs).Sublist
        (l.state.fetched.toList ++ l.state.hwMsgs) := by
      rw [hfetched]
      exact List.sublist_cons_self m l.state.hwMsgs
    exact ((hrest.filter _).append_left _).append_left _

theorem Kept.metairqFn (h : Kept l) : Kept (l.step qemu .metairqFn) := by
  simp only [Log.step, Log.writes, State.sends, MetairqDispatch.step, State.metairqFn,
    List.append_nil]
  cases hfetched : l.state.fetched with
  | none =>
    cases hhw : l.state.hwMsgs with
    | nil => exact h
    | cons m hwMsgs => exact h.fetch hfetched hhw
  | some m =>
    simp only
    split
    · rename_i hroom
      exact h.put hfetched hroom
    · rename_i hfull
      exact h.drop hfetched hfull

theorem Pc.unstored_eq_nil {pc : Pc} (h : pc.unlogged = []) : pc.unstored = [] := by
  cases pc <;> first | rfl | exact h

theorem waiting_of_unlogged {w : Worker} (h : w.pc.unlogged = []) :
    w.pc.holds ++ w.msgq = w.waiting := by
  rw [Pc.holds, h, List.append_nil, Worker.waiting]

/-- A worker that records nothing leaves the latencies of the metairq as they are. -/
theorem Kept.logged_update (h : Kept l) {w : Worker}
    (hsame : w.pc.unlogged = (l.state.workers t).pc.unlogged) :
    ∃ ms : List Msg, ms.length = l.state.numMirq ∧
      (∀ m, ms.count m + ∑ x, (Function.update l.state.workers t w x).pc.unlogged.count m =
        l.state.recorded.count m) ∧ Filled l.mirqLatencies ms := by
  obtain ⟨ms, hlength, hcount, hfilled⟩ := h.logged
  refine ⟨ms, hlength, fun m' => ?_, hfilled⟩
  have hsum := sum_update_worker (fun w => w.pc.unlogged.count m') l.state.workers t w
  specialize hcount m'
  simp only [hsame] at hsum
  omega

/-- The worker `t` becomes one with the same messages, none of which it was recording. -/
theorem Kept.next (h : Kept l) {w : Worker} {reportCookie : Nat} {uses : List Use}
    (hinv : Inv { l.state with workers := Function.update l.state.workers t w
                               reportCookie := reportCookie
                               uses := uses })
    (hwaiting : w.waiting = (l.state.workers t).waiting) (hnew : w.pc.unlogged = [])
    (hold : (l.state.workers t).pc.unlogged = []) :
    Kept { l with state := { l.state with workers := Function.update l.state.workers t w
                                          reportCookie := reportCookie
                                          uses := uses } } := by
  have hplaced := h.placed
  have hlane := h.lane
  refine ⟨hinv, fun m' => ?_, h.numbered, fun x m' hm' => ?_, fun x => ?_, fun x => ?_, ?_⟩
  · have hsum := sum_update_worker (fun w => w.waiting.count m') l.state.workers t w
    specialize hplaced m'
    rw [hwaiting] at hsum
    simp only [State.placed] at hplaced ⊢
    omega
  · rcases eq_or_ne x t with rfl | hne
    · simp only [Function.update_self] at hm'
      rw [waiting_of_unlogged hnew, hwaiting, ← waiting_of_unlogged hold] at hm'
      exact h.own _ m' hm'
    · simp only [Function.update_of_ne hne] at hm'
      exact h.own x m' hm'
  · specialize hlane x
    rcases eq_or_ne x t with rfl | hne
    · simpa only [State.lane, State.recordedFor, Function.update_self, hwaiting] using hlane
    · simpa only [State.lane, State.recordedFor, Function.update_of_ne hne] using hlane
  · rcases eq_or_ne x t with rfl | hne
    · obtain ⟨ms, hms, -, hfilled⟩ := h.stored x
      simp only [Function.update_self]
      rw [Pc.unstored_eq_nil hold] at hms
      refine ⟨ms, ?_, fun m' lidx hpc => ?_, hfilled⟩
      · rw [Pc.unstored_eq_nil hnew]
        exact hms
      · rw [hpc] at hnew
        exact absurd hnew (List.cons_ne_nil m' [])
    · simp only [Function.update_of_ne hne]
      exact h.stored x
  · exact h.logged_update (hnew.trans hold.symm)

/-- The first message is not recorded on qemu. -/
theorem Kept.skip (h : Kept l) (hpc : (l.state.workers t).pc = .count m)
    (hinv : Inv { l.state.goto t .get with lost := l.state.lost ++ [m] }) :
    Kept { l with state := { l.state.goto t .get with lost := l.state.lost ++ [m] } } := by
  have hplaced := h.placed
  have hlane := h.lane
  refine ⟨hinv, fun m' => ?_, h.numbered, fun x m' hm' => ?_, fun x => ?_, fun x => ?_, ?_⟩
  · have hsum := sum_update_worker (fun w => w.waiting.count m') l.state.workers t
      { l.state.workers t with pc := .get }
    specialize hplaced m'
    simp only [State.placed, State.goto, Worker.waiting, hpc, Pc.uncounted, List.count_append,
      List.count_nil] at hplaced hsum ⊢
    omega
  · rcases eq_or_ne x t with rfl | hne
    · simp only [State.goto, Function.update_self] at hm'
      exact h.own x m' (List.mem_append_right _ hm')
    · simp only [State.goto, Function.update_of_ne hne] at hm'
      exact h.own x m' hm'
  · refine List.Sublist.trans ?_ (hlane x)
    rcases eq_or_ne x t with rfl | hne
    · refine List.Sublist.append_left (List.Sublist.append_right ?_ _) _
      simp only [State.goto, Function.update_self, Worker.waiting, hpc]
      exact List.sublist_append_right _ _
    · simp only [State.lane, State.recordedFor, State.goto, Function.update_of_ne hne]
      exact List.Sublist.refl _
  · rcases eq_or_ne x t with rfl | hne
    · obtain ⟨ms, hms, -, hfilled⟩ := h.stored x
      rw [hpc] at hms
      simp only [State.goto, Function.update_self]
      exact ⟨ms, hms, fun _ _ hno => Pc.noConfusion hno, hfilled⟩
    · simp only [State.goto, Function.update_of_ne hne]
      exact h.stored x
  · exact h.logged_update (w := { l.state.workers t with pc := .get }) (by rw [hpc]; rfl)

/-- A worker counts its message, and gets the place for the latency. -/
theorem Kept.count (h : Kept l) (hpc : (l.state.workers t).pc = .count m)
    (hinv : Inv { l.state.goto t (.store m (l.state.nevt m.target)) with
      nevt := Function.update l.state.nevt m.target (l.state.nevt m.target + 1)
      recorded := l.state.recorded ++ [m] }) :
    Kept { l with state := { l.state.goto t (.store m (l.state.nevt m.target)) with
      nevt := Function.update l.state.nevt m.target (l.state.nevt m.target + 1)
      recorded := l.state.recorded ++ [m] } } := by
  have hplaced := h.placed
  have hlane := h.lane
  have htarget : m.target = t := h.own t m (by rw [hpc]; exact List.mem_cons_self)
  have hself : (l.state.recorded ++ [m]).filter (·.target = t) = l.state.recordedFor t ++ [m] := by
    simp [State.recordedFor, htarget]
  have hother {x : ThreadId} (hne : x ≠ t) :
      (l.state.recorded ++ [m]).filter (·.target = x) = l.state.recordedFor x := by
    simp [State.recordedFor, htarget, hne.symm]
  refine ⟨hinv, fun m' => ?_, h.numbered, fun x m' hm' => ?_, fun x => ?_, fun x => ?_, ?_⟩
  · have hsum := sum_update_worker (fun w => w.waiting.count m') l.state.workers t
      { l.state.workers t with pc := .store m (l.state.nevt m.target) }
    specialize hplaced m'
    simp only [State.placed, State.goto, Worker.waiting, hpc, Pc.uncounted, List.count_append,
      List.count_nil] at hplaced hsum ⊢
    omega
  · have hmem : m' ∈ (l.state.workers x).pc.holds ++ (l.state.workers x).msgq := by
      rcases eq_or_ne x t with rfl | hne
      · simp only [State.goto, Function.update_self] at hm'
        rwa [hpc]
      · simpa only [State.goto, Function.update_of_ne hne] using hm'
    exact h.own x m' hmem
  · specialize hlane x
    rw [State.lane, State.recordedFor]
    rcases eq_or_ne x t with rfl | hne
    · rw [hself]
      simpa [State.lane, State.goto, Worker.waiting, hpc, Pc.uncounted] using hlane
    · rw [hother hne]
      simpa only [State.goto, Function.update_of_ne hne] using! hlane
  · rw [State.recordedFor]
    rcases eq_or_ne x t with rfl | hne
    · obtain ⟨ms, hms, -, hfilled⟩ := h.stored x
      rw [hpc, Pc.unstored_eq_nil (Pc.unlogged_count m), List.append_nil] at hms
      rw [hself]
      simp only [State.goto, Function.update_self]
      refine ⟨ms, by rw [hms]; rfl, fun m' lidx hstore => ?_, hfilled⟩
      obtain ⟨-, hlidx⟩ := Pc.store.inj hstore
      rw [← hlidx, htarget, h.inv.nevt, hms]
    · rw [hother hne]
      simp only [State.goto, Function.update_of_ne hne]
      exact h.stored x
  · obtain ⟨ms, hlength, hcount, hfilled⟩ := h.logged
    refine ⟨ms, hlength, fun m' => ?_, hfilled⟩
    have hsum := sum_update_worker (fun w => w.pc.unlogged.count m') l.state.workers t
      { l.state.workers t with pc := .store m (l.state.nevt m.target) }
    specialize hcount m'
    simp only [State.goto, hpc, Pc.unlogged_count, Pc.unlogged_store, List.count_append,
      List.count_nil] at hsum ⊢
    omega

/-- What stays when a worker goes on with the message that it has counted. -/
theorem Kept.record (h : Kept l) (pc' : Pc) {pc : Pc} (hpc : (l.state.workers t).pc = pc)
    (hcounted : pc.uncounted = []) (hcounted' : pc'.uncounted = [])
    (hholds : ∀ m ∈ pc'.unlogged, m ∈ pc.unlogged) :
    (∀ m, (l.state.goto t pc').placed m = l.sent.count m) ∧
      (∀ x, ∀ m ∈ ((l.state.goto t pc').workers x).pc.holds ++
        ((l.state.goto t pc').workers x).msgq, m.target = x) ∧
      ∀ x, ((l.state.goto t pc').lane x).Sublist (l.sent.filter (·.target = x)) := by
  have hwaiting : Worker.waiting { l.state.workers t with pc := pc' } =
      (l.state.workers t).waiting := by
    rw [Worker.waiting, Worker.waiting, hpc, hcounted, hcounted']
  refine ⟨fun m' => ?_, fun x m' hm' => ?_, fun x => ?_⟩
  · have hplaced := h.placed m'
    have hsum := sum_update_worker (fun w => w.waiting.count m') l.state.workers t
      { l.state.workers t with pc := pc' }
    rw [hwaiting] at hsum
    simp only [State.placed, State.goto] at hplaced hsum ⊢
    omega
  · rcases eq_or_ne x t with rfl | hne
    · simp only [State.goto, Function.update_self, Pc.holds, hcounted', List.nil_append] at hm'
      refine h.own x m' ?_
      rw [hpc, Pc.holds, hcounted, List.nil_append]
      rcases List.mem_append.mp hm' with hpc' | hmsgq
      · exact List.mem_append_left _ (hholds m' hpc')
      · exact List.mem_append_right _ hmsgq
    · simp only [State.goto, Function.update_of_ne hne] at hm'
      exact h.own x m' hm'
  · have hlane := h.lane x
    rcases eq_or_ne x t with rfl | hne
    · simpa only [State.lane, State.recordedFor, State.goto, Function.update_self, hwaiting]
        using hlane
    · simpa only [State.lane, State.recordedFor, State.goto, Function.update_of_ne hne] using hlane

/-- A worker stores the latency of its message, or leaves it out. -/
theorem Kept.store (h : Kept l) {lidx : Nat} (hpc : (l.state.workers t).pc = .store m lidx) :
    Kept (l.step qemu (.worker t)) := by
  have hinv := inv_worker h.inv qemu t
  have htarget : m.target = t := h.own t m (by rw [hpc]; exact List.mem_cons_self)
  obtain ⟨hplaced, hown, hlane⟩ := h.record (.incMirq m) hpc rfl rfl fun _ hm => hm
  obtain ⟨ms, hms, hlidx, hfilled⟩ := h.stored t
  obtain rfl := hlidx m lidx hpc
  rw [hpc] at hms
  have hlogged := h.logged_update (w := { l.state.workers t with pc := .incMirq m })
    (by rw [hpc]; rfl)
  simp only [Log.step, Log.writes, MetairqDispatch.step, State.worker, State.sends, hpc,
    List.append_nil] at hinv ⊢
  by_cases hlt : ms.length < latenciesSize
  · rw [if_pos hlt] at hinv ⊢
    rw [dif_pos hlt]
    refine ⟨hinv, hplaced, h.numbered, hown, hlane, fun x => ?_, hlogged⟩
    rcases eq_or_ne x t with rfl | hne
    · simp only [State.use, State.goto, Function.update_self]
      refine ⟨ms ++ [m], by rw [List.append_assoc]; exact hms,
        fun _ _ hno => Pc.noConfusion hno, ?_⟩
      simp only [htarget, Function.update_self]
      exact hfilled.push m hlt
    · simp only [State.use, State.goto, htarget, Function.update_of_ne hne]
      exact h.stored x
  · rw [if_neg hlt] at hinv ⊢
    rw [dif_neg hlt]
    refine ⟨hinv, hplaced, h.numbered, hown, hlane, fun x => ?_, hlogged⟩
    rcases eq_or_ne x t with rfl | hne
    · simp only [State.goto, Function.update_self]
      exact ⟨ms ++ [m], by rw [List.append_assoc]; exact hms, fun _ _ hno => Pc.noConfusion hno,
        hfilled.full m (Nat.le_of_not_lt hlt)⟩
    · simp only [State.goto, Function.update_of_ne hne]
      exact h.stored x

/-- A worker stores the latency of the metairq. -/
theorem Kept.incMirq (h : Kept l) (hpc : (l.state.workers t).pc = .incMirq m) :
    Kept (l.step qemu (.worker t)) := by
  have hinv := inv_worker h.inv qemu t
  have hpending : ∃ pc', pc' = (if m.seq = maxEvents - 1 then Pc.takeCookie else .get) ∧
      pc'.uncounted = [] ∧ pc'.unlogged = [] := by
    refine ⟨_, rfl, ?_⟩
    split <;> exact ⟨rfl, rfl⟩
  obtain ⟨pc', hpc', hcounted', hlogged'⟩ := hpending
  obtain ⟨hplaced, hown, hlane⟩ := h.record pc' hpc rfl hcounted' fun m hm => by
    rw [hlogged'] at hm
    exact absurd hm List.not_mem_nil
  obtain ⟨ms, hlength, hcount, hfilled⟩ := h.logged
  have hstored (x : ThreadId) : ∃ ms : List Msg,
      ms ++ ((l.state.goto t pc').workers x).pc.unstored = l.state.recordedFor x ∧
        (∀ m lidx, ((l.state.goto t pc').workers x).pc = .store m lidx → lidx = ms.length) ∧
        Filled (l.latencies x) ms := by
    rcases eq_or_ne x t with rfl | hne
    · obtain ⟨ms, hms, -, hfilled⟩ := h.stored x
      rw [hpc] at hms
      simp only [State.goto, Function.update_self]
      refine ⟨ms, by rw [Pc.unstored_eq_nil hlogged']; exact hms, fun m' lidx hno => ?_, hfilled⟩
      rw [hno] at hlogged'
      exact absurd hlogged' (List.cons_ne_nil m' [])
    · simp only [State.goto, Function.update_of_ne hne]
      exact h.stored x
  have hcount' (m' : Msg) : (ms ++ [m]).count m' +
      ∑ x, ((l.state.goto t pc').workers x).pc.unlogged.count m' = l.state.recorded.count m' := by
    have hsum := sum_update_worker (fun w => w.pc.unlogged.count m') l.state.workers t
      { l.state.workers t with pc := pc' }
    specialize hcount m'
    simp only [State.goto, hpc, hlogged', Pc.unlogged_incMirq, List.count_append, List.count_nil]
      at hsum ⊢
    omega
  have hlength' : (ms ++ [m]).length = l.state.numMirq + 1 := by
    rw [List.length_append, List.length_singleton, hlength]
  simp only [Log.step, Log.writes, MetairqDispatch.step, State.worker, State.sends, hpc,
    List.append_nil, ← hpc'] at hinv ⊢
  by_cases hlt : l.state.numMirq < maxEvents
  · rw [dif_pos hlt]
    refine ⟨hinv, hplaced, h.numbered, hown, hlane, hstored, ms ++ [m], hlength', hcount', ?_⟩
    have hpush := hfilled.push m (hlength ▸ hlt)
    simpa only [hlength] using hpush
  · rw [dif_neg hlt]
    exact ⟨hinv, hplaced, h.numbered, hown, hlane, hstored, ms ++ [m], hlength', hcount',
      hfilled.full m (by omega)⟩

theorem Kept.worker (h : Kept l) (qemu : Bool) (t : ThreadId) :
    Kept (l.step qemu (.worker t)) := by
  have hinv := inv_worker h.inv qemu t
  cases hpc : (l.state.workers t).pc with
  | store m lidx => exact h.store hpc
  | incMirq m => exact h.incMirq hpc
  | get =>
    simp only [Log.step, Log.writes, MetairqDispatch.step, State.worker, State.sends, hpc,
      List.append_nil] at hinv ⊢
    cases hmsgq : (l.state.workers t).msgq with
    | nil => exact h
    | cons m msgq =>
      simp only [hmsgq] at hinv
      refine h.next hinv ?_ rfl (by rw [hpc]; rfl)
      rw [Worker.waiting, Worker.waiting, hpc, hmsgq]
      rfl
  | count m =>
    simp only [Log.step, Log.writes, MetairqDispatch.step, State.worker, State.sends, hpc,
      List.append_nil] at hinv ⊢
    split
    · rename_i hfirst
      rw [if_pos hfirst] at hinv
      exact h.skip hpc hinv
    · rename_i hcounts
      rw [if_neg hcounts] at hinv
      exact h.count hpc hinv
  | takeCookie =>
    simp only [Log.step, Log.writes, MetairqDispatch.step, State.worker, State.sends, hpc,
      List.append_nil] at hinv ⊢
    split
    · rename_i hcookie
      rw [if_pos hcookie] at hinv
      exact h.next hinv (by rw [Worker.waiting, Worker.waiting, hpc]; rfl) rfl (by rw [hpc]; rfl)
    · exact h
  | calcMirq =>
    simp only [Log.step, Log.writes, MetairqDispatch.step, State.worker, State.sends, hpc,
      List.append_nil] at hinv ⊢
    exact h.next hinv (by rw [Worker.waiting, Worker.waiting, hpc]; rfl) rfl (by rw [hpc]; rfl)
  | ifNevt i =>
    simp only [Log.step, Log.writes, MetairqDispatch.step, State.worker, State.sends, hpc,
      List.append_nil] at hinv ⊢
    split
    · rename_i hlt
      rw [dif_pos hlt] at hinv
      split
      · rename_i hzero
        rw [if_pos hzero] at hinv
        exact h.next hinv (by rw [Worker.waiting, Worker.waiting, hpc]; rfl) rfl (by rw [hpc]; rfl)
      · rename_i hsome
        rw [if_neg hsome] at hinv
        exact h.next hinv (by rw [Worker.waiting, Worker.waiting, hpc]; rfl) rfl (by rw [hpc]; rfl)
    · rename_i hend
      rw [dif_neg hend] at hinv
      exact h.next hinv (by rw [Worker.waiting, Worker.waiting, hpc]; rfl) rfl (by rw [hpc]; rfl)
  | calcThread i =>
    simp only [Log.step, Log.writes, MetairqDispatch.step, State.worker, State.sends, hpc,
      List.append_nil] at hinv ⊢
    exact h.next hinv (by rw [Worker.waiting, Worker.waiting, hpc]; rfl) rfl (by rw [hpc]; rfl)

theorem kept_step (h : Kept l) (qemu : Bool) (e : Event) : Kept (l.step qemu e) := by
  cases e with
  | devTimerExpired target => exact h.send target
  | metairqFn => exact h.metairqFn
  | worker t => exact h.worker qemu t

/-- What a run of the sample leads to. -/
def Log.after (qemu : Bool) (es : List Event) : Log := run (Log.step qemu) Log.start es

theorem kept_after (qemu : Bool) (es : List Event) : Kept (Log.after qemu es) :=
  run_invariant (Log.step qemu) (I := Kept) (fun _ e h => kept_step h qemu e) kept_start es

/-- The device sends no message twice. -/
theorem Kept.nodup (h : Kept l) : l.sent.Nodup := by
  refine List.Nodup.of_map Msg.seq ?_
  rw [h.numbered]
  exact List.nodup_range

/-- Between the statements that record a message, the table of the metairq has the latencies of all
messages that were recorded. -/
theorem Kept.mirq_perm (h : Kept l) (hrests : l.state.Rests) (hroom : l.state.numMirq ≤ maxEvents) :
    ((List.finRange maxEvents).filterMap l.mirqLatencies).Perm l.state.recorded := by
  obtain ⟨ms, hlength, hcount, hfilled⟩ := h.logged
  rw [hfilled.filterMap (by omega), List.perm_iff_count]
  intro m
  rw [← hcount m, Finset.sum_eq_zero, Nat.add_zero]
  intro t _
  rw [hrests t, List.count_nil]

theorem Kept.latencies_filled (h : Kept l) (hrests : l.state.Rests) (t : ThreadId) :
    Filled (l.latencies t) (l.state.recordedFor t) := by
  obtain ⟨ms, hms, -, hfilled⟩ := h.stored t
  rw [Pc.unstored_eq_nil (hrests t), List.append_nil] at hms
  rwa [hms] at hfilled

/-- As long as there was a place for every latency of the metairq: each message of the device is at
one place, those that a worker has counted are the ones for it in the order of the device, and the
tables have the latencies of just these. -/
theorem latencies_delivered (qemu : Bool) (es : List Event)
    (hroom : (Log.after qemu es).state.numMirq ≤ maxEvents) :
    (∀ m, (Log.after qemu es).state.placed m = if m ∈ (Log.after qemu es).sent then 1 else 0) ∧
      (∀ t, ((Log.after qemu es).state.recordedFor t).Sublist
        ((Log.after qemu es).sent.filter (·.target = t))) ∧
      ((Log.after qemu es).state.Rests →
        ((List.finRange maxEvents).filterMap (Log.after qemu es).mirqLatencies).Perm
          (Log.after qemu es).state.recorded ∧
        ∀ t, Filled ((Log.after qemu es).latencies t)
          ((Log.after qemu es).state.recordedFor t)) := by
  have h := kept_after qemu es
  refine ⟨fun m => ?_, fun t => ?_, fun hrests => ?_⟩
  · rw [h.placed m, h.nodup.count]
  · exact (List.sublist_append_left _ _).trans (h.lane t)
  · exact ⟨h.mirq_perm hrests hroom, h.latencies_filled hrests⟩

/-- Two messages, of which the later one is recorded first. -/
def laterFirst : List Event :=
  [.devTimerExpired 0, .devTimerExpired 1] ++ List.replicate 4 .metairqFn ++
    List.replicate 4 (.worker 1) ++ List.replicate 4 (.worker 0)

theorem latencies_delivered_laterFirst :
    (Log.after false laterFirst).state.recorded = [⟨1, 1⟩, ⟨0, 0⟩] ∧
      (∀ t, Filled ((Log.after false laterFirst).latencies t)
        ((Log.after false laterFirst).state.recordedFor t)) :=
  ⟨by decide, ((latencies_delivered false laterFirst (by decide)).2.2 (by decide)).2⟩

end MetairqDispatch
end ZephyrSamples
