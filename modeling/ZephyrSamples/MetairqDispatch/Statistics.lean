import Mathlib.Algebra.BigOperators.Fin
import Mathlib.Data.Fintype.BigOperators
import ZephyrSamples.Lib.Runs

/-!
# The statistics of the metairq dispatch sample

The device of `msgdev.c`, the thread that dispatches its messages and the workers that record their
latencies, in any interleaving.  The device sends one message more than there are places for
latencies, and the report reads all the latencies a thread has counted, also those that were not
stored.  What the indices are compared with is an account of the messages: each is under way,
recorded or lost. -/

namespace ZephyrSamples
namespace MetairqDispatch

open Runs

/-- `MAX_EVENTS` -/
def maxEvents : Nat := 40

/-- `NUM_THREADS` -/
def numThreads : Nat := 4

/-- `QUEUE_DEPTH` -/
def queueDepth : Nat := 16

/-- The length of `hw_msgs`. -/
def hwDepth : Nat := 2

/-- `ARRAY_SIZE(stats.threads[t].latencies)` -/
def latenciesSize : Nat := maxEvents * 2 / numThreads

abbrev ThreadId := Fin numThreads

instance : NeZero numThreads := ⟨by decide⟩

/-- `struct msg` without the times, on which no index depends. -/
structure Msg where
  seq : Nat
  target : ThreadId
  deriving DecidableEq, Repr

/-- What is read or written: a place of `mirq_latencies` or of the `latencies` of a thread, or the
first `n` of them by `calc_stats`. -/
inductive Use where
  | mirqLatency (i : Nat)
  | latency (t : ThreadId) (i : Nat)
  | calcMirq (n : Nat)
  | calcThread (t : ThreadId) (n : Nat)
  deriving DecidableEq, Repr

/-- The statement a worker is at: `k_msgq_get`, then those of `record_latencies`. -/
inductive Pc where
  | get
  | count (m : Msg)
  | store (m : Msg) (lidx : Nat)
  | incMirq (m : Msg)
  | takeCookie
  | calcMirq
  | ifNevt (i : Nat)
  | calcThread (i : ThreadId)
  deriving DecidableEq, Repr

/-- A worker and its queue. -/
structure Worker where
  msgq : List Msg
  pc : Pc
  deriving DecidableEq, Repr

/-- The sample: `armed` tells whether the timeout is pending, `fetched` is what `metairq_fn` holds,
and `nevt` are the counters of the threads.  `recorded` are the messages that were counted, and
`lost` those dropped at a queue or skipped. -/
structure State where
  msgSeq : Nat
  armed : Bool
  hwMsgs : List Msg
  fetched : Option Msg
  workers : ThreadId → Worker
  nevt : ThreadId → Nat
  numMirq : Nat
  reportCookie : Nat
  recorded : List Msg
  lost : List Msg
  uses : List Use

/-- After `message_dev_init`. -/
def start : State where
  msgSeq := 0
  armed := true
  hwMsgs := []
  fetched := none
  workers _ := ⟨[], .get⟩
  nevt _ := 0
  numMirq := 0
  reportCookie := 1
  recorded := []
  lost := []
  uses := []

/-- `dev_timer_expired`, where `target` comes from `rand32`. -/
def State.devTimerExpired (s : State) (target : ThreadId) : State :=
  if s.armed then
    let m : Msg := ⟨s.msgSeq, target⟩
    let s := { s with msgSeq := s.msgSeq + 1, armed := decide (m.seq < maxEvents) }
    if s.hwMsgs.length < hwDepth then { s with hwMsgs := s.hwMsgs ++ [m] }
    else { s with lost := s.lost ++ [m] }
  else s

/-- `metairq_fn` fetches a message, or puts the one it has into the queue of its target. -/
def State.metairqFn (s : State) : State :=
  match s.fetched with
  | none =>
    match s.hwMsgs with
    | [] => s
    | m :: hwMsgs => { s with hwMsgs := hwMsgs, fetched := some m }
  | some m =>
    let w := s.workers m.target
    if w.msgq.length < queueDepth then
      { s with fetched := none
               workers := Function.update s.workers m.target { w with msgq := w.msgq ++ [m] } }
    else { s with fetched := none, lost := s.lost ++ [m] }

def State.goto (s : State) (t : ThreadId) (pc : Pc) : State :=
  { s with workers := Function.update s.workers t { s.workers t with pc := pc } }

def State.use (s : State) (u : Use) : State := { s with uses := s.uses ++ [u] }

/-- A statement of the worker `t`; `qemu` is CONFIG_QEMU_TARGET. -/
def State.worker (qemu : Bool) (s : State) (t : ThreadId) : State :=
  match (s.workers t).pc with
  | .get =>
    match (s.workers t).msgq with
    | [] => s
    | m :: msgq => { s with workers := Function.update s.workers t ⟨msgq, .count m⟩ }
  | .count m =>
    if qemu = true ∧ m.seq = 0 then { s.goto t .get with lost := s.lost ++ [m] }
    else
      { s.goto t (.store m (s.nevt m.target)) with
        nevt := Function.update s.nevt m.target (s.nevt m.target + 1)
        recorded := s.recorded ++ [m] }
  | .store m lidx =>
    if lidx < latenciesSize then (s.goto t (.incMirq m)).use (.latency m.target lidx)
    else s.goto t (.incMirq m)
  | .incMirq m =>
    let s' := (s.goto t (if m.seq = maxEvents - 1 then .takeCookie else .get)).use
      (.mirqLatency s.numMirq)
    { s' with numMirq := s.numMirq + 1 }
  | .takeCookie =>
    if 0 < s.reportCookie then
      { s.goto t .calcMirq with reportCookie := s.reportCookie - 1 }
    else s
  | .calcMirq => (s.goto t (.ifNevt 0)).use (.calcMirq s.numMirq)
  | .ifNevt i =>
    if h : i < numThreads then
      if s.nevt ⟨i, h⟩ = 0 then s.goto t (.ifNevt (i + 1)) else s.goto t (.calcThread ⟨i, h⟩)
    else s.goto t .get
  | .calcThread i => (s.goto t (.ifNevt (i + 1))).use (.calcThread i (s.nevt i))

inductive Event where
  | devTimerExpired (target : ThreadId)
  | metairqFn
  | worker (t : ThreadId)
  deriving DecidableEq, Repr

def step (qemu : Bool) (s : State) : Event → State
  | .devTimerExpired target => s.devTimerExpired target
  | .metairqFn => s.metairqFn
  | .worker t => s.worker qemu t

/-- The indices are in bounds; `calc_stats` uses those below `n`, and divides by `n`. -/
def Use.InBounds : Use → Prop
  | .mirqLatency i => i < maxEvents
  | .latency _ i => i < latenciesSize
  | .calcMirq n => n ≠ 0 ∧ ∀ i < n, i < maxEvents
  | .calcThread _ n => n ≠ 0 ∧ ∀ i < n, i < latenciesSize

def Sound (s : State) : Prop := ∀ u ∈ s.uses, u.InBounds

/-- A message that the worker has not recorded yet. -/
def Pc.pending : Pc → Nat
  | .count _ => 1
  | .store _ _ => 1
  | .incMirq _ => 1
  | _ => 0

def Worker.underWay (w : Worker) : Nat := w.msgq.length + w.pc.pending

/-- The number of messages that are neither recorded nor lost. -/
def State.underWay (s : State) : Nat :=
  s.hwMsgs.length + s.fetched.toList.length + ∑ t, (s.workers t).underWay

/-- The messages for a thread that were counted. -/
def State.recordedFor (s : State) (t : ThreadId) : List Msg := s.recorded.filter (·.target = t)

/-- When the last of the `MAX_EVENTS + 1` messages comes to be recorded another one has been lost,
and when the report comes to a thread there is a place for every message for it that was counted. -/
def Careful (s : State) : Event → Prop
  | .worker t =>
    match (s.workers t).pc with
    | .incMirq _ => s.msgSeq = maxEvents + 1 → s.underWay = 1 → s.lost ≠ []
    | .calcThread i => (s.recordedFor i).length ≤ latenciesSize
    | _ => True
  | _ => True

def Pc.Reports : Pc → Prop
  | .takeCookie => True
  | .calcMirq => True
  | _ => False

structure Inv (s : State) : Prop where
  account : s.underWay + s.numMirq + s.lost.length = s.msgSeq
  seq : s.msgSeq ≤ if s.armed then maxEvents else maxEvents + 1
  mirq : ∀ i < s.numMirq, .mirqLatency i ∈ s.uses
  nevt : ∀ t, s.nevt t = (s.recordedFor t).length
  reports : ∀ t, (s.workers t).pc.Reports → 0 < s.numMirq
  averaged : ∀ t i, (s.workers t).pc = .calcThread i → 0 < s.nevt i

variable {qemu : Bool} {s : State} {e : Event} {t : ThreadId} {m : Msg}

theorem sum_update (workers : ThreadId → Worker) (t : ThreadId) (w : Worker) :
    ∑ x, (Function.update workers t w x).underWay + (workers t).underWay =
      ∑ x, (workers x).underWay + w.underWay := by
  have hnew := Finset.add_sum_erase Finset.univ
    (fun x => (Function.update workers t w x).underWay) (Finset.mem_univ t)
  have hold := Finset.add_sum_erase Finset.univ (fun x => (workers x).underWay) (Finset.mem_univ t)
  have hrest : ∑ x ∈ Finset.univ.erase t, (Function.update workers t w x).underWay =
      ∑ x ∈ Finset.univ.erase t, (workers x).underWay := by
    refine Finset.sum_congr rfl fun x hx => ?_
    rw [Function.update_of_ne (Finset.ne_of_mem_erase hx)]
  simp only [Function.update_self] at hnew
  omega

theorem underWay_goto (pc : Pc) :
    (s.goto t pc).underWay + (s.workers t).pc.pending = s.underWay + pc.pending := by
  have hsum := sum_update s.workers t { s.workers t with pc := pc }
  simp only [State.underWay, State.goto, Worker.underWay] at *
  omega

theorem goto_pc (pc : Pc) (x : ThreadId) :
    ((s.goto t pc).workers x).pc = if x = t then pc else (s.workers x).pc := by
  simp only [State.goto, Function.update_apply]
  split <;> rfl

theorem inv_start : Inv start where
  account := by decide
  seq := by decide
  mirq _ h := absurd h (Nat.not_lt_zero _)
  nevt _ := rfl
  reports _ h := h.elim
  averaged _ _ h := nomatch h

/-- A worker goes on without recording or losing a message. -/
theorem Inv.goto (h : Inv s) {pc : Pc} (hpending : pc.pending = (s.workers t).pc.pending)
    (hreports : pc.Reports → 0 < s.numMirq) (haveraged : ∀ i, pc = .calcThread i → 0 < s.nevt i) :
    Inv (s.goto t pc) where
  account := by
    have hsame := underWay_goto (s := s) (t := t) pc
    have haccount := h.account
    show (s.goto t pc).underWay + s.numMirq + s.lost.length = s.msgSeq
    omega
  seq := h.seq
  mirq := h.mirq
  nevt := h.nevt
  reports x hx := by
    rw [goto_pc] at hx
    split at hx
    · exact hreports hx
    · exact h.reports x hx
  averaged x i hx := by
    rw [goto_pc] at hx
    split at hx
    · exact haveraged i hx
    · exact h.averaged x i hx

theorem Inv.use (h : Inv s) (u : Use) : Inv (s.use u) where
  account := h.account
  seq := h.seq
  mirq i hi := List.mem_append_left _ (h.mirq i hi)
  nevt := h.nevt
  reports := h.reports
  averaged := h.averaged

theorem inv_devTimerExpired (h : Inv s) (target : ThreadId) : Inv (s.devTimerExpired target) := by
  have haccount := h.account
  have hseq := h.seq
  unfold State.devTimerExpired
  split
  · rename_i harmed
    rw [if_pos harmed] at hseq
    have hseq' : s.msgSeq + 1 ≤
        if decide (s.msgSeq < maxEvents) = true then maxEvents else maxEvents + 1 := by
      split
      · rename_i hlt
        exact of_decide_eq_true hlt
      · omega
    simp only
    split
    · refine ⟨?_, hseq', h.mirq, h.nevt, h.reports, h.averaged⟩
      simp only [State.underWay, List.length_append, List.length_singleton] at *
      omega
    · refine ⟨?_, hseq', h.mirq, h.nevt, h.reports, h.averaged⟩
      simp only [State.underWay, List.length_append, List.length_singleton] at *
      omega
  · exact h

theorem inv_metairqFn (h : Inv s) : Inv s.metairqFn := by
  have haccount := h.account
  unfold State.metairqFn
  split
  · rename_i hfetched
    split
    · exact h
    · rename_i m hwMsgs hhw
      refine ⟨?_, h.seq, h.mirq, h.nevt, h.reports, h.averaged⟩
      simp only [State.underWay, hfetched, hhw, List.length_cons, Option.toList_none,
        Option.toList_some, List.length_nil] at *
      omega
  · rename_i m hfetched
    simp only
    split
    · have hsum := sum_update s.workers m.target
        { s.workers m.target with msgq := (s.workers m.target).msgq ++ [m] }
      have hpc (x : ThreadId) : (Function.update s.workers m.target
          { s.workers m.target with msgq := (s.workers m.target).msgq ++ [m] } x).pc =
            (s.workers x).pc := by
        rw [Function.update_apply]
        split
        · rename_i hx
          rw [hx]
        · rfl
      refine ⟨?_, h.seq, h.mirq, h.nevt, fun x hx => ?_, fun x i hx => ?_⟩
      · simp only [State.underWay, Worker.underWay, hfetched, List.length_append, List.length_cons,
          Option.toList_none, Option.toList_some, List.length_nil] at *
        omega
      · exact h.reports x (by rwa [hpc] at hx)
      · exact h.averaged x i (by rwa [hpc] at hx)
    · refine ⟨?_, h.seq, h.mirq, h.nevt, h.reports, h.averaged⟩
      simp only [State.underWay, hfetched, List.length_append, List.length_cons,
        Option.toList_none, Option.toList_some, List.length_nil] at *
      omega

theorem inv_get (h : Inv s) (hpc : (s.workers t).pc = .get) : Inv (s.worker qemu t) := by
  have haccount := h.account
  simp only [State.worker, hpc]
  split
  · exact h
  · rename_i m msgq hmsgq
    have hsum := sum_update s.workers t ⟨msgq, .count m⟩
    refine ⟨?_, h.seq, h.mirq, h.nevt, fun x hx => ?_, fun x i hx => ?_⟩
    · simp only [State.underWay, Worker.underWay, hmsgq, hpc, Pc.pending, List.length_cons] at *
      omega
    · simp only [Function.update_apply] at hx
      split at hx
      · exact hx.elim
      · exact h.reports x hx
    · simp only [Function.update_apply] at hx
      split at hx
      · exact nomatch hx
      · exact h.averaged x i hx

theorem inv_count (h : Inv s) (hpc : (s.workers t).pc = .count m) : Inv (s.worker qemu t) := by
  have haccount := h.account
  simp only [State.worker, hpc]
  split
  · have hgoto := underWay_goto (s := s) (t := t) .get
    refine ⟨?_, h.seq, h.mirq, h.nevt, fun x hx => ?_, fun x i hx => ?_⟩
    · show (s.goto t .get).underWay + s.numMirq + (s.lost ++ [m]).length = s.msgSeq
      simp only [hpc, Pc.pending, List.length_append, List.length_singleton] at *
      omega
    · rw [goto_pc] at hx
      split at hx
      · exact hx.elim
      · exact h.reports x hx
    · rw [goto_pc] at hx
      split at hx
      · exact nomatch hx
      · exact h.averaged x i hx
  · have hstore : Inv (s.goto t (.store m (s.nevt m.target))) :=
      h.goto (by rw [hpc]; rfl) (fun hno => hno.elim) (fun _ hno => nomatch hno)
    refine ⟨hstore.account, hstore.seq, hstore.mirq, fun x => ?_, hstore.reports, fun x i hx => ?_⟩
    · simp only [State.recordedFor, List.filter_append, Function.update_apply, List.length_append]
      by_cases hx : x = m.target
      · have hnevt := h.nevt m.target
        simp_all [State.recordedFor]
      · have hne : ¬ m.target = x := fun heq => hx heq.symm
        have hnevt := h.nevt x
        simp_all [State.recordedFor]
    · have hpos := hstore.averaged x i hx
      simp only [Function.update_apply]
      split
      · exact Nat.succ_pos _
      · exact hpos

theorem inv_incMirq (h : Inv s) (hpc : (s.workers t).pc = .incMirq m) : Inv (s.worker qemu t) := by
  have haccount := h.account
  simp only [State.worker, hpc]
  have hgoto := underWay_goto (s := s) (t := t)
    (if m.seq = maxEvents - 1 then .takeCookie else .get)
  have hpending : (if m.seq = maxEvents - 1 then Pc.takeCookie else .get).pending = 0 := by
    split <;> rfl
  refine ⟨?_, h.seq, fun i hi => ?_, h.nevt, fun _ _ => Nat.succ_pos _, fun x i hx => ?_⟩
  · show (s.goto t (if m.seq = maxEvents - 1 then .takeCookie else .get)).underWay +
      (s.numMirq + 1) + s.lost.length = s.msgSeq
    rw [hpending, hpc] at hgoto
    simp only [Pc.pending] at hgoto
    omega
  · rcases Nat.lt_succ_iff_lt_or_eq.mp hi with hlt | rfl
    · exact List.mem_append_left _ (h.mirq i hlt)
    · exact List.mem_append_right _ List.mem_cons_self
  · have hx' : ((s.goto t (if m.seq = maxEvents - 1 then .takeCookie else .get)).workers x).pc =
        .calcThread i := hx
    rw [goto_pc] at hx'
    split at hx'
    · split at hx' <;> exact nomatch hx'
    · exact h.averaged x i hx'

theorem inv_worker (h : Inv s) (qemu : Bool) (t : ThreadId) : Inv (s.worker qemu t) := by
  cases hpc : (s.workers t).pc with
  | get => exact inv_get h hpc
  | count m => exact inv_count h hpc
  | incMirq m => exact inv_incMirq h hpc
  | store m lidx =>
    have hnext : Inv (s.goto t (.incMirq m)) :=
      h.goto (by rw [hpc]; rfl) (fun hno => hno.elim) (fun _ hno => nomatch hno)
    simp only [State.worker, hpc]
    split
    · exact hnext.use _
    · exact hnext
  | takeCookie =>
    have hpos : 0 < s.numMirq := h.reports t (by rw [hpc]; trivial)
    have hnext : Inv (s.goto t .calcMirq) :=
      h.goto (by rw [hpc]; rfl) (fun _ => hpos) (fun _ hno => nomatch hno)
    simp only [State.worker, hpc]
    split
    · exact ⟨hnext.account, hnext.seq, hnext.mirq, hnext.nevt, hnext.reports, hnext.averaged⟩
    · exact h
  | calcMirq =>
    have hnext : Inv (s.goto t (.ifNevt 0)) :=
      h.goto (by rw [hpc]; rfl) (fun hno => hno.elim) (fun _ hno => nomatch hno)
    simp only [State.worker, hpc]
    exact hnext.use _
  | ifNevt i =>
    simp only [State.worker, hpc]
    split
    · split
      · exact h.goto (by rw [hpc]; rfl) (fun hno => hno.elim) (fun _ hno => nomatch hno)
      · rename_i hlt hne
        refine h.goto (by rw [hpc]; rfl) (fun hno => hno.elim) (fun j hj => ?_)
        obtain rfl := Pc.calcThread.inj hj
        exact Nat.pos_of_ne_zero hne
    · exact h.goto (by rw [hpc]; rfl) (fun hno => hno.elim) (fun _ hno => nomatch hno)
  | calcThread i =>
    have hnext : Inv (s.goto t (.ifNevt (i + 1))) :=
      h.goto (by rw [hpc]; rfl) (fun hno => hno.elim) (fun _ hno => nomatch hno)
    simp only [State.worker, hpc]
    exact hnext.use _

theorem inv_step (h : Inv s) (qemu : Bool) (e : Event) : Inv (step qemu s e) := by
  cases e with
  | devTimerExpired target => exact inv_devTimerExpired h target
  | metairqFn => exact inv_metairqFn h
  | worker t => exact inv_worker h qemu t

theorem sound_use_iff (h : Sound s) (u : Use) : Sound (s.use u) ↔ u.InBounds := by
  constructor
  · exact fun hsound => hsound u (List.mem_append_right _ List.mem_cons_self)
  · intro hu v hv
    rcases List.mem_append.mp hv with hv | hv
    · exact h v hv
    · rwa [List.mem_singleton.mp hv]

/-- As long as the indices were in bounds, no more than `MAX_EVENTS` messages are recorded. -/
theorem Inv.numMirq_le (h : Inv s) (hsound : Sound s) : s.numMirq ≤ maxEvents := by
  by_contra hlt
  have hmem := h.mirq maxEvents (Nat.lt_of_not_le hlt)
  exact Nat.lt_irrefl _ (hsound _ hmem)

/-- The place for a latency of the metairq is there unless all messages have come to be recorded. -/
theorem numMirq_lt_iff (h : Inv s) (hsound : Sound s) (hpc : (s.workers t).pc = .incMirq m) :
    s.numMirq < maxEvents ↔ (s.msgSeq = maxEvents + 1 → s.underWay = 1 → s.lost ≠ []) := by
  have haccount := h.account
  have hle := h.numMirq_le hsound
  have hseq : s.msgSeq ≤ maxEvents + 1 := by
    have := h.seq
    split at this <;> omega
  have hpos : 1 ≤ s.underWay := by
    have hgoto := underWay_goto (s := s) (t := t) .get
    simp only [hpc, Pc.pending] at hgoto
    omega
  constructor
  · intro hlt hall hlast hlost
    rw [hlost, List.length_nil] at haccount
    omega
  · intro hcareful
    by_contra hge
    have hlost : s.lost = [] := by
      rw [← List.length_eq_zero_iff]
      omega
    exact hcareful (by omega) (by omega) hlost

theorem uses_devTimerExpired (target : ThreadId) : (s.devTimerExpired target).uses = s.uses := by
  unfold State.devTimerExpired
  split
  · simp only
    split <;> rfl
  · rfl

theorem uses_metairqFn : s.metairqFn.uses = s.uses := by
  unfold State.metairqFn
  split
  · split <;> rfl
  · simp only
    split <;> rfl

/-- What a statement of a worker needs to keep the indices in bounds. -/
theorem sound_worker_iff (h : Inv s) (hsound : Sound s) (qemu : Bool) (t : ThreadId) :
    Sound (s.worker qemu t) ↔ Careful s (.worker t) := by
  cases hpc : (s.workers t).pc with
  | get =>
    simp only [State.worker, Careful, hpc]
    refine iff_of_true ?_ trivial
    split <;> exact hsound
  | count m =>
    simp only [State.worker, Careful, hpc]
    refine iff_of_true ?_ trivial
    split <;> exact hsound
  | store m lidx =>
    simp only [State.worker, Careful, hpc]
    refine iff_of_true ?_ trivial
    split
    · rename_i hlt
      exact (sound_use_iff hsound _).mpr hlt
    · exact hsound
  | incMirq m =>
    simp only [State.worker, Careful, hpc]
    exact (sound_use_iff (s := s.goto t _) hsound _).trans (numMirq_lt_iff h hsound hpc)
  | takeCookie =>
    simp only [State.worker, Careful, hpc]
    refine iff_of_true ?_ trivial
    split <;> exact hsound
  | calcMirq =>
    simp only [State.worker, Careful, hpc]
    refine iff_of_true ?_ trivial
    refine (sound_use_iff (s := s.goto t _) hsound _).mpr ⟨?_, fun i hi => ?_⟩
    · exact Nat.ne_of_gt (h.reports t (by rw [hpc]; trivial))
    · exact Nat.lt_of_lt_of_le hi (h.numMirq_le hsound)
  | ifNevt i =>
    simp only [State.worker, Careful, hpc]
    refine iff_of_true ?_ trivial
    split
    · split <;> exact hsound
    · exact hsound
  | calcThread i =>
    simp only [State.worker, Careful, hpc]
    refine (sound_use_iff (s := s.goto t _) hsound _).trans ?_
    have hpos := h.averaged t i hpc
    rw [← h.nevt]
    constructor
    · rintro ⟨-, hall⟩
      have := hall (s.nevt i - 1) (by omega)
      omega
    · intro hle
      exact ⟨by omega, fun j hj => by omega⟩

theorem sound_step_iff (h : Inv s) (hsound : Sound s) (qemu : Bool) (e : Event) :
    Sound (step qemu s e) ↔ Careful s e := by
  cases e with
  | devTimerExpired target =>
    refine iff_of_true (fun u hu => hsound u ?_) trivial
    rwa [← uses_devTimerExpired target]
  | metairqFn =>
    refine iff_of_true (fun u hu => hsound u ?_) trivial
    rwa [← uses_metairqFn]
  | worker t => exact sound_worker_iff h hsound qemu t

/-- Every run, in any interleaving and with any targets. -/
theorem indices_in_bounds_iff_careful (qemu : Bool) (es : List Event) :
    Always (step qemu) Sound start es ↔ Along (step qemu) Careful start es :=
  always_iff_along (step qemu) (P := Sound) (fun _ e h => inv_step h qemu e)
    (fun _ e h hsound => sound_step_iff h hsound qemu e) inv_start
    (fun _ hu => absurd hu List.not_mem_nil) es

/-- The device sends a message for the first thread, and it is recorded. -/
def recordOne : List Event :=
  [.devTimerExpired 0, .metairqFn, .metairqFn, .worker 0, .worker 0, .worker 0, .worker 0]

/-- All messages are for the first thread, and none is lost.  The report comes before
the last one. -/
def allRecorded : List Event :=
  (List.replicate (maxEvents + 1) recordOne).flatten ++ List.replicate 13 (.worker 0)

/-- The report reads 40 latencies of the 20 there are places for, and the last message has none. -/
theorem allRecorded_not_sound :
    .calcThread 0 maxEvents ∈ (run (step false) start allRecorded).uses ∧
      .mirqLatency maxEvents ∈ (run (step false) start allRecorded).uses ∧
      ¬ Always (step false) Sound start allRecorded := by
  have huse : .mirqLatency maxEvents ∈ (run (step false) start allRecorded).uses := by
    decide +kernel
  refine ⟨by decide +kernel, huse, fun h => ?_⟩
  have hlast : Sound (run (step false) start allRecorded) := h.last
  exact Nat.lt_irrefl _ (hlast _ huse)

end MetairqDispatch
end ZephyrSamples
