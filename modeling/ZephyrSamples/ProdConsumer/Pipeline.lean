import Mathlib.Data.List.Nodup
import Mathlib.Logic.Function.Basic
import ZephyrSamples.Lib.Runs

/-!
# The producer-consumer pipeline

The driver callback and the monitor and writeback threads of `app_a.c` and the processor thread of
`app_b.c`, statement by statement and in any interleaving.  A block of the shared pool goes from the
monitor through one queue to the processor, and through the other one to the writeback thread.  The
threads do not look at what `k_queue_alloc_append` returns: a block that it could not append is
nowhere. -/

namespace ZephyrSamples
namespace ProdConsumer

open Runs

abbrev Payload := List UInt8

/-- A block of `shared_pool`. -/
abbrev Block := Nat

/-- `MAX_MSGS` -/
def maxMsgs : Nat := 8

/-- The statement `monitor_entry` is at; `loop` is the test and `sys_mem_pool_alloc`. -/
inductive Monitor where
  | stateSetTrue
  | loop
  | msgqGet (b : Block)
  | count (b : Block)
  | append (b : Block)
  | stateSetFalse
  | ended
  deriving DecidableEq, Repr

/-- The statement `processor_thread` is at; `loop` is the test and `k_queue_get`. -/
inductive Processor where
  | loop
  | count (b : Block)
  | append (b : Block)
  | ended
  deriving DecidableEq, Repr

/-- The statement `writeback_entry` is at. -/
inductive Writeback where
  | loop
  | write (b : Block)
  | free (b : Block)
  | uncount
  | ended
  deriving DecidableEq, Repr

/-- Both applications.  `pool` are the blocks that are allocated, the oldest first, and `memory`
what is in a block; `accepted` are the messages that `mqueue` took, `written` the data given to the
driver, and `appended` and `freed` count the payloads the monitor has appended and the writeback
thread has freed. -/
structure State where
  mqueue : List Payload
  memory : Block → Payload
  pool : List Block
  incoming : List Block
  outgoing : List Block
  pendingCount : Int
  monitor : Monitor
  monitorCount : Nat
  processor : Processor
  processCount : Nat
  writeback : Writeback
  writebackCount : Nat
  accepted : List Payload
  written : List Payload
  appended : Nat
  freed : Nat

def start : State where
  mqueue := []
  memory _ := []
  pool := []
  incoming := []
  outgoing := []
  pendingCount := 0
  monitor := .stateSetTrue
  monitorCount := 0
  processor := .loop
  processCount := 0
  writeback := .loop
  writebackCount := 0
  accepted := []
  written := []
  appended := 0
  freed := 0

/-- What the kernel and the driver answer: the block `sys_mem_pool_alloc` returns, and whether
another call succeeds. -/
structure Answer where
  block : Option Block
  ok : Bool
  deriving DecidableEq, Repr

def State.sampleCallback (s : State) (data : Payload) : State :=
  if s.mqueue.length < maxMsgs then
    { s with mqueue := s.mqueue ++ [data], accepted := s.accepted ++ [data] }
  else s

/-- A statement of the monitor thread, which `k_oops` ends. -/
def State.monitorEntry (numLoops : Nat) (s : State) (a : Answer) : State :=
  match s.monitor with
  | .stateSetTrue => { s with monitor := if a.ok then .loop else .ended }
  | .loop =>
    if s.monitorCount < numLoops then
      match a.block with
      | none => { s with monitor := .ended }
      | some b => { s with pool := s.pool ++ [b], monitor := .msgqGet b }
    else { s with monitor := .stateSetFalse }
  | .msgqGet b =>
    match s.mqueue with
    | [] => s
    | data :: mqueue =>
      { s with mqueue := mqueue, memory := Function.update s.memory b data, monitor := .count b }
  | .count b => { s with pendingCount := s.pendingCount + 1, monitor := .append b }
  | .append b =>
    let s := { s with monitorCount := s.monitorCount + 1, monitor := .loop }
    if a.ok then { s with incoming := s.incoming ++ [b], appended := s.appended + 1 } else s
  | .stateSetFalse => { s with monitor := .ended }
  | .ended => s

/-- A statement of the processor thread. -/
def State.processorThread (numLoops : Nat) (s : State) (ok : Bool) : State :=
  match s.processor with
  | .loop =>
    if s.processCount < numLoops then
      match s.incoming with
      | [] => s
      | b :: incoming => { s with incoming := incoming, processor := .count b }
    else { s with processor := .ended }
  | .count b => { s with processCount := s.processCount + 1, processor := .append b }
  | .append b =>
    let s := { s with processor := .loop }
    if ok then { s with outgoing := s.outgoing ++ [b] } else s
  | .ended => s

/-- A statement of the writeback thread. -/
def State.writebackEntry (numLoops : Nat) (s : State) : State :=
  match s.writeback with
  | .loop =>
    if s.writebackCount < numLoops then
      match s.outgoing with
      | [] => s
      | b :: outgoing => { s with outgoing := outgoing, writeback := .write b }
    else { s with writeback := .ended }
  | .write b => { s with written := s.written ++ [s.memory b], writeback := .free b }
  | .free b => { s with pool := s.pool.erase b, freed := s.freed + 1, writeback := .uncount }
  | .uncount =>
    { s with pendingCount := s.pendingCount - 1, writebackCount := s.writebackCount + 1
             writeback := .loop }
  | .ended => s

inductive Event where
  | sampleCallback (data : Payload)
  | monitor (a : Answer)
  | processor (ok : Bool)
  | writeback
  deriving DecidableEq, Repr

def step (numLoops : Nat) (s : State) : Event → State
  | .sampleCallback data => s.sampleCallback data
  | .monitor a => s.monitorEntry numLoops a
  | .processor ok => s.processorThread numLoops ok
  | .writeback => s.writebackEntry numLoops

/-- The block a thread holds. -/
def Monitor.held : Monitor → List Block
  | .msgqGet b => [b]
  | .count b => [b]
  | .append b => [b]
  | _ => []

def Processor.held : Processor → List Block
  | .count b => [b]
  | .append b => [b]
  | _ => []

def Writeback.held : Writeback → List Block
  | .write b => [b]
  | .free b => [b]
  | _ => []

/-- The block of the monitor once there is a message in it. -/
def Monitor.filled : Monitor → List Block
  | .count b => [b]
  | .append b => [b]
  | _ => []

/-- The block of the writeback thread until it is written. -/
def Writeback.toWrite : Writeback → List Block
  | .write b => [b]
  | _ => []

/-- 1 where `pending_count` is one ahead of what it counts: a thread counts a payload in a statement
of its own. -/
def Monitor.ahead : Monitor → Int
  | .append _ => 1
  | _ => 0

def Writeback.ahead : Writeback → Int
  | .uncount => 1
  | _ => 0

/-- The blocks in the threads and the queues, the oldest first. -/
def State.places (s : State) : List Block :=
  s.writeback.held ++ s.outgoing ++ s.processor.held ++ s.incoming ++ s.monitor.held

/-- Those with a message that is still to be written. -/
def State.unwritten (s : State) : List Block :=
  s.writeback.toWrite ++ s.outgoing ++ s.processor.held ++ s.incoming ++ s.monitor.filled

/-- Every block that is allocated is in one place, `pending_count` is right, and the messages
accepted are the payloads written, those in the blocks, and those that wait, in this order. -/
structure Conserves (s : State) : Prop where
  places : s.places = s.pool
  nodup : s.pool.Nodup
  pending : s.pendingCount = s.appended - s.freed + s.monitor.ahead + s.writeback.ahead
  messages : s.accepted = s.written ++ s.unwritten.map s.memory ++ s.mqueue

def Event.IsProcessor : Event → Bool
  | .processor _ => true
  | _ => false

/-- When the monitor has ended, what it has appended becomes available to the writeback thread in so
many statements of the processor. -/
def Delivers (numLoops : Nat) (s : State) (es : List Event) : Prop :=
  ∀ before after, es = before ++ after → (run (step numLoops) s before).monitor = .ended →
    3 * numLoops < after.countP Event.IsProcessor →
    (run (step numLoops) s es).pool =
      (run (step numLoops) s es).writeback.held ++ (run (step numLoops) s es).outgoing

/-- `sys_mem_pool_alloc` returns a block that is not allocated. -/
def Possible (s : State) : Event → Prop
  | .monitor a => s.monitor = .loop → ∀ b ∈ a.block, b ∉ s.pool
  | _ => True

/-- `k_queue_alloc_append` succeeds. -/
def Appends (s : State) : Event → Prop
  | .monitor a => match s.monitor with
    | .append _ => a.ok = true
    | _ => True
  | .processor ok => match s.processor with
    | .append _ => ok = true
    | _ => True
  | _ => True

instance (s : State) : (e : Event) → Decidable (Possible s e)
  | .sampleCallback _ => inferInstanceAs (Decidable True)
  | .monitor _ => inferInstanceAs (Decidable (_ → _))
  | .processor _ => inferInstanceAs (Decidable True)
  | .writeback => inferInstanceAs (Decidable True)

instance (s : State) (e : Event) : Decidable (Appends s e) := by
  cases e <;> unfold Appends
  · infer_instance
  · cases s.monitor <;> infer_instance
  · cases s.processor <;> infer_instance
  · infer_instance

/-- A payload that the processor has taken and not counted. -/
def Processor.taken : Processor → Nat
  | .count _ => 1
  | _ => 0

/-- A block that the monitor is going to append. -/
def Monitor.round : Monitor → Nat
  | .msgqGet _ => 1
  | .count _ => 1
  | .append _ => 1
  | _ => 0

/-- The rounds of the threads, which never run ahead of each other. -/
structure Rounds (numLoops : Nat) (s : State) : Prop where
  monitor : s.monitorCount + s.monitor.round ≤ numLoops
  processor : s.incoming.length + s.processor.taken + s.processCount = s.monitorCount
  ended : s.processor = .ended → numLoops ≤ s.processCount

structure Inv (numLoops : Nat) (s : State) : Prop where
  conserves : Conserves s
  rounds : Rounds numLoops s

variable {numLoops : Nat} {s : State} {e : Event} {b : Block}

theorem conserves_start : Conserves start := ⟨rfl, List.nodup_nil, rfl, rfl⟩

theorem rounds_start : Rounds numLoops start := ⟨Nat.zero_le _, rfl, fun h => nomatch h⟩

theorem conserves_sampleCallback (h : Conserves s) (data : Payload) :
    Conserves (s.sampleCallback data) := by
  unfold State.sampleCallback
  split
  · refine ⟨h.places, h.nodup, h.pending, ?_⟩
    show s.accepted ++ [data] = s.written ++ s.unwritten.map s.memory ++ (s.mqueue ++ [data])
    rw [h.messages, List.append_assoc _ s.mqueue]
  · exact h

/-- The block the monitor is going to fill is none of those with a message. -/
theorem notMem_unwritten (h : Conserves s) (hmonitor : s.monitor = .msgqGet b) :
    b ∉ s.unwritten := by
  have hnodup := h.nodup
  rw [← h.places, State.places, hmonitor] at hnodup
  have hplaces := List.disjoint_of_nodup_append hnodup
  intro hb
  refine hplaces ?_ List.mem_cons_self
  have hwrite : s.writeback.toWrite ⊆ s.writeback.held := by
    cases s.writeback <;> simp [Writeback.toWrite, Writeback.held]
  simp only [State.unwritten, hmonitor, Monitor.filled, List.mem_append, List.not_mem_nil,
    or_false] at hb ⊢
  exact hb.imp_left (Or.imp_left (Or.imp_left fun hb => hwrite hb))

theorem conserves_alloc (h : Conserves s) (hmonitor : s.monitor = .loop) (hfresh : b ∉ s.pool) :
    Conserves { s with pool := s.pool ++ [b], monitor := .msgqGet b } where
  places := by
    rw [← h.places]
    simp [State.places, hmonitor, Monitor.held]
  nodup := List.nodup_append.mpr ⟨h.nodup, List.nodup_singleton b, fun x hx y hy heq => by
    rw [heq, List.mem_singleton.mp hy] at hx
    exact hfresh hx⟩
  pending := by
    rw [h.pending, hmonitor]
    rfl
  messages := by
    rw [h.messages]
    simp [State.unwritten, hmonitor, Monitor.filled]

theorem conserves_msgqGet (h : Conserves s) (hmonitor : s.monitor = .msgqGet b) {data : Payload}
    {mqueue : List Payload} (hmqueue : s.mqueue = data :: mqueue) :
    Conserves { s with mqueue := mqueue, memory := Function.update s.memory b data
                       monitor := .count b } where
  places := by
    rw [← h.places]
    simp [State.places, hmonitor, Monitor.held]
  nodup := h.nodup
  pending := by
    rw [h.pending, hmonitor]
    rfl
  messages := by
    have hsame : s.unwritten.map (Function.update s.memory b data) = s.unwritten.map s.memory := by
      refine List.map_congr_left fun x hx => Function.update_of_ne ?_ _ _
      rintro rfl
      exact notMem_unwritten h hmonitor hx
    have hmessages := h.messages
    rw [hmqueue, ← hsame] at hmessages
    rw [hmessages]
    simp [State.unwritten, hmonitor, Monitor.filled]

theorem conserves_monitorAppend (h : Conserves s) (hmonitor : s.monitor = .append b) :
    Conserves { s with monitorCount := s.monitorCount + 1, monitor := .loop
                       incoming := s.incoming ++ [b], appended := s.appended + 1 } where
  places := by
    rw [← h.places]
    simp [State.places, hmonitor, Monitor.held]
  nodup := h.nodup
  pending := by
    have hpending := h.pending
    rw [hmonitor] at hpending
    simp only [Monitor.ahead] at *
    omega
  messages := by
    rw [h.messages]
    simp [State.unwritten, hmonitor, Monitor.filled]

/-- The monitor goes on without a block. -/
theorem conserves_monitor_move (h : Conserves s) (hheld : s.monitor.held = []) {m : Monitor}
    (hm : m.held = []) : Conserves { s with monitor := m } := by
  have hfilled {m : Monitor} (hm : m.held = []) : m.filled = [] ∧ m.ahead = 0 := by
    cases m <;> simp_all [Monitor.held, Monitor.filled, Monitor.ahead]
  obtain ⟨hold, hahead⟩ := hfilled hheld
  obtain ⟨hnew, hahead'⟩ := hfilled hm
  refine ⟨?_, h.nodup, ?_, ?_⟩
  · rw [← h.places]
    simp only [State.places, hheld, hm]
  · have hpending := h.pending
    rwa [hahead, ← hahead'] at hpending
  · rw [h.messages]
    simp only [State.unwritten, hold, hnew]

theorem conserves_monitorEntry_iff (h : Conserves s) {a : Answer}
    (hpossible : Possible s (.monitor a)) :
    Conserves (s.monitorEntry numLoops a) ↔ Appends s (.monitor a) := by
  cases hmonitor : s.monitor with
  | stateSetTrue =>
    simp only [State.monitorEntry, Appends, hmonitor]
    refine iff_of_true (conserves_monitor_move h (by rw [hmonitor]; rfl) ?_) trivial
    split <;> rfl
  | loop =>
    simp only [State.monitorEntry, Appends, hmonitor]
    refine iff_of_true ?_ trivial
    split
    · split
      · exact conserves_monitor_move h (by rw [hmonitor]; rfl) rfl
      · rename_i b hb
        exact conserves_alloc h hmonitor (hpossible hmonitor b hb)
    · exact conserves_monitor_move h (by rw [hmonitor]; rfl) rfl
  | msgqGet b =>
    simp only [State.monitorEntry, Appends, hmonitor]
    refine iff_of_true ?_ trivial
    split
    · exact h
    · rename_i data mqueue hmqueue
      exact conserves_msgqGet h hmonitor hmqueue
  | count b =>
    simp only [State.monitorEntry, Appends, hmonitor]
    refine iff_of_true ⟨?_, h.nodup, ?_, ?_⟩ trivial
    · rw [← h.places]
      simp [State.places, hmonitor, Monitor.held]
    · have hpending := h.pending
      rw [hmonitor] at hpending
      simp only [Monitor.ahead] at *
      omega
    · rw [h.messages]
      simp [State.unwritten, hmonitor, Monitor.filled]
  | append b =>
    simp only [State.monitorEntry, Appends, hmonitor]
    constructor
    · intro hnext
      by_contra hfail
      rw [if_neg hfail] at hnext
      -- The block is still allocated, and in no place.
      have hplaces := congrArg List.length (hnext.places.trans h.places.symm)
      simp [State.places, hmonitor, Monitor.held] at hplaces
    · intro hok
      rw [if_pos hok]
      exact conserves_monitorAppend h hmonitor
  | stateSetFalse =>
    simp only [State.monitorEntry, Appends, hmonitor]
    exact iff_of_true (conserves_monitor_move h (by rw [hmonitor]; rfl) rfl) trivial
  | ended =>
    simp only [State.monitorEntry, Appends, hmonitor]
    exact iff_of_true h trivial

theorem conserves_processorThread_iff (h : Conserves s) {ok : Bool} :
    Conserves (s.processorThread numLoops ok) ↔ Appends s (.processor ok) := by
  have hplaces := h.places
  have hmessages := h.messages
  cases hprocessor : s.processor with
  | loop =>
    simp only [State.processorThread, Appends, hprocessor]
    refine iff_of_true ?_ trivial
    split
    · split
      · exact h
      · rename_i b incoming hincoming
        refine ⟨hplaces ▸ ?_, h.nodup, h.pending, hmessages ▸ ?_⟩
        · simp [State.places, hprocessor, hincoming, Processor.held]
        · simp [State.unwritten, hprocessor, hincoming, Processor.held]
    · refine ⟨hplaces ▸ ?_, h.nodup, h.pending, hmessages ▸ ?_⟩
      · simp [State.places, hprocessor, Processor.held]
      · simp [State.unwritten, hprocessor, Processor.held]
  | count b =>
    simp only [State.processorThread, Appends, hprocessor]
    refine iff_of_true ⟨hplaces ▸ ?_, h.nodup, h.pending, hmessages ▸ ?_⟩ trivial
    · simp [State.places, hprocessor, Processor.held]
    · simp [State.unwritten, hprocessor, Processor.held]
  | append b =>
    simp only [State.processorThread, Appends, hprocessor]
    constructor
    · intro hnext
      by_contra hfail
      rw [if_neg hfail] at hnext
      have hlength := congrArg List.length (hnext.places.trans hplaces.symm)
      simp [State.places, hprocessor, Processor.held] at hlength
    · intro hok
      rw [if_pos hok]
      refine ⟨hplaces ▸ ?_, h.nodup, h.pending, hmessages ▸ ?_⟩
      · simp [State.places, hprocessor, Processor.held]
      · simp [State.unwritten, hprocessor, Processor.held]
  | ended =>
    simp only [State.processorThread, Appends, hprocessor]
    exact iff_of_true h trivial

theorem conserves_writebackEntry (h : Conserves s) : Conserves (s.writebackEntry numLoops) := by
  have hplaces := h.places
  have hpending := h.pending
  have hmessages := h.messages
  cases hwriteback : s.writeback with
  | loop =>
    rw [hwriteback] at hpending
    simp only [State.writebackEntry, hwriteback]
    split
    · split
      · exact h
      · rename_i b outgoing houtgoing
        refine ⟨hplaces ▸ ?_, h.nodup, hpending, hmessages ▸ ?_⟩
        · simp [State.places, hwriteback, houtgoing, Writeback.held]
        · simp [State.unwritten, hwriteback, houtgoing, Writeback.toWrite]
    · refine ⟨hplaces ▸ ?_, h.nodup, hpending, hmessages ▸ ?_⟩
      · simp [State.places, hwriteback, Writeback.held]
      · simp [State.unwritten, hwriteback, Writeback.toWrite]
  | write b =>
    rw [hwriteback] at hpending
    simp only [State.writebackEntry, hwriteback]
    refine ⟨hplaces ▸ ?_, h.nodup, hpending, hmessages ▸ ?_⟩
    · simp [State.places, hwriteback, Writeback.held]
    · simp [State.unwritten, hwriteback, Writeback.toWrite]
  | free b =>
    simp only [State.writebackEntry, hwriteback]
    -- The oldest block is the one that is freed.
    have hpool : s.pool =
        b :: (s.outgoing ++ s.processor.held ++ s.incoming ++ s.monitor.held) := by
      rw [← hplaces]
      simp [State.places, hwriteback, Writeback.held]
    have hnodup := h.nodup
    rw [hpool] at hnodup
    rw [hpool, List.erase_cons_head]
    refine ⟨rfl, hnodup.of_cons, ?_, hmessages ▸ ?_⟩
    · rw [hwriteback] at hpending
      simp only [Writeback.ahead] at *
      omega
    · simp [State.unwritten, hwriteback, Writeback.toWrite]
  | uncount =>
    simp only [State.writebackEntry, hwriteback]
    refine ⟨hplaces ▸ ?_, h.nodup, ?_, hmessages ▸ ?_⟩
    · simp [State.places, hwriteback, Writeback.held]
    · rw [hwriteback] at hpending
      simp only [Writeback.ahead] at *
      omega
    · simp [State.unwritten, hwriteback, Writeback.toWrite]
  | ended =>
    simp only [State.writebackEntry, hwriteback]
    exact h

theorem conserves_step_iff (h : Conserves s) (hpossible : Possible s e) :
    Conserves (step numLoops s e) ↔ Appends s e := by
  cases e with
  | sampleCallback data => exact iff_of_true (conserves_sampleCallback h data) trivial
  | monitor a => exact conserves_monitorEntry_iff h hpossible
  | processor ok => exact conserves_processorThread_iff h
  | writeback => exact iff_of_true (conserves_writebackEntry h) trivial

theorem rounds_monitorEntry (h : Rounds numLoops s) {a : Answer}
    (happends : Appends s (.monitor a)) : Rounds numLoops (s.monitorEntry numLoops a) := by
  have hmonitor := h.monitor
  have hprocessor := h.processor
  cases hpc : s.monitor <;>
    simp only [State.monitorEntry, Appends, Monitor.round, hpc] at hmonitor happends ⊢
  case stateSetTrue =>
    refine ⟨?_, hprocessor, h.ended⟩
    simp only
    split <;> exact hmonitor
  case loop =>
    split
    · rename_i hlt
      split
      · exact ⟨hmonitor, hprocessor, h.ended⟩
      · exact ⟨hlt, hprocessor, h.ended⟩
    · exact ⟨hmonitor, hprocessor, h.ended⟩
  case msgqGet =>
    split
    · refine ⟨?_, hprocessor, h.ended⟩
      rw [hpc]
      exact hmonitor
    · exact ⟨hmonitor, hprocessor, h.ended⟩
  case count => exact ⟨hmonitor, hprocessor, h.ended⟩
  case append b =>
    rw [if_pos happends]
    refine ⟨hmonitor, ?_, h.ended⟩
    simp only [List.length_append, List.length_singleton]
    omega
  case stateSetFalse => exact ⟨hmonitor, hprocessor, h.ended⟩
  case ended =>
    refine ⟨?_, hprocessor, h.ended⟩
    rw [hpc]
    exact hmonitor

theorem rounds_processorThread (h : Rounds numLoops s) (ok : Bool) :
    Rounds numLoops (s.processorThread numLoops ok) := by
  have hprocessor := h.processor
  cases hpc : s.processor <;>
    simp only [State.processorThread, Processor.taken, hpc] at hprocessor ⊢
  case loop =>
    split
    · split
      · exact h
      · rename_i b incoming hincoming
        refine ⟨h.monitor, ?_, fun hno => nomatch hno⟩
        rw [hincoming, List.length_cons] at hprocessor
        exact hprocessor
    · rename_i hge
      exact ⟨h.monitor, hprocessor, fun _ => Nat.le_of_not_lt hge⟩
  case count b =>
    refine ⟨h.monitor, ?_, fun hno => nomatch hno⟩
    simp only [Processor.taken]
    omega
  case append b =>
    split <;> exact ⟨h.monitor, hprocessor, fun hno => nomatch hno⟩
  case ended => exact h

theorem rounds_step (h : Rounds numLoops s) (happends : Appends s e) :
    Rounds numLoops (step numLoops s e) := by
  cases e with
  | sampleCallback data =>
    show Rounds numLoops (s.sampleCallback data)
    unfold State.sampleCallback
    split
    · exact ⟨h.monitor, h.processor, h.ended⟩
    · exact h
  | monitor a => exact rounds_monitorEntry h happends
  | processor ok => exact rounds_processorThread h ok
  | writeback =>
    show Rounds numLoops (s.writebackEntry numLoops)
    unfold State.writebackEntry
    split
    · split
      · split
        · exact h
        · exact ⟨h.monitor, h.processor, h.ended⟩
      · exact ⟨h.monitor, h.processor, h.ended⟩
    · exact ⟨h.monitor, h.processor, h.ended⟩
    · exact ⟨h.monitor, h.processor, h.ended⟩
    · exact ⟨h.monitor, h.processor, h.ended⟩
    · exact h

theorem inv_step (h : Inv numLoops s) (hpossible : Possible s e) (happends : Appends s e) :
    Inv numLoops (step numLoops s e) :=
  ⟨(conserves_step_iff h.conserves hpossible).mpr happends, rounds_step h.rounds happends⟩

/-- The statements the processor needs for the block it holds. -/
def Processor.toDo : Processor → Nat
  | .count _ => 2
  | .append _ => 1
  | _ => 0

/-- The statements the processor needs for what the monitor has appended. -/
def State.toProcess (s : State) : Nat := 3 * s.incoming.length + s.processor.toDo

theorem monitor_processorThread (ok : Bool) :
    (s.processorThread numLoops ok).monitor = s.monitor := by
  unfold State.processorThread
  split
  · split
    · split <;> rfl
    · rfl
  · rfl
  · simp only
    split <;> rfl
  · rfl

/-- Every statement of the processor brings what the monitor has appended nearer. -/
theorem toProcess_processorThread (h : Rounds numLoops s) (ok : Bool) :
    (s.processorThread numLoops ok).toProcess ≤ s.toProcess - 1 := by
  have hcount := h.processor
  have hround := h.monitor
  cases hpc : s.processor with
  | loop =>
    rw [hpc] at hcount
    simp only [State.processorThread, hpc]
    split
    · split
      · rename_i hincoming
        simp [State.toProcess, hincoming, hpc, Processor.toDo]
      · rename_i b incoming hincoming
        simp only [State.toProcess, hincoming, hpc, Processor.toDo, List.length_cons]
        omega
    · -- The loop does not end before the queue is empty.
      rename_i hge
      have hnone : s.incoming.length = 0 := by
        simp only [Processor.taken] at hcount
        omega
      simp [State.toProcess, hnone, hpc, Processor.toDo]
  | count b =>
    simp only [State.processorThread, State.toProcess, hpc, Processor.toDo]
    omega
  | append b =>
    simp only [State.processorThread, hpc]
    split
    · simp [State.toProcess, hpc, Processor.toDo]
    · simp [State.toProcess, hpc, Processor.toDo]
  | ended =>
    have hnone : s.incoming.length = 0 := by
      have := h.ended hpc
      omega
    simp [State.processorThread, State.toProcess, hnone, hpc, Processor.toDo]

/-- When the monitor has ended, no statement takes a payload back. -/
theorem toProcess_step (h : Rounds numLoops s) (hended : s.monitor = .ended) :
    (step numLoops s e).monitor = .ended ∧
      (step numLoops s e).toProcess ≤ s.toProcess - if e.IsProcessor then 1 else 0 := by
  cases e with
  | sampleCallback data =>
    show (s.sampleCallback data).monitor = .ended ∧ (s.sampleCallback data).toProcess ≤ s.toProcess
    unfold State.sampleCallback
    split <;> exact ⟨hended, Nat.le_refl _⟩
  | monitor a =>
    have hnext : step numLoops s (.monitor a) = s := by
      simp [step, State.monitorEntry, hended]
    rw [hnext]
    exact ⟨hended, Nat.le_refl _⟩
  | writeback =>
    show (s.writebackEntry numLoops).monitor = .ended ∧
      (s.writebackEntry numLoops).toProcess ≤ s.toProcess
    unfold State.writebackEntry
    split
    · split
      · split <;> exact ⟨hended, Nat.le_refl _⟩
      · exact ⟨hended, Nat.le_refl _⟩
    all_goals exact ⟨hended, Nat.le_refl _⟩
  | processor ok =>
    refine ⟨?_, toProcess_processorThread h ok⟩
    show (s.processorThread numLoops ok).monitor = .ended
    rw [monitor_processorThread]
    exact hended

/-- The processor comes to an empty queue. -/
theorem toProcess_run {es : List Event} (h : Inv numLoops s) (hended : s.monitor = .ended)
    (hpossible : Along (step numLoops) Possible s es)
    (happends : Along (step numLoops) Appends s es) :
    (run (step numLoops) s es).monitor = .ended ∧
      (run (step numLoops) s es).toProcess ≤ s.toProcess - es.countP Event.IsProcessor := by
  induction es generalizing s with
  | nil => exact ⟨hended, Nat.le_refl _⟩
  | cons e es ih =>
    obtain ⟨hended', hle⟩ := toProcess_step (e := e) h.rounds hended
    obtain ⟨hlast, hle'⟩ :=
      ih (inv_step h hpossible.1 happends.1) hended' hpossible.2 happends.2
    refine ⟨hlast, ?_⟩
    rw [run_cons, List.countP_cons]
    omega

theorem toProcess_le (h : Rounds numLoops s) : s.toProcess ≤ 3 * numLoops + 1 := by
  have hcount := h.processor
  have hround := h.monitor
  unfold State.toProcess
  cases hpc : s.processor <;> simp only [hpc, Processor.toDo, Processor.taken] at * <;> omega

theorem delivers_of_appends {es : List Event} (h : Inv numLoops s)
    (hpossible : Along (step numLoops) Possible s es)
    (happends : Along (step numLoops) Appends s es) : Delivers numLoops s es := by
  rintro before after rfl hended hmany
  rw [along_append] at hpossible happends
  have hmiddle : Inv numLoops (run (step numLoops) s before) :=
    Along.invariant (step numLoops) (G := fun s e => Possible s e ∧ Appends s e)
      (fun _ _ hs hG => inv_step hs hG.1 hG.2) h (hpossible.1.and (step numLoops) happends.1)
  have hlast : Inv numLoops (run (step numLoops) (run (step numLoops) s before) after) :=
    Along.invariant (step numLoops) (G := fun s e => Possible s e ∧ Appends s e)
      (fun _ _ hs hG => inv_step hs hG.1 hG.2) hmiddle (hpossible.2.and (step numLoops) happends.2)
  obtain ⟨hended', hle⟩ := toProcess_run hmiddle hended hpossible.2 happends.2
  have hbound := toProcess_le hmiddle.rounds
  rw [run_append]
  have hnone : (run (step numLoops) (run (step numLoops) s before) after).toProcess = 0 := by omega
  have hincoming :
      (run (step numLoops) (run (step numLoops) s before) after).incoming = [] := by
    rw [← List.length_eq_zero_iff]
    unfold State.toProcess at hnone
    omega
  have hheld :
      (run (step numLoops) (run (step numLoops) s before) after).processor.held = [] := by
    have hdone : (run (step numLoops) (run (step numLoops) s before) after).processor.toDo = 0 := by
      unfold State.toProcess at hnone
      omega
    revert hdone
    cases (run (step numLoops) (run (step numLoops) s before) after).processor <;>
      simp [Processor.toDo, Processor.held]
  rw [← hlast.conserves.places, State.places, hincoming, hheld, hended']
  simp [Monitor.held]

/-- Every run, for any number of rounds. -/
theorem pipeline_conserves_iff_appends (numLoops : Nat) {es : List Event}
    (hpossible : Along (step numLoops) Possible start es) :
    (Always (step numLoops) Conserves start es ∧ Delivers numLoops start es) ↔
      Along (step numLoops) Appends start es := by
  have hiff : Always (step numLoops) Conserves start es ↔ Along (step numLoops) Appends start es :=
    always_iff_along_of_along (step numLoops) (I := fun _ => True) (fun _ _ _ _ => trivial)
      (fun _ _ _ hp h => conserves_step_iff h hp) trivial conserves_start hpossible
  constructor
  · exact fun h => hiff.mp h.1
  · intro happends
    exact ⟨hiff.mpr happends,
      delivers_of_appends ⟨conserves_start, rounds_start⟩ hpossible happends⟩

/-- A message on its way from the driver to the driver, in block 3. -/
def oneRound (data : Payload) : List Event :=
  [.monitor ⟨some 3, true⟩, .sampleCallback data, .monitor ⟨none, true⟩, .monitor ⟨none, true⟩,
    .monitor ⟨none, true⟩] ++ List.replicate 3 (.processor true) ++ List.replicate 4 .writeback

/-- Two messages go through the pipeline, the second one in the block of the first, and the threads
end. -/
def twoMessages : List Event :=
  .monitor ⟨none, true⟩ :: (oneRound [7] ++ oneRound [8]) ++
    List.replicate 2 (.monitor ⟨none, true⟩) ++ List.replicate 7 (.processor true) ++ [.writeback]

theorem pipeline_conserves_twoMessages :
    Along (step 2) Possible start twoMessages ∧ Always (step 2) Conserves start twoMessages ∧
      Delivers 2 start twoMessages := by
  have hpossible : Along (step 2) Possible start twoMessages := by decide +kernel
  exact ⟨hpossible, (pipeline_conserves_iff_appends 2 hpossible).mpr (by decide +kernel)⟩

/-- Both are written, and all three threads have ended. -/
example : (run (step 2) start twoMessages).written = [[7], [8]] ∧
    (run (step 2) start twoMessages).monitor = .ended ∧
    (run (step 2) start twoMessages).processor = .ended ∧
    (run (step 2) start twoMessages).writeback = .ended := by decide +kernel

/-- The monitor gets one message, and appends it or not. -/
def oneMessage (ok : Bool) : List Event :=
  [.monitor ⟨none, true⟩, .monitor ⟨some 3, true⟩, .sampleCallback [7], .monitor ⟨none, true⟩,
    .monitor ⟨none, true⟩, .monitor ⟨none, ok⟩, .monitor ⟨none, true⟩, .monitor ⟨none, true⟩,
    .processor true, .processor true, .processor true, .processor true]

/-- The one block is nowhere, and the writeback thread waits for it. -/
theorem failed_append_not_conserved :
    Along (step 1) Possible start (oneMessage false) ∧
      (run (step 1) start (oneMessage false)).monitor = .ended ∧
      (run (step 1) start (oneMessage false)).pool = [3] ∧
      (run (step 1) start (oneMessage false)).places = [] ∧
      (run (step 1) start (oneMessage false)).pendingCount = 1 ∧
      ¬ Always (step 1) Conserves start (oneMessage false) ∧
      ¬ Delivers 1 start (oneMessage false) := by
  have hpossible : Along (step 1) Possible start (oneMessage false) := by decide
  refine ⟨hpossible, by decide, by decide, by decide, by decide, fun h => ?_, fun h => ?_⟩
  · have hlast : Conserves (run (step 1) start (oneMessage false)) := h.last
    exact absurd hlast.places (by decide)
  · have hlast := h ((oneMessage false).take 8) ((oneMessage false).drop 8) (by decide) (by decide)
      (by decide)
    exact absurd hlast (by decide)

end ProdConsumer
end ZephyrSamples
