import Mathlib.Data.List.Chain
import Mathlib.Logic.Function.Basic
import ZephyrSamples.Lib.Runs

/-!
# Starting and stopping the audio streams

`audio_drv_thread` from its own `audio_driver_start` on, and the thread that runs the START and STOP
tuning commands, statement by statement and in any interleaving.  `audio_drv_sync_sem` is a token:
the start gives it, the driver's loop has it for a frame, and the stop takes it away.  The flag is
tested without a lock, and there is one token as long as no thread passes that test while the other
one is between the test and the assignment.
-/

namespace ZephyrSamples
namespace AudioCrb
namespace StartStop

open Runs

/-- The streams in the order they are triggered in. -/
inductive Stream where
  | hostTx
  | hostRx
  | spk
  | dmic
  deriving DecidableEq, Repr

/-- The statement of `audio_driver_start` a thread is at. -/
inductive StartPc where
  | test
  | zeros
  | zerosAgain
  | trigger (stream : Stream)
  | setFlag
  | give
  deriving DecidableEq, Repr

/-- The statement of `audio_driver_stop`; at `pend` the thread waits for the semaphore. -/
inductive StopPc where
  | test
  | take
  | pend
  | trigger (stream : Stream)
  | clearFlag
  deriving DecidableEq, Repr

/-- The statement of `audio_drv_thread`. -/
inductive DriverPc where
  | start (p : StartPc)
  | take
  | pend
  | dmicRead
  | i2sRead
  | writeSpk
  | writeHost
  | give
  deriving DecidableEq, Repr

/-- Where `audio_core_notify_tuning_cmd` is. -/
inductive TuningPc where
  | idle
  | start (p : StartPc)
  | stop (p : StopPc)
  deriving DecidableEq, Repr

inductive Sequence where
  | start
  | stop
  deriving DecidableEq, Repr

/-- `sequences` are the start and stop sequences in the order they have begun in, `quiet` says that
the last one is a stop sequence and has ended, and `late` that the driver's loop has read or written
then. -/
structure State where
  audioIoStarted : Bool
  syncSem : Bool
  running : Stream → Bool
  driver : DriverPc
  tuning : TuningPc
  sequences : List Sequence
  quiet : Bool
  late : Bool

/-- The streams are configured. -/
def init : State where
  audioIoStarted := false
  syncSem := false
  running _ := false
  driver := .start .test
  tuning := .idle
  sequences := []
  quiet := false
  late := false

def Stream.next? : Stream → Option Stream
  | .hostTx => some .hostRx
  | .hostRx => some .spk
  | .spk => some .dmic
  | .dmic => none

namespace State

/-- `k_sem_give`: the thread that waits has the semaphore, if there is one. -/
def give (s : State) : State :=
  if s.driver = .pend then { s with driver := .dmicRead }
  else if s.tuning = .stop .pend then { s with tuning := .stop (.trigger .hostTx) }
  else { s with syncSem := true }

def trigger (s : State) (stream : Stream) (on : Bool) : State :=
  { s with running := Function.update s.running stream on }

/-- A statement of `audio_driver_start` and the one after it. -/
def audioDriverStart (s : State) : StartPc → State × Option StartPc
  | .test => if s.audioIoStarted then (s, none) else (s, some .zeros)
  | .zeros => ({ s with sequences := s.sequences ++ [.start], quiet := false }, some .zerosAgain)
  | .zerosAgain => (s, some (.trigger .hostTx))
  | .trigger stream =>
    (s.trigger stream true, some (match stream.next? with
      | some stream => .trigger stream
      | none => .setFlag))
  | .setFlag => ({ s with audioIoStarted := true }, some .give)
  | .give => (s.give, none)

/-- A statement of `audio_driver_stop`. -/
def audioDriverStop (s : State) : StopPc → State
  | .test => { s with tuning := if s.audioIoStarted then .stop .take else .idle }
  | .take =>
    if s.syncSem then { s with syncSem := false, tuning := .stop (.trigger .hostTx) }
    else { s with tuning := .stop .pend }
  | .pend => s
  | .trigger .hostTx =>
    { s.trigger .hostTx false with
      sequences := s.sequences ++ [.stop]
      tuning := .stop (.trigger .hostRx) }
  | .trigger .hostRx => { s.trigger .hostRx false with tuning := .stop (.trigger .spk) }
  | .trigger .spk => { s.trigger .spk false with tuning := .stop (.trigger .dmic) }
  | .trigger .dmic => { s.trigger .dmic false with quiet := true, tuning := .stop .clearFlag }
  | .clearFlag => { s with audioIoStarted := false, tuning := .idle }

/-- A read or write of the driver's loop. -/
def io (s : State) (next : DriverPc) : State :=
  { s with late := s.late || s.quiet, driver := next }

/-- A statement of `audio_drv_thread`; `ok` says that `dmic_read` succeeds. -/
def audioDrvThread (s : State) (ok : Bool) : State :=
  match s.driver with
  | .start p =>
    let (s, next) := s.audioDriverStart p
    { s with driver := match next with
      | some p => .start p
      | none => .take }
  | .take =>
    if s.syncSem then { s with syncSem := false, driver := .dmicRead }
    else { s with driver := .pend }
  | .pend => s
  | .dmicRead => s.io (if ok then .i2sRead else .writeSpk)
  | .i2sRead => s.io .writeSpk
  | .writeSpk => s.io .writeHost
  | .writeHost => s.io .give
  | .give => { s.give with driver := .take }

/-- A statement of `audio_core_notify_tuning_cmd`. -/
def notifyTuningCmd (s : State) : State :=
  match s.tuning with
  | .idle => s
  | .start p =>
    let (s, next) := s.audioDriverStart p
    { s with tuning := match next with
      | some p => .start p
      | none => .idle }
  | .stop p => s.audioDriverStop p

end State

/-- A command comes once the one before it has been answered.  The driver thread takes no step while
it is blocked in a device call. -/
inductive Event where
  | driver (ok : Bool)
  | tuning
  | command (c : Sequence)
  deriving DecidableEq, Repr

def step (s : State) : Event → State
  | .driver ok => s.audioDrvThread ok
  | .tuning => s.notifyTuningCmd
  | .command c =>
    if s.tuning = .idle then
      { s with tuning := match c with
        | .start => .start .test
        | .stop => .stop .test }
    else s

/-! ## A command returns -/

/-- Both threads take a step. -/
structure Round (es : List Event) : Prop where
  driver : ∃ ok, .driver ok ∈ es
  tuning : .tuning ∈ es
  noCommand : ∀ c, .command c ∉ es

/-- The rounds after which a command has returned. -/
def returnBound : Nat := 63

/-- As long as both threads go on, the command that is executed returns. -/
def Returns (s : State) : Prop :=
  ∀ rounds : List (List Event), (∀ es ∈ rounds, Round es) → returnBound ≤ rounds.length →
    (run step s rounds.flatten).tuning = .idle

/-- The driver thread is going to give the semaphore. -/
def DriverPc.Gives : DriverPc → Prop
  | .start .give | .dmicRead | .i2sRead | .writeSpk | .writeHost | .give => True
  | _ => False

/-- The statements of a command during which a token must be there when the flag is set. -/
def TuningPc.Expects : TuningPc → Prop
  | .idle | .stop .test | .stop .take => True
  | .start p => p ≠ .give
  | _ => False

/-- The flag is set only when there is a token, or will be one. -/
structure Alive (s : State) : Prop where
  pend : s.tuning = .stop .pend → s.syncSem = false ∧ s.driver.Gives
  take : s.tuning = .stop .take → s.audioIoStarted = true
  token : s.audioIoStarted = true → s.tuning.Expects → s.syncSem = true ∨ s.driver.Gives

theorem alive_init : Alive init := by
  constructor <;> simp [init]

/-- The driver thread goes on without the semaphore and the flag, and has not been about to give. -/
theorem Alive.moveDriver {s t : State} (h : Alive s) (htuning : t.tuning = s.tuning)
    (hsem : t.syncSem = s.syncSem) (hflag : t.audioIoStarted = s.audioIoStarted)
    (hgives : s.driver.Gives → t.driver.Gives) : Alive t where
  pend hat := by
    obtain ⟨hzero, hs⟩ := h.pend (htuning.symm.trans hat)
    exact ⟨hsem.trans hzero, hgives hs⟩
  take hat := hflag.trans (h.take (htuning.symm.trans hat))
  token ht hexpects := by
    rw [hflag] at ht
    rw [htuning] at hexpects
    rw [hsem]
    exact (h.token ht hexpects).imp_right hgives

/-- The driver thread gives the semaphore. -/
theorem Alive.driverGive {s : State} (h : Alive s) (hne : s.driver ≠ .pend) (driver : DriverPc) :
    Alive { s.give with driver := driver } := by
  rw [State.give, if_neg hne]
  split
  case isTrue => exact ⟨by simp, by simp, fun _ hexpects => absurd hexpects id⟩
  case isFalse hpend => exact ⟨fun hat => absurd hat hpend, h.take, fun _ _ => .inl rfl⟩

theorem Alive.driver {s : State} (h : Alive s) (ok : Bool) : Alive (s.audioDrvThread ok) := by
  cases hat : s.driver with
  | start p =>
    simp only [State.audioDrvThread, hat]
    cases p with
    | test =>
      simp only [State.audioDriverStart]
      split <;> exact h.moveDriver rfl rfl rfl (by simp [hat, DriverPc.Gives])
    | zeros => exact h.moveDriver rfl rfl rfl (by simp [hat, DriverPc.Gives])
    | zerosAgain => exact h.moveDriver rfl rfl rfl (by simp [hat, DriverPc.Gives])
    | trigger stream => exact h.moveDriver rfl rfl rfl (by simp [hat, DriverPc.Gives])
    | setFlag =>
      have hpend : s.tuning ≠ .stop .pend := fun hpend => by
        simpa [hat, DriverPc.Gives] using (h.pend hpend).2
      exact ⟨fun hpend' => absurd hpend' hpend, fun _ => rfl, fun _ _ => .inr trivial⟩
    | give => exact h.driverGive (by simp [hat]) .take
  | take =>
    simp only [State.audioDrvThread, hat]
    split
    case isTrue hsem =>
      refine ⟨fun hpend => ?_, h.take, fun _ _ => .inr trivial⟩
      simp [(h.pend hpend).1] at hsem
    case isFalse => exact h.moveDriver rfl rfl rfl (by simp [hat, DriverPc.Gives])
  | pend =>
    simp only [State.audioDrvThread, hat]
    exact h
  | dmicRead =>
    simp only [State.audioDrvThread, hat]
    split <;> exact h.moveDriver rfl rfl rfl fun _ => trivial
  | give =>
    simp only [State.audioDrvThread, hat]
    exact h.driverGive (by simp [hat]) .take
  | i2sRead =>
    simp only [State.audioDrvThread, hat]
    exact h.moveDriver rfl rfl rfl fun _ => trivial
  | writeSpk =>
    simp only [State.audioDrvThread, hat]
    exact h.moveDriver rfl rfl rfl fun _ => trivial
  | writeHost =>
    simp only [State.audioDrvThread, hat]
    exact h.moveDriver rfl rfl rfl fun _ => trivial

/-- The thread of the commands goes on without the semaphore and the flag; it waits only for a token
that is to be given. -/
theorem Alive.moveTuning {s t : State} (h : Alive s) (hdriver : t.driver = s.driver)
    (hsem : t.syncSem = s.syncSem) (hflag : t.audioIoStarted = s.audioIoStarted)
    (hpend : t.tuning ≠ .stop .pend) (htake : t.tuning = .stop .take → s.audioIoStarted = true)
    (hexpects : t.tuning.Expects → s.tuning.Expects) : Alive t where
  pend hat := absurd hat hpend
  take hat := hflag.trans (htake hat)
  token ht hs := by
    rw [hflag] at ht
    rw [hsem, hdriver]
    exact h.token ht (hexpects hs)

/-- The last statement of a start command gives the semaphore. -/
theorem Alive.tuningGive {s : State} (hat : s.tuning = .start .give) :
    Alive { s.give with tuning := .idle } := by
  rw [State.give]
  split
  case isTrue => exact ⟨by simp, by simp, fun _ _ => .inr trivial⟩
  case isFalse =>
    rw [if_neg (by simp [hat])]
    exact ⟨by simp, by simp, fun _ _ => .inl rfl⟩

theorem Alive.tuning {s : State} (h : Alive s) : Alive s.notifyTuningCmd := by
  cases hat : s.tuning with
  | idle =>
    simp only [State.notifyTuningCmd, hat]
    exact h
  | start p =>
    have hexpects : p ≠ .give → s.tuning.Expects := fun hne => by
      simpa [hat, TuningPc.Expects] using hne
    simp only [State.notifyTuningCmd, hat]
    cases p with
    | test =>
      simp only [State.audioDriverStart]
      split <;> exact h.moveTuning rfl rfl rfl (by simp) (by simp) fun _ => hexpects (by simp)
    | zeros =>
      simp only [State.audioDriverStart]
      exact h.moveTuning rfl rfl rfl (by simp) (by simp) fun _ => hexpects (by simp)
    | zerosAgain =>
      simp only [State.audioDriverStart]
      exact h.moveTuning rfl rfl rfl (by simp) (by simp) fun _ => hexpects (by simp)
    | trigger stream =>
      simp only [State.audioDriverStart]
      exact h.moveTuning rfl rfl rfl (by simp) (by simp) fun _ => hexpects (by simp)
    | setFlag =>
      simp only [State.audioDriverStart]
      exact ⟨by simp, by simp, fun _ hgive => absurd rfl hgive⟩
    | give => exact Alive.tuningGive hat
  | stop p =>
    simp only [State.notifyTuningCmd, hat]
    cases p with
    | test =>
      have hexpects : s.tuning.Expects := by simp [hat, TuningPc.Expects]
      simp only [State.audioDriverStop]
      split
      case isTrue hflag =>
        exact h.moveTuning rfl rfl rfl (by simp) (fun _ => hflag) fun _ => hexpects
      case isFalse => exact h.moveTuning rfl rfl rfl (by simp) (by simp) fun _ => hexpects
    | take =>
      simp only [State.audioDriverStop]
      split
      case isTrue => exact ⟨by simp, by simp, fun _ hexpects => absurd hexpects id⟩
      case isFalse hsem =>
        -- the flag is set, so a token that is not there is going to be given
        have htoken := h.token (h.take hat) (by simp [hat, TuningPc.Expects])
        have hzero : s.syncSem = false := by simpa using hsem
        exact ⟨fun _ => ⟨hzero, htoken.resolve_left hsem⟩, by simp,
          fun _ hexpects => absurd hexpects id⟩
    | pend => exact h
    | trigger stream =>
      cases stream <;>
        exact h.moveTuning rfl rfl rfl (by simp [State.audioDriverStop])
          (by simp [State.audioDriverStop]) fun hexpects => absurd hexpects id
    | clearFlag =>
      simp only [State.audioDriverStop]
      exact ⟨by simp, by simp, by simp⟩

theorem alive_step (s : State) (e : Event) (h : Alive s) : Alive (step s e) := by
  cases e with
  | driver ok => exact h.driver ok
  | tuning => exact h.tuning
  | command c =>
    simp only [step]
    split
    case isTrue hidle =>
      have hexpects : s.tuning.Expects := by simp [hidle, TuningPc.Expects]
      cases c <;> exact h.moveTuning rfl rfl rfl (by simp) (by simp) fun _ => hexpects
    case isFalse => exact h

/-- The statements of `audio_driver_start` from `p` on. -/
def StartPc.remaining : StartPc → Nat
  | .test => 9
  | .zeros => 8
  | .zerosAgain => 7
  | .trigger .hostTx => 6
  | .trigger .hostRx => 5
  | .trigger .spk => 4
  | .trigger .dmic => 3
  | .setFlag => 2
  | .give => 1

def StopPc.remaining : StopPc → Nat
  | .test => 8
  | .take => 7
  | .pend => 6
  | .trigger .hostTx => 5
  | .trigger .hostRx => 4
  | .trigger .spk => 3
  | .trigger .dmic => 2
  | .clearFlag => 1

def TuningPc.remaining : TuningPc → Nat
  | .idle => 0
  | .start p => p.remaining
  | .stop p => p.remaining

/-- The statements up to the one that gives the semaphore. -/
def DriverPc.untilGive : DriverPc → Nat
  | .dmicRead => 5
  | .i2sRead => 4
  | .writeSpk => 3
  | .writeHost => 2
  | .give | .start .give => 1
  | _ => 0

/-- What a command still needs: its own statements, and while it waits those of the driver
thread. -/
def State.measure (s : State) : Nat :=
  7 * s.tuning.remaining + if s.tuning = .stop .pend then s.driver.untilGive else 0

theorem untilGive_le (p : DriverPc) : p.untilGive ≤ 5 := by
  unfold DriverPc.untilGive
  split <;> omega

theorem remaining_eq_zero {p : TuningPc} : p.remaining = 0 ↔ p = .idle := by
  cases p with
  | idle => simp [TuningPc.remaining]
  | start p => cases p with
    | trigger stream => cases stream <;> simp [TuningPc.remaining, StartPc.remaining]
    | _ => simp [TuningPc.remaining, StartPc.remaining]
  | stop p => cases p with
    | trigger stream => cases stream <;> simp [TuningPc.remaining, StopPc.remaining]
    | _ => simp [TuningPc.remaining, StopPc.remaining]

theorem remaining_le (p : TuningPc) : p.remaining ≤ 9 := by
  cases p with
  | idle => simp [TuningPc.remaining]
  | start p => cases p with
    | trigger stream => cases stream <;> simp [TuningPc.remaining, StartPc.remaining]
    | _ => simp [TuningPc.remaining, StartPc.remaining]
  | stop p => cases p with
    | trigger stream => cases stream <;> simp [TuningPc.remaining, StopPc.remaining]
    | _ => simp [TuningPc.remaining, StopPc.remaining]

variable {s : State}

theorem measure_le (s : State) : s.measure ≤ returnBound := by
  have hremaining := remaining_le s.tuning
  have huntil := untilGive_le s.driver
  unfold State.measure returnBound
  split
  case isTrue hpend => simp [hpend, TuningPc.remaining, StopPc.remaining]; omega
  case isFalse => omega

theorem measure_tuning (hidle : s.tuning ≠ .idle) (hpend : s.tuning ≠ .stop .pend) :
    s.notifyTuningCmd.measure < s.measure := by
  have huntil := untilGive_le s.driver
  cases hat : s.tuning with
  | idle => exact absurd hat hidle
  | start p =>
    simp only [State.notifyTuningCmd, hat, State.measure]
    cases p with
    | test =>
      cases hs : s.audioIoStarted <;>
        simp [State.audioDriverStart, hs, TuningPc.remaining, StartPc.remaining]
    | trigger stream =>
      cases stream <;>
        simp [State.audioDriverStart, Stream.next?, TuningPc.remaining, StartPc.remaining]
    | _ => simp [State.audioDriverStart, TuningPc.remaining, StartPc.remaining]
  | stop p =>
    simp only [State.notifyTuningCmd, hat, State.measure]
    cases p with
    | test =>
      cases hs : s.audioIoStarted <;>
        simp [State.audioDriverStop, hs, TuningPc.remaining, StopPc.remaining]
    | take =>
      cases hs : s.syncSem <;>
        simp [State.audioDriverStop, hs, TuningPc.remaining, StopPc.remaining]
      omega
    | pend => exact absurd hat hpend
    | trigger stream =>
      cases stream <;> simp [State.audioDriverStop, TuningPc.remaining, StopPc.remaining]
    | clearFlag => simp [State.audioDriverStop, TuningPc.remaining, StopPc.remaining]

theorem audioDrvThread_tuning (hpend : s.tuning ≠ .stop .pend) (ok : Bool) :
    (s.audioDrvThread ok).tuning = s.tuning := by
  have hgive : s.give.tuning = s.tuning := by
    simp only [State.give, hpend, if_false]
    split <;> rfl
  cases hat : s.driver with
  | start p =>
    simp only [State.audioDrvThread, hat]
    cases p with
    | test => cases hs : s.audioIoStarted <;> simp [State.audioDriverStart, hs]
    | give => exact hgive
    | _ => rfl
  | take =>
    simp only [State.audioDrvThread, hat]
    split <;> rfl
  | give =>
    simp only [State.audioDrvThread, hat]
    exact hgive
  | _ => simp only [State.audioDrvThread, hat, State.io]

/-- While a command waits, the driver thread comes closer to giving the semaphore. -/
theorem measure_driver (h : Alive s) (hpend : s.tuning = .stop .pend) (ok : Bool) :
    (s.audioDrvThread ok).measure < s.measure := by
  obtain ⟨_, hgives⟩ := h.pend hpend
  cases hat : s.driver with
  | start p =>
    cases p with
    | give =>
      simp [State.audioDrvThread, State.measure, State.audioDriverStart, State.give, hat, hpend,
        TuningPc.remaining, StopPc.remaining, DriverPc.untilGive]
    | _ => simp [hat, DriverPc.Gives] at hgives
  | take => simp [hat, DriverPc.Gives] at hgives
  | pend => simp [hat, DriverPc.Gives] at hgives
  | dmicRead =>
    cases ok <;>
      simp [State.audioDrvThread, State.measure, State.io, hat, hpend, DriverPc.untilGive]
  | give =>
    simp [State.audioDrvThread, State.measure, State.give, hat, hpend, TuningPc.remaining,
      StopPc.remaining, DriverPc.untilGive]
  | _ => simp [State.audioDrvThread, State.measure, State.io, hat, hpend, DriverPc.untilGive]

theorem notifyTuningCmd_pend (hpend : s.tuning = .stop .pend) : s.notifyTuningCmd = s := by
  simp [State.notifyTuningCmd, State.audioDriverStop, hpend]

theorem measure_driver_eq (hpend : s.tuning ≠ .stop .pend) (ok : Bool) :
    (s.audioDrvThread ok).measure = s.measure := by
  simp [State.measure, audioDrvThread_tuning hpend ok, hpend]

theorem measure_step_le (h : Alive s) {e : Event} (he : ∀ c, e ≠ .command c) :
    (step s e).measure ≤ s.measure := by
  cases e with
  | driver ok =>
    by_cases hpend : s.tuning = .stop .pend
    · exact Nat.le_of_lt (measure_driver h hpend ok)
    · exact Nat.le_of_eq (measure_driver_eq hpend ok)
  | tuning =>
    by_cases hpend : s.tuning = .stop .pend
    · exact Nat.le_of_eq (congrArg State.measure (notifyTuningCmd_pend hpend))
    · by_cases hidle : s.tuning = .idle
      · simp [step, State.notifyTuningCmd, hidle]
      · exact Nat.le_of_lt (measure_tuning hidle hpend)
  | command c => exact absurd rfl (he c)

theorem measure_run_le {es : List Event} (h : Alive s) (hes : ∀ c, .command c ∉ es) :
    (run step s es).measure ≤ s.measure := by
  induction es generalizing s with
  | nil => exact Nat.le_refl _
  | cons e es ih =>
    simp only [List.mem_cons, not_or] at hes
    rw [run_cons]
    exact Nat.le_trans (ih (alive_step s e h) fun c => (hes c).2)
      (measure_step_le h fun c hc => (hes c).1 hc.symm)

/-- A command that does not wait goes on in a round with its own statement. -/
theorem measure_run_tuning {es : List Event} (h : Alive s) (hidle : s.tuning ≠ .idle)
    (hpend : s.tuning ≠ .stop .pend) (hes : ∀ c, .command c ∉ es) (hmem : .tuning ∈ es) :
    (run step s es).measure < s.measure := by
  induction es generalizing s with
  | nil => simp at hmem
  | cons e es ih =>
    simp only [List.mem_cons, not_or] at hes
    have hrest : ∀ c, .command c ∉ es := fun c => (hes c).2
    rw [run_cons]
    cases e with
    | driver ok =>
      have hsame := audioDrvThread_tuning hpend ok
      have hlt := ih (alive_step s (.driver ok) h) (hsame ▸ hidle) (hsame ▸ hpend) hrest
        (by simpa using hmem)
      exact Nat.lt_of_lt_of_eq hlt (measure_driver_eq hpend ok)
    | tuning =>
      exact Nat.lt_of_le_of_lt (measure_run_le (alive_step s .tuning h) hrest)
        (measure_tuning hidle hpend)
    | command c => exact absurd rfl (hes c).1

/-- A command that waits goes on in a round with a statement of the driver thread. -/
theorem measure_run_driver {es : List Event} (h : Alive s) (hpend : s.tuning = .stop .pend)
    (hes : ∀ c, .command c ∉ es) (hmem : ∃ ok, .driver ok ∈ es) :
    (run step s es).measure < s.measure := by
  induction es generalizing s with
  | nil => simp at hmem
  | cons e es ih =>
    simp only [List.mem_cons, not_or] at hes
    have hrest : ∀ c, .command c ∉ es := fun c => (hes c).2
    rw [run_cons]
    cases e with
    | driver ok =>
      exact Nat.lt_of_le_of_lt (measure_run_le (alive_step s (.driver ok) h) hrest)
        (measure_driver h hpend ok)
    | tuning =>
      rw [show step s .tuning = s from notifyTuningCmd_pend hpend]
      exact ih h hpend hrest (by simpa using hmem)
    | command c => exact absurd rfl (hes c).1

theorem alive_run (h : Alive s) (es : List Event) : Alive (run step s es) :=
  run_invariant step alive_step h es

theorem Alive.returns (h : Alive s) : Returns s := by
  intro rounds hrounds hlength
  have hmeasure : s.measure ≤ rounds.length := Nat.le_trans (measure_le s) hlength
  clear hlength
  induction rounds generalizing s with
  | nil =>
    have hzero : 7 * s.tuning.remaining ≤ 0 := Nat.le_trans (Nat.le_add_right _ _) hmeasure
    have hidle : s.tuning.remaining = 0 := by omega
    exact remaining_eq_zero.mp hidle
  | cons es rounds ih =>
    obtain ⟨hround, hrest⟩ := List.forall_mem_cons.mp hrounds
    rw [List.flatten_cons, run_append]
    refine ih (alive_run h es) hrest ?_
    rw [List.length_cons] at hmeasure
    by_cases hidle : s.tuning = .idle
    · have hle := measure_run_le h hround.noCommand
      have hzero : s.measure = 0 := by simp [State.measure, hidle, TuningPc.remaining]
      omega
    · by_cases hpend : s.tuning = .stop .pend
      · have := measure_run_driver h hpend hround.noCommand hround.driver
        omega
      · have := measure_run_tuning h hidle hpend hround.noCommand hround.tuning
        omega

/-! ## One token -/

/-- Between the test of the flag in `audio_driver_start` and its assignment. -/
def StartPc.Starting (p : StartPc) : Prop := p ≠ .test ∧ p ≠ .give

def DriverPc.Starting : DriverPc → Prop
  | .start p => p.Starting
  | _ => False

def TuningPc.Starting : TuningPc → Prop
  | .start p => p.Starting
  | _ => False

instance : ∀ p : DriverPc, Decidable p.Starting
  | .start p => inferInstanceAs (Decidable (p ≠ .test ∧ p ≠ .give))
  | .take | .pend | .dmicRead | .i2sRead | .writeSpk | .writeHost | .give => isFalse id

instance : ∀ p : TuningPc, Decidable p.Starting
  | .start p => inferInstanceAs (Decidable (p ≠ .test ∧ p ≠ .give))
  | .idle | .stop _ => isFalse id

/-- No thread passes the test of `audio_driver_start` while the other one is between that test and
the assignment of the flag. -/
def Careful (s : State) : Event → Prop
  | .driver _ => s.driver = .start .test → s.audioIoStarted = false → ¬ s.tuning.Starting
  | .tuning => s.tuning = .start .test → s.audioIoStarted = false → ¬ s.driver.Starting
  | .command _ => True

instance (s : State) : ∀ e, Decidable (Careful s e)
  | .driver _ => inferInstanceAs (Decidable (s.driver = _ → s.audioIoStarted = _ → ¬ _))
  | .tuning => inferInstanceAs (Decidable (s.tuning = _ → s.audioIoStarted = _ → ¬ _))
  | .command _ => isTrue trivial

structure Sound (s : State) : Prop where
  streams : (∀ p, s.driver ≠ .start p) → s.tuning = .idle →
    ∀ stream, s.running stream = s.audioIoStarted
  alternate : s.sequences.IsChain (· ≠ ·)
  notLate : s.late = false
  returns : Returns s

def Stream.index : Stream → Nat
  | .hostTx => 0
  | .hostRx => 1
  | .spk => 2
  | .dmic => 3

/-- The streams that run when a start is at `p`. -/
def StartPc.on : StartPc → Stream → Bool
  | .trigger at', stream => decide (stream.index < at'.index)
  | .setFlag, _ | .give, _ => true
  | _, _ => false

/-- The streams that run when a stop is at `p`. -/
def StopPc.on : StopPc → Stream → Bool
  | .trigger at', stream => decide (at'.index ≤ stream.index)
  | .clearFlag, _ => false
  | _, _ => true

/-- The driver thread neither has the semaphore nor starts. -/
def DriverPc.Passive : DriverPc → Prop
  | .start .test | .take | .pend => True
  | _ => False

/-- No start and no stop of a command has come past its test. -/
def TuningPc.Passive : TuningPc → Prop
  | .idle | .start .test | .stop .test => True
  | _ => False

/-- A start at `p` has begun its sequence, or is about to. -/
def BegunAt (p : StartPc) (s : State) : Prop :=
  if p = .zeros then s.sequences.getLast? ≠ some .start
  else s.sequences.getLast? = some .start ∧ s.quiet = false

/-- Who has the token: the semaphore, the driver thread or the command that is about to give it. -/
inductive Token (s : State) : Prop where
  | free (hsem : s.syncSem = true) (hd : s.driver = .start .test ∨ s.driver = .take)
    (hc : s.tuning.Passive ∨ s.tuning = .stop .take)
  | driver (hsem : s.syncSem = false) (hd : s.driver.Gives)
    (hc : s.tuning.Passive ∨ s.tuning = .stop .take ∨ s.tuning = .stop .pend)
  | tuning (hsem : s.syncSem = false) (hd : s.driver.Passive) (hc : s.tuning = .start .give)

/-- The streams are off, are started by one of the two threads, are on, or are stopped. -/
inductive Phase (s : State) : Prop where
  | off (hflag : s.audioIoStarted = false) (hsem : s.syncSem = false)
    (hrunning : ∀ stream, s.running stream = false) (hlast : s.sequences.getLast? ≠ some .start)
    (hd : s.driver.Passive) (hc : s.tuning.Passive)
  | driverStarts (p : StartPc) (hp : p.Starting) (hat : s.driver = .start p)
    (hflag : s.audioIoStarted = false) (hsem : s.syncSem = false)
    (hrunning : ∀ stream, s.running stream = p.on stream) (hbegun : BegunAt p s)
    (hc : s.tuning.Passive)
  | tuningStarts (p : StartPc) (hp : p.Starting) (hat : s.tuning = .start p)
    (hflag : s.audioIoStarted = false) (hsem : s.syncSem = false)
    (hrunning : ∀ stream, s.running stream = p.on stream) (hbegun : BegunAt p s)
    (hd : s.driver.Passive)
  | on (hflag : s.audioIoStarted = true) (hrunning : ∀ stream, s.running stream = true)
    (hlast : s.sequences.getLast? = some .start) (hquiet : s.quiet = false) (htoken : Token s)
  | stops (p : StopPc) (hp : p ≠ .test ∧ p ≠ .take ∧ p ≠ .pend) (hat : s.tuning = .stop p)
    (hflag : s.audioIoStarted = true) (hsem : s.syncSem = false)
    (hrunning : ∀ stream, s.running stream = p.on stream)
    (hlast : s.sequences.getLast? = some (if p = .trigger .hostTx then .start else .stop))
    (hd : s.driver.Passive)

structure Inv (s : State) : Prop where
  phase : Phase s
  alternate : s.sequences.IsChain (· ≠ ·)
  notLate : s.late = false

theorem inv_init : Inv init :=
  ⟨.off rfl rfl (fun _ => rfl) (by simp [init]) trivial trivial, by simp [init], rfl⟩

theorem alternate_append {l : List Sequence} {x : Sequence} (h : l.IsChain (· ≠ ·))
    (hlast : l.getLast? ≠ some x) : (l ++ [x]).IsChain (· ≠ ·) := by
  refine List.isChain_append.mpr ⟨h, List.isChain_singleton x, ?_⟩
  rintro y hy z hz rfl
  obtain rfl : x = y := by simpa using hz
  exact hlast hy

/-- What `audio_driver_start` does between its test and the assignment. -/
theorem start_running {p : StartPc} (hp : p.Starting)
    (hrunning : ∀ stream, s.running stream = p.on stream) :
    p = .setFlag ∧ s.audioDriverStart p = ({ s with audioIoStarted := true }, some .give) ∨
    p = .zeros ∧ s.audioDriverStart p =
      ({ s with sequences := s.sequences ++ [.start], quiet := false }, some .zerosAgain) ∨
    ∃ q running, s.audioDriverStart p = ({ s with running := running }, some q) ∧ p ≠ .zeros ∧
      q.Starting ∧ q ≠ .zeros ∧ ∀ stream, running stream = q.on stream := by
  cases p with
  | test => exact absurd rfl hp.1
  | zeros => exact .inr (.inl ⟨rfl, rfl⟩)
  | zerosAgain =>
    exact .inr (.inr ⟨.trigger .hostTx, s.running, rfl, by decide,
      ⟨by decide, by decide⟩, by decide, fun stream => by rw [hrunning]; cases stream <;> rfl⟩)
  | trigger at' =>
    refine .inr (.inr
      ⟨_, Function.update s.running at' true, rfl, by simp, ?_, ?_, fun stream => ?_⟩)
    · cases at' <;> exact ⟨by decide, by decide⟩
    · cases at' <;> decide
    · rcases eq_or_ne stream at' with rfl | hne
      · cases stream <;> simp [Stream.next?, StartPc.on, Stream.index]
      · rw [Function.update_of_ne hne, hrunning]
        cases at' <;> cases stream <;> simp_all [Stream.next?, StartPc.on, Stream.index]
  | setFlag => exact .inl ⟨rfl, rfl⟩
  | give => exact absurd rfl hp.2

/-- With the flag set, a driver thread without the token waits for it. -/
theorem audioDrvThread_passive (hd : s.driver.Passive) (hsem : s.syncSem = false)
    (hflag : s.driver = .start .test → s.audioIoStarted = true) (ok : Bool) :
    ∃ d : DriverPc, d.Passive ∧ s.audioDrvThread ok = { s with driver := d } := by
  cases hat : s.driver with
  | start p =>
    cases p with
    | test =>
      exact ⟨.take, trivial,
        by simp [State.audioDrvThread, State.audioDriverStart, hat, hflag hat]⟩
    | _ => simp [hat, DriverPc.Passive] at hd
  | take => exact ⟨.pend, trivial, by simp [State.audioDrvThread, hat, hsem]⟩
  | pend =>
    have hsame : s.audioDrvThread ok = s := by simp [State.audioDrvThread, hat]
    exact ⟨s.driver, hd, hsame⟩
  | _ => simp [hat, DriverPc.Passive] at hd

@[simp] theorem give_sequences : s.give.sequences = s.sequences := by
  unfold State.give
  split <;> try split
  all_goals rfl

@[simp] theorem give_late : s.give.late = s.late := by
  unfold State.give
  split <;> try split
  all_goals rfl

/-- The driver thread gives the semaphore to the command that waits for it, or leaves it for whoever
comes. -/
theorem Phase.driverGives (hflag : s.audioIoStarted = true)
    (hrunning : ∀ stream, s.running stream = true) (hlast : s.sequences.getLast? = some .start)
    (hquiet : s.quiet = false) (hd : s.driver ≠ .pend) (hsem : s.syncSem = false)
    (hc : s.tuning.Passive ∨ s.tuning = .stop .take ∨ s.tuning = .stop .pend) :
    Phase { s.give with driver := .take } := by
  by_cases hpend : s.tuning = .stop .pend
  · simp only [State.give, hd, hpend, if_true, if_false]
    refine .stops (.trigger .hostTx) (by simp) rfl hflag hsem (fun stream => ?_) hlast trivial
    rw [hrunning]
    cases stream <;> rfl
  · simp only [State.give, hd, hpend, if_false]
    refine .on hflag hrunning hlast hquiet (.free rfl (.inr rfl) ?_)
    exact hc.imp_right fun hc => hc.resolve_right hpend

/-- A statement of the driver thread between the test of the flag and its assignment. -/
theorem Inv.driverStarts (h : Inv s) {p : StartPc} (hp : p.Starting) (hat : s.driver = .start p)
    (hflag : s.audioIoStarted = false) (hsem : s.syncSem = false)
    (hrunning : ∀ stream, s.running stream = p.on stream) (hbegun : BegunAt p s)
    (hc : s.tuning.Passive) (ok : Bool) : Inv (s.audioDrvThread ok) := by
  obtain ⟨-, hchain, hlate⟩ := h
  simp only [State.audioDrvThread, hat]
  rcases start_running hp hrunning with
    ⟨rfl, heq⟩ | ⟨rfl, heq⟩ | ⟨q, running, heq, hne, hq, hqne, hon⟩
  · rw [heq]
    obtain ⟨hlast, hquiet⟩ := hbegun
    exact ⟨.on rfl hrunning hlast hquiet (.driver hsem trivial (.inl hc)), hchain, hlate⟩
  · rw [heq]
    refine ⟨.driverStarts .zerosAgain ⟨by decide, by decide⟩ rfl hflag hsem hrunning ?_ hc,
      alternate_append hchain hbegun, hlate⟩
    exact ⟨List.getLast?_concat, rfl⟩
  · rw [heq]
    refine ⟨.driverStarts q hq rfl hflag hsem hon ?_ hc, hchain, hlate⟩
    simpa [BegunAt, hne, hqne] using hbegun

/-- A statement of the driver thread that has the semaphore. -/
theorem Inv.driverHolds (h : Inv s) (hflag : s.audioIoStarted = true)
    (hrunning : ∀ stream, s.running stream = true) (hlast : s.sequences.getLast? = some .start)
    (hquiet : s.quiet = false) (hsem : s.syncSem = false) (hd : s.driver.Gives)
    (hc : s.tuning.Passive ∨ s.tuning = .stop .take ∨ s.tuning = .stop .pend) (ok : Bool) :
    Inv (s.audioDrvThread ok) := by
  obtain ⟨-, hchain, hlate⟩ := h
  have hio : ∀ d : DriverPc, d.Gives → Inv (s.io d) := fun d hgives =>
    ⟨.on hflag hrunning hlast hquiet (.driver hsem hgives hc), hchain,
      by simp [State.io, hlate, hquiet]⟩
  have hgive : s.driver ≠ .pend → Inv { s.give with driver := .take } := fun hne =>
    ⟨.driverGives hflag hrunning hlast hquiet hne hsem hc, by simpa using hchain,
      by simpa using hlate⟩
  cases hat : s.driver with
  | start p =>
    cases p with
    | give =>
      simp only [State.audioDrvThread, hat, State.audioDriverStart]
      exact hgive (by simp [hat])
    | _ => simp [hat, DriverPc.Gives] at hd
  | take => simp [hat, DriverPc.Gives] at hd
  | pend => simp [hat, DriverPc.Gives] at hd
  | dmicRead =>
    simp only [State.audioDrvThread, hat]
    cases ok <;> exact hio _ trivial
  | i2sRead => simp only [State.audioDrvThread, hat]; exact hio _ trivial
  | writeSpk => simp only [State.audioDrvThread, hat]; exact hio _ trivial
  | writeHost => simp only [State.audioDrvThread, hat]; exact hio _ trivial
  | give =>
    simp only [State.audioDrvThread, hat]
    exact hgive (by simp [hat])

/-- A statement of the driver thread while the streams are on. -/
theorem Inv.driverOn (h : Inv s) (hflag : s.audioIoStarted = true)
    (hrunning : ∀ stream, s.running stream = true) (hlast : s.sequences.getLast? = some .start)
    (hquiet : s.quiet = false) (htoken : Token s) (ok : Bool) : Inv (s.audioDrvThread ok) := by
  cases htoken with
  | free hsem hd hc =>
    rcases hd with hat | hat
    · simp only [State.audioDrvThread, hat, State.audioDriverStart, hflag, if_true]
      exact ⟨.on rfl hrunning hlast hquiet (.free hsem (.inr rfl) hc), h.alternate, h.notLate⟩
    · simp only [State.audioDrvThread, hat, hsem, if_true]
      exact ⟨.on hflag hrunning hlast hquiet (.driver rfl trivial (hc.imp_right .inl)),
        h.alternate, h.notLate⟩
  | driver hsem hd hc => exact h.driverHolds hflag hrunning hlast hquiet hsem hd hc ok
  | tuning hsem hd hc =>
    obtain ⟨d, hpassive, heq⟩ := audioDrvThread_passive hd hsem (fun _ => hflag) ok
    rw [heq]
    exact ⟨.on hflag hrunning hlast hquiet (.tuning hsem hpassive hc), h.alternate, h.notLate⟩

theorem Inv.driver (h : Inv s) (ok : Bool) (hcareful : Careful s (.driver ok)) :
    Inv (s.audioDrvThread ok) := by
  cases h.phase with
  | off hflag hsem hrunning hlast hd hc =>
    by_cases hat : s.driver = .start .test
    · simp only [State.audioDrvThread, hat, State.audioDriverStart, hflag, Bool.false_eq_true,
        if_false]
      exact ⟨.driverStarts .zeros ⟨by decide, by decide⟩ rfl rfl hsem hrunning hlast hc,
        h.alternate, h.notLate⟩
    · obtain ⟨d, hpassive, heq⟩ := audioDrvThread_passive hd hsem (fun h => absurd h hat) ok
      rw [heq]
      exact ⟨.off hflag hsem hrunning hlast hpassive hc, h.alternate, h.notLate⟩
  | driverStarts p hp hat hflag hsem hrunning hbegun hc =>
    exact h.driverStarts hp hat hflag hsem hrunning hbegun hc ok
  | tuningStarts p hp hat hflag hsem hrunning hbegun hd =>
    have hne : s.driver ≠ .start .test := fun htest => hcareful htest hflag (by rw [hat]; exact hp)
    obtain ⟨d, hpassive, heq⟩ := audioDrvThread_passive hd hsem (fun h => absurd h hne) ok
    rw [heq]
    exact ⟨.tuningStarts p hp hat hflag hsem hrunning hbegun hpassive, h.alternate, h.notLate⟩
  | on hflag hrunning hlast hquiet htoken => exact h.driverOn hflag hrunning hlast hquiet htoken ok
  | stops p hp hat hflag hsem hrunning hlast hd =>
    obtain ⟨d, hpassive, heq⟩ := audioDrvThread_passive hd hsem (fun _ => hflag) ok
    rw [heq]
    exact ⟨.stops p hp hat hflag hsem hrunning hlast hpassive, h.alternate, h.notLate⟩

/-- A command that has not come past its test, and does not come past it now. -/
theorem notifyTuningCmd_passive (hc : s.tuning.Passive)
    (hstart : s.tuning = .start .test → s.audioIoStarted = true)
    (hstop : s.tuning = .stop .test → s.audioIoStarted = false) :
    ∃ c : TuningPc, c.Passive ∧ s.notifyTuningCmd = { s with tuning := c } := by
  cases hat : s.tuning with
  | idle =>
    have hsame : s.notifyTuningCmd = s := by simp [State.notifyTuningCmd, hat]
    exact ⟨s.tuning, hc, hsame⟩
  | start p =>
    cases p with
    | test =>
      exact ⟨.idle, trivial,
        by simp [State.notifyTuningCmd, State.audioDriverStart, hat, hstart hat]⟩
    | _ => simp [hat, TuningPc.Passive] at hc
  | stop p =>
    cases p with
    | test =>
      exact ⟨.idle, trivial, by simp [State.notifyTuningCmd, State.audioDriverStop, hat, hstop hat]⟩
    | _ => simp [hat, TuningPc.Passive] at hc

/-- While the streams are on, a STOP comes past its test and a START does not. -/
theorem notifyTuningCmd_on (hflag : s.audioIoStarted = true)
    (hc : s.tuning.Passive) :
    ∃ c : TuningPc, (c.Passive ∨ c = .stop .take) ∧ s.notifyTuningCmd = { s with tuning := c } := by
  by_cases hat : s.tuning = .stop .test
  · exact ⟨.stop .take, .inr rfl,
      by simp [State.notifyTuningCmd, State.audioDriverStop, hat, hflag]⟩
  · obtain ⟨c, hpassive, heq⟩ :=
      notifyTuningCmd_passive hc (fun _ => hflag) fun h => absurd h hat
    exact ⟨c, .inl hpassive, heq⟩

/-- A statement of a START between the test of the flag and its assignment. -/
theorem Inv.tuningStarts (h : Inv s) {p : StartPc} (hp : p.Starting) (hat : s.tuning = .start p)
    (hflag : s.audioIoStarted = false) (hsem : s.syncSem = false)
    (hrunning : ∀ stream, s.running stream = p.on stream) (hbegun : BegunAt p s)
    (hd : s.driver.Passive) : Inv s.notifyTuningCmd := by
  obtain ⟨-, hchain, hlate⟩ := h
  simp only [State.notifyTuningCmd, hat]
  rcases start_running hp hrunning with
    ⟨rfl, heq⟩ | ⟨rfl, heq⟩ | ⟨q, running, heq, hne, hq, hqne, hon⟩
  · rw [heq]
    obtain ⟨hlast, hquiet⟩ := hbegun
    exact ⟨.on rfl hrunning hlast hquiet (.tuning hsem hd rfl), hchain, hlate⟩
  · rw [heq]
    refine ⟨.tuningStarts .zerosAgain ⟨by decide, by decide⟩ rfl hflag hsem hrunning ?_ hd,
      alternate_append hchain hbegun, hlate⟩
    exact ⟨List.getLast?_concat, rfl⟩
  · rw [heq]
    refine ⟨.tuningStarts q hq rfl hflag hsem hon ?_ hd, hchain, hlate⟩
    simpa [BegunAt, hne, hqne] using hbegun

/-- The START that set the flag gives the semaphore to the driver thread, or leaves it there. -/
theorem Phase.tuningGives (hflag : s.audioIoStarted = true)
    (hrunning : ∀ stream, s.running stream = true) (hlast : s.sequences.getLast? = some .start)
    (hquiet : s.quiet = false) (hd : s.driver.Passive) (hsem : s.syncSem = false)
    (hc : s.tuning = .start .give) : Phase { s.give with tuning := .idle } := by
  by_cases hpend : s.driver = .pend
  · simp only [State.give, hpend, if_true]
    exact .on hflag hrunning hlast hquiet (.driver hsem trivial (.inl trivial))
  · simp only [State.give, hpend, if_false, hc, reduceCtorEq]
    refine .on hflag hrunning hlast hquiet (.free rfl ?_ (.inl trivial))
    cases hat : s.driver with
    | start p => cases p <;> simp_all [DriverPc.Passive]
    | take => exact .inr rfl
    | pend => exact absurd hat hpend
    | _ => simp [hat, DriverPc.Passive] at hd

/-- A STOP that takes the semaphore has the streams to itself. -/
theorem Phase.tuningTakes (hflag : s.audioIoStarted = true)
    (hrunning : ∀ stream, s.running stream = true) (hlast : s.sequences.getLast? = some .start)
    (hd : s.driver = .start .test ∨ s.driver = .take) :
    Phase { s with syncSem := false, tuning := .stop (.trigger .hostTx) } := by
  refine .stops (.trigger .hostTx) (by simp) rfl hflag rfl (fun stream => ?_) hlast ?_
  · rw [hrunning]
    cases stream <;> rfl
  · rcases hd with hd | hd <;> simp [hd, DriverPc.Passive]

/-- A statement of a command while the streams are on. -/
theorem Inv.tuningOn (h : Inv s) (hflag : s.audioIoStarted = true)
    (hrunning : ∀ stream, s.running stream = true) (hlast : s.sequences.getLast? = some .start)
    (hquiet : s.quiet = false) (htoken : Token s) : Inv s.notifyTuningCmd := by
  obtain ⟨-, hchain, hlate⟩ := h
  cases htoken with
  | free hsem hd hc =>
    rcases hc with hc | hat
    · obtain ⟨c, hnext, heq⟩ := notifyTuningCmd_on hflag hc
      rw [heq]
      exact ⟨.on hflag hrunning hlast hquiet (.free hsem hd hnext), hchain, hlate⟩
    · simp only [State.notifyTuningCmd, hat, State.audioDriverStop, hsem, if_true]
      exact ⟨.tuningTakes hflag hrunning hlast hd, hchain, hlate⟩
  | driver hsem hd hc =>
    rcases hc with hc | hat | hat
    · obtain ⟨c, hnext, heq⟩ := notifyTuningCmd_on hflag hc
      rw [heq]
      exact ⟨.on hflag hrunning hlast hquiet (.driver hsem hd (hnext.imp_right .inl)), hchain,
        hlate⟩
    · simp only [State.notifyTuningCmd, hat, State.audioDriverStop, hsem, Bool.false_eq_true,
        if_false]
      exact ⟨.on hflag hrunning hlast hquiet (.driver rfl hd (.inr (.inr rfl))), hchain, hlate⟩
    · rw [notifyTuningCmd_pend hat]
      exact ⟨.on hflag hrunning hlast hquiet (.driver hsem hd (.inr (.inr hat))), hchain, hlate⟩
  | tuning hsem hd hc =>
    simp only [State.notifyTuningCmd, hc, State.audioDriverStart]
    exact ⟨.tuningGives hflag hrunning hlast hquiet hd hsem hc, by simpa using hchain,
      by simpa using hlate⟩

/-- The streams that still run when a stop has switched one of them off. -/
theorem stop_running {at' : Stream}
    (hrunning : ∀ stream, s.running stream = StopPc.on (.trigger at') stream) (other : Stream) :
    Function.update s.running at' false other =
      if other = at' then false else decide (at'.index ≤ other.index) := by
  rcases eq_or_ne other at' with rfl | hne
  · simp
  · rw [Function.update_of_ne hne, if_neg hne, hrunning]
    rfl

/-- A statement of a STOP that has taken the semaphore. -/
theorem Inv.tuningStops (h : Inv s) {p : StopPc} (hp : p ≠ .test ∧ p ≠ .take ∧ p ≠ .pend)
    (hat : s.tuning = .stop p) (hflag : s.audioIoStarted = true) (hsem : s.syncSem = false)
    (hrunning : ∀ stream, s.running stream = p.on stream)
    (hlast : s.sequences.getLast? = some (if p = .trigger .hostTx then .start else .stop))
    (hd : s.driver.Passive) : Inv s.notifyTuningCmd := by
  obtain ⟨-, hchain, hlate⟩ := h
  simp only [State.notifyTuningCmd, hat]
  cases p with
  | test => exact absurd rfl hp.1
  | take => exact absurd rfl hp.2.1
  | pend => exact absurd rfl hp.2.2
  | trigger stream =>
    have hnext := stop_running hrunning
    cases stream with
    | hostTx =>
      refine ⟨.stops (.trigger .hostRx) (by simp) rfl hflag hsem (fun other => ?_) ?_ hd,
        alternate_append hchain (by simp [hlast]), hlate⟩
      · exact (hnext other).trans (by cases other <;> rfl)
      · exact List.getLast?_concat
    | hostRx =>
      refine ⟨.stops (.trigger .spk) (by simp) rfl hflag hsem (fun other => ?_) hlast hd,
        hchain, hlate⟩
      exact (hnext other).trans (by cases other <;> rfl)
    | spk =>
      refine ⟨.stops (.trigger .dmic) (by simp) rfl hflag hsem (fun other => ?_) hlast hd,
        hchain, hlate⟩
      exact (hnext other).trans (by cases other <;> rfl)
    | dmic =>
      refine ⟨.stops .clearFlag (by simp) rfl hflag hsem (fun other => ?_) hlast hd, hchain,
        hlate⟩
      exact (hnext other).trans (by cases other <;> rfl)
  | clearFlag =>
    exact ⟨.off rfl hsem hrunning (by simp [State.audioDriverStop, hlast]) hd trivial, hchain,
      hlate⟩

theorem Inv.tuning (h : Inv s) (hcareful : Careful s .tuning) : Inv s.notifyTuningCmd := by
  cases h.phase with
  | off hflag hsem hrunning hlast hd hc =>
    by_cases hat : s.tuning = .start .test
    · simp only [State.notifyTuningCmd, hat, State.audioDriverStart, hflag, Bool.false_eq_true,
        if_false]
      exact ⟨.tuningStarts .zeros ⟨by decide, by decide⟩ rfl rfl hsem hrunning hlast hd,
        h.alternate, h.notLate⟩
    · obtain ⟨c, hpassive, heq⟩ := notifyTuningCmd_passive hc (fun h => absurd h hat) fun _ => hflag
      rw [heq]
      exact ⟨.off hflag hsem hrunning hlast hd hpassive, h.alternate, h.notLate⟩
  | driverStarts p hp hat hflag hsem hrunning hbegun hc =>
    have hne : s.tuning ≠ .start .test := fun htest => hcareful htest hflag (by rw [hat]; exact hp)
    obtain ⟨c, hpassive, heq⟩ := notifyTuningCmd_passive hc (fun h => absurd h hne) fun _ => hflag
    rw [heq]
    exact ⟨.driverStarts p hp hat hflag hsem hrunning hbegun hpassive, h.alternate, h.notLate⟩
  | tuningStarts p hp hat hflag hsem hrunning hbegun hd =>
    exact h.tuningStarts hp hat hflag hsem hrunning hbegun hd
  | on hflag hrunning hlast hquiet htoken => exact h.tuningOn hflag hrunning hlast hquiet htoken
  | stops p hp hat hflag hsem hrunning hlast hd =>
    exact h.tuningStops hp hat hflag hsem hrunning hlast hd

/-- A new command has its test still before it. -/
theorem Inv.command (h : Inv s) (hidle : s.tuning = .idle) {c : TuningPc} (hc : c.Passive) :
    Inv { s with tuning := c } := by
  obtain ⟨hphase, hchain, hlate⟩ := h
  refine ⟨?_, hchain, hlate⟩
  cases hphase with
  | off hflag hsem hrunning hlast hd _ => exact .off hflag hsem hrunning hlast hd hc
  | driverStarts p hp hat hflag hsem hrunning hbegun _ =>
    exact .driverStarts p hp hat hflag hsem hrunning hbegun hc
  | tuningStarts p hp hat hflag hsem hrunning hbegun hd => simp [hidle] at hat
  | on hflag hrunning hlast hquiet htoken =>
    refine .on hflag hrunning hlast hquiet ?_
    cases htoken with
    | free hsem hd _ => exact .free hsem hd (.inl hc)
    | driver hsem hd _ => exact .driver hsem hd (.inl hc)
    | tuning hsem hd hat => simp [hidle] at hat
  | stops p hp hat hflag hsem hrunning hlast hd => simp [hidle] at hat

theorem Inv.step (h : Inv s) (e : Event) (hcareful : Careful s e) : Inv (step s e) := by
  cases e with
  | driver ok => exact h.driver ok hcareful
  | tuning => exact h.tuning hcareful
  | command c =>
    simp only [StartStop.step]
    split
    case isTrue hidle => cases c <;> exact h.command hidle trivial
    case isFalse => exact h

theorem Inv.sound (h : Inv s) (halive : Alive s) : Sound s where
  streams hdriver hidle := by
    cases h.phase with
    | off hflag hsem hrunning hlast hd hc => exact fun stream => (hrunning stream).trans hflag.symm
    | driverStarts p hp hat hflag hsem hrunning hbegun hc => exact absurd hat (hdriver p)
    | tuningStarts p hp hat hflag hsem hrunning hbegun hd => simp [hidle] at hat
    | on hflag hrunning hlast hquiet htoken =>
      exact fun stream => (hrunning stream).trans hflag.symm
    | stops p hp hat hflag hsem hrunning hlast hd => simp [hidle] at hat
  alternate := h.alternate
  notLate := h.notLate
  returns := halive.returns

/-- A command returns in every run. -/
theorem returns_of_run (es : List Event) : Returns (run step init es) :=
  (alive_run alive_init es).returns

/-- Whatever the commands and the interleaving, starting and stopping is sound as long as no thread
passes the test of the flag while the other one is starting. -/
theorem sound_of_careful (es : List Event) (h : Along step Careful init es) :
    Always step Sound init es :=
  h.always_of_invariant (I := fun s => Inv s ∧ Alive s) step
    (fun s e hinv hcareful => ⟨hinv.1.step e hcareful, alive_step s e hinv.2⟩)
    (fun _ hinv => hinv.1.sound hinv.2) ⟨inv_init, alive_init⟩

theorem sound_of_careful_stop :
    Always step Sound init (List.replicate 10 (.driver true) ++ [.command .stop] ++
      List.replicate 3 .tuning ++ List.replicate 7 (.driver true)) :=
  sound_of_careful _ (by decide +kernel)

theorem not_sound_of_start_start {l : List Sequence} (hl : l.getLast? = some .start)
    (hs : s.sequences = l ++ [.start]) : ¬ Sound s := by
  intro hsound
  have hchain := hsound.alternate
  rw [hs, List.isChain_append] at hchain
  exact hchain.2.2 .start hl .start rfl rfl

/-- The second start sequence follows the first one that is under way. -/
theorem not_sound_of_zeros {p : StartPc} (hbegun : BegunAt p s) (hp : p ≠ .zeros)
    {t : State} (ht : t.sequences = s.sequences ++ [.start]) : ¬ Sound t := by
  simp only [BegunAt, hp, if_false] at hbegun
  exact not_sound_of_start_start hbegun.1 ht

theorem DriverPc.Passive.not_starting {d : DriverPc} (h : d.Passive) : ¬ d.Starting := by
  cases d with
  | start p => cases p <;> simp_all [DriverPc.Passive, DriverPc.Starting, StartPc.Starting]
  | _ => exact id

theorem TuningPc.Passive.not_starting {c : TuningPc} (h : c.Passive) : ¬ c.Starting := by
  cases c with
  | start p => cases p <;> simp_all [TuningPc.Passive, TuningPc.Starting, StartPc.Starting]
  | _ => exact id

theorem Phase.of_tuning (h : Phase s) (hflag : s.audioIoStarted = false)
    (hstarting : s.tuning.Starting) : ∃ p, s.tuning = .start p ∧ BegunAt p s := by
  cases h with
  | tuningStarts p hp hat _ _ _ hbegun _ => exact ⟨p, hat, hbegun⟩
  | off _ _ _ _ _ hc => exact absurd hstarting hc.not_starting
  | driverStarts p _ _ _ _ _ _ hc => exact absurd hstarting hc.not_starting
  | on hset => simp [hflag] at hset
  | stops p _ _ hset => simp [hflag] at hset

theorem Phase.of_driver (h : Phase s) (hflag : s.audioIoStarted = false)
    (hstarting : s.driver.Starting) : ∃ p, s.driver = .start p ∧ BegunAt p s := by
  cases h with
  | driverStarts p hp hat _ _ _ hbegun _ => exact ⟨p, hat, hbegun⟩
  | off _ _ _ _ hd _ => exact absurd hstarting hd.not_starting
  | tuningStarts p _ _ _ _ _ _ hd => exact absurd hstarting hd.not_starting
  | on hset => simp [hflag] at hset
  | stops p _ _ hset => simp [hflag] at hset

/-- Where a thread passes the test while the other one is starting, the run can go on to a second
start sequence. -/
theorem careless_goes_wrong {es : List Event} {e : Event} (hes : Along step Careful init es)
    (he : ¬ Careful (run step init es) e) : ∃ rest, ¬ Sound (run step init (es ++ e :: rest)) := by
  have hinv : Inv (run step init es) :=
    hes.invariant (I := Inv) step (fun s e h hcareful => h.step e hcareful) inv_init
  simp only [run_append, run_cons]
  generalize run step init es = s at hinv he
  cases e with
  | driver ok =>
    simp only [Careful, Classical.not_imp, not_not] at he
    obtain ⟨hat, hflag, hstarting⟩ := he
    obtain ⟨p, htuning, hbegun⟩ := hinv.phase.of_tuning hflag hstarting
    by_cases hzeros : p = .zeros
    · refine ⟨[.driver true, .tuning], not_sound_of_start_start (l := s.sequences ++ [.start])
        List.getLast?_concat ?_⟩
      simp [step, State.audioDrvThread, State.notifyTuningCmd, State.audioDriverStart, hat, hflag,
        htuning, hzeros]
    · refine ⟨[.driver true], not_sound_of_zeros hbegun hzeros ?_⟩
      simp [step, State.audioDrvThread, State.audioDriverStart, hat, hflag]
  | tuning =>
    simp only [Careful, Classical.not_imp, not_not] at he
    obtain ⟨hat, hflag, hstarting⟩ := he
    obtain ⟨p, hdriver, hbegun⟩ := hinv.phase.of_driver hflag hstarting
    by_cases hzeros : p = .zeros
    · refine ⟨[.tuning, .driver true], not_sound_of_start_start (l := s.sequences ++ [.start])
        List.getLast?_concat ?_⟩
      simp [step, State.audioDrvThread, State.notifyTuningCmd, State.audioDriverStart, hat, hflag,
        hdriver, hzeros]
    · refine ⟨[.tuning], not_sound_of_zeros hbegun hzeros ?_⟩
      simp [step, State.notifyTuningCmd, State.audioDriverStart, hat, hflag]
  | command c => exact absurd trivial he

/-- The driver thread passes its test, a START does so before the flag is set, and both give the
semaphore: the driver's loop has one token, a STOP takes the other, and the loop reads after the
stop. -/
theorem late_after_double_start :
    ¬ Always step Sound init
      ([.driver true, .command .start, .tuning] ++ List.replicate 8 (.driver true) ++
        List.replicate 7 .tuning ++ [.driver true, .tuning, .command .stop] ++
        List.replicate 7 .tuning ++ [.driver true]) := by
  refine not_always_of_last _ rfl fun hsound => ?_
  exact absurd hsound.notLate (by decide +kernel)

end StartStop
end AudioCrb
end ZephyrSamples
