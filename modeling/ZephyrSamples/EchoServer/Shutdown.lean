import ZephyrSamples.EchoServer.StopTcp

/-!
# Shutting down the echo server

`main`, `event_handler` and the `sample quit` command with the server threads, statement by
statement and in any interleaving.  `main` starts the threads once it has `run_app`, and stops them
once it has `quit_lock`, if it then finds the network connected.  What is left behind depends on
four things: what `main` finds in `connected`, how far a thread has come when it is aborted, whether
a handler is closing its descriptor when its slot is stopped, and whether `run_app` is reset between
a quit command and `main`.
-/

namespace ZephyrSamples
namespace EchoServer
namespace Shutdown

open Runs Handles HandlerSlots

inductive Family where
  | v4
  | v6
  deriving DecidableEq, Repr

/-- The threads defined by K_THREAD_DEFINE. -/
inductive ThreadId where
  | udp (f : Family)
  | tcp (f : Family)
  deriving DecidableEq, Repr

/-- The statement of `process_udp4` and the others of its kind; `setup` are `bind` and what follows
`socket`, `serve` the loop, and `quit` the call of it on a failure. -/
inductive ThreadPc where
  | idle
  | socket
  | setup
  | serve
  | quit
  | ended
  deriving DecidableEq, Repr

/-- A thread with the socket field of `conf` that it sets. -/
structure Thread where
  sock : Int
  pc : ThreadPc
  deriving DecidableEq, Repr

/-- The statement `main` is at, `start_udp_and_tcp` and `stop_udp_and_tcp` included; at `pendRunApp`
and `pendQuitLock` it waits for the semaphore. -/
inductive MainPc where
  | initApp
  | takeRunApp
  | pendRunApp
  | initSlots
  | start (v : ThreadId)
  | takeQuitLock
  | pendQuitLock
  | ifConnected
  | abort (v : ThreadId)
  | close (v : ThreadId)
  | inUse (f : Family) (i : Nat)
  | abortHandler (f : Family) (i : Nat)
  | closeSlot (f : Family) (i : Nat)
  | returned
  deriving DecidableEq, Repr

/-- An event of the connection manager: CONNECTED or DISCONNECTED, and whether a quit command made
it send its status again. -/
structure L4Event where
  connected : Bool
  resent : Bool
  deriving DecidableEq, Repr

/-- The statement of `event_handler`; `branch` is the assignment to `connected`. -/
inductive L4Pc where
  | idle
  | ifWantToQuit (e : L4Event)
  | giveQuit (e : L4Event)
  | clearWantToQuit (e : L4Event)
  | branch (e : L4Event)
  | give (e : L4Event)
  | reset (e : L4Event)
  deriving DecidableEq, Repr

/-- The statement of `cmd_sample_quit`. -/
inductive ShellPc where
  | idle
  | setWantToQuit
  | resendStatus
  | quit
  deriving DecidableEq, Repr

/-- `opened` and `closed` are the descriptors of the fields `sock` of `conf` that `socket` has
returned and `main` has closed; those of the handlers are in `tcp`.  `resends` counts the events
that quit commands have caused and that have not come yet, `quits` the commands that have completed,
and `answered` the caused events that have been handled; `quitGiven` says that `event_handler` has
given `run_app` for a quit command. -/
structure State where
  runApp : Bool
  quitLock : Nat
  connected : Bool
  wantToQuit : Bool
  main : MainPc
  l4 : L4Pc
  shell : ShellPc
  thread : ThreadId → Thread
  tcp : Family → HandlerSlots.State
  opened : List Int
  closed : List Int
  resends : Nat
  quits : Nat
  answered : Nat
  quitGiven : Bool

/-- The slots before `start_tcp`: every field is 0. -/
def zeroSlots : HandlerSlots.State :=
  { HandlerSlots.start with slot := fun _ => { sock := 0, mark := false, thread := none } }

/-- `init_app` has initialised `quit_lock` and added the callback; `conf` is 0. -/
def init : State where
  runApp := false
  quitLock := 0
  connected := false
  wantToQuit := false
  main := .initApp
  l4 := .idle
  shell := .idle
  thread _ := { sock := 0, pc := .idle }
  tcp _ := zeroSlots
  opened := []
  closed := []
  resends := 0
  quits := 0
  answered := 0
  quitGiven := false

/-- The order of `start_tcp` and `start_udp`. -/
def afterStart : ThreadId → MainPc
  | .tcp .v6 => .start (.tcp .v4)
  | .tcp .v4 => .start (.udp .v6)
  | .udp .v6 => .start (.udp .v4)
  | .udp .v4 => .takeQuitLock

/-- The order of `stop_udp` and `stop_tcp`. -/
def afterClose : ThreadId → MainPc
  | .udp .v6 => .abort (.udp .v4)
  | .udp .v4 => .abort (.tcp .v6)
  | .tcp f => .inUse f 0

def afterSlots : Family → MainPc
  | .v6 => .abort (.tcp .v4)
  | .v4 => .returned

def uintMax : Nat := 0xffffffff

namespace State

/-- `k_sem_give(&run_app)` -/
def giveRunApp (s : State) : State :=
  if s.main = .pendRunApp then { s with main := .initSlots } else { s with runApp := true }

/-- `k_sem_give(&quit_lock)` -/
def quit (s : State) : State :=
  if s.main = .pendQuitLock then { s with main := .ifConnected }
  else { s with quitLock := min (s.quitLock + 1) uintMax }

def setPc (s : State) (v : ThreadId) (pc : ThreadPc) : State :=
  { s with thread := Function.update s.thread v { s.thread v with pc := pc } }

def setTcp (s : State) (f : Family) (t : HandlerSlots.State) : State :=
  { s with tcp := Function.update s.tcp f t }

/-- `k_thread_abort` -/
def abortThread (s : State) : ThreadId → State
  | .udp f => s.setPc (.udp f) .ended
  | .tcp f => (s.setPc (.tcp f) .ended).setTcp f (abortListener (s.tcp f))

def closeSock (s : State) (v : ThreadId) : State :=
  if 0 ≤ (s.thread v).sock then { s with closed := s.closed ++ [(s.thread v).sock] } else s

/-- A statement of `main`, with `slots` for CONFIG_NET_SAMPLE_NUM_HANDLERS. -/
def mainStep (slots : Nat) (s : State) : State :=
  match s.main with
  | .initApp => { s with main := .takeRunApp }
  | .takeRunApp =>
    if s.runApp then { s with runApp := false, main := .initSlots }
    else { s with main := .pendRunApp }
  | .pendRunApp => s
  | .initSlots => { s with tcp := fun _ => HandlerSlots.start, main := .start (.tcp .v6) }
  | .start v => { s.setPc v .socket with main := afterStart v }
  | .takeQuitLock =>
    if 0 < s.quitLock then { s with quitLock := s.quitLock - 1, main := .ifConnected }
    else { s with main := .pendQuitLock }
  | .pendQuitLock => s
  | .ifConnected => { s with main := if s.connected then .abort (.udp .v6) else .returned }
  | .abort v => { s.abortThread v with main := .close v }
  | .close v => { s.closeSock v with main := afterClose v }
  | .inUse f i =>
    if i < slots then
      { s with main := if ((s.tcp f).slot i).mark then .abortHandler f i else .closeSlot f i }
    else { s with main := afterSlots f }
  | .abortHandler f i =>
    { s.setTcp f (EchoServer.abortHandler (s.tcp f) i) with main := .closeSlot f i }
  | .closeSlot f i =>
    { s.setTcp f (EchoServer.closeSlot (s.tcp f) i) with main := .inUse f (i + 1) }
  | .returned => s

/-- A statement of `event_handler`. -/
def l4Step (s : State) : State :=
  match s.l4 with
  | .idle => s
  | .ifWantToQuit e => { s with l4 := if s.wantToQuit then .giveQuit e else .branch e }
  | .giveQuit e => { s.giveRunApp with quitGiven := true, l4 := .clearWantToQuit e }
  | .clearWantToQuit e => { s with wantToQuit := false, l4 := .branch e }
  | .branch e =>
    { s with connected := e.connected, l4 := if e.connected then .give e else .reset e }
  | .give e => { s.giveRunApp with answered := s.answered + e.resent.toNat, l4 := .idle }
  | .reset e => { s with runApp := false, answered := s.answered + e.resent.toNat, l4 := .idle }

/-- A statement of `cmd_sample_quit`. -/
def shellStep (s : State) : State :=
  match s.shell with
  | .idle => s
  | .setWantToQuit => { s with wantToQuit := true, shell := .resendStatus }
  | .resendStatus => { s with resends := s.resends + 1, shell := .quit }
  | .quit => { s.quit with quits := s.quits + 1, shell := .idle }

/-- No socket that is open has the descriptor. -/
def Fresh (s : State) (fd : Int) : Prop :=
  s.opened.count fd = s.closed.count fd ∧
    (s.tcp .v4).accepted.count fd = (s.tcp .v4).closed.count fd ∧
    (s.tcp .v6).accepted.count fd = (s.tcp .v6).closed.count fd

instance (s : State) (fd : Int) : Decidable (s.Fresh fd) := inferInstanceAs (Decidable (_ ∧ _ ∧ _))

/-- A statement of a server thread, with what `socket` returns, an error or a descriptor that is not
open, and whether its other calls succeed. -/
def threadStep (s : State) (v : ThreadId) (fd : Int) (ok : Bool) : State :=
  match (s.thread v).pc with
  | .idle | .ended => s
  | .socket =>
    if fd < 0 then { s with thread := Function.update s.thread v { sock := fd, pc := .quit } }
    else if s.Fresh fd then
      { s with
        thread := Function.update s.thread v { sock := fd, pc := .setup }
        opened := s.opened ++ [fd] }
    else s
  | .setup => s.setPc v (if ok then .serve else .quit)
  | .serve =>
    match v with
    | .udp f => if ok then s else s.setPc (.udp f) .quit
    | .tcp _ => s
  | .quit => s.quit.setPc v .ended

/-- A statement of `process_tcp`. -/
def acceptorStep (slots : Nat) (s : State) (f : Family) (client : Int) : State :=
  if (s.thread (.tcp f)).pc = .serve ∧
      ((s.tcp f).acceptor = .accept → client < 0 ∨ s.Fresh client) then
    s.setTcp f (HandlerSlots.step .echo slots (s.tcp f) (.acceptor client))
  else s

end State

/-- `quit` begins a command, and `event` has an event handled that comes from the network or was
caused by a command. -/
inductive Event where
  | main
  | event (e : L4Event)
  | l4
  | quit
  | shell
  | thread (v : ThreadId) (fd : Int) (ok : Bool)
  | acceptor (f : Family) (client : Int)
  | handler (f : Family) (i : Nat) (more : Bool)
  deriving DecidableEq, Repr

def step (slots : Nat) (s : State) : Event → State
  | .main => s.mainStep slots
  | .event e =>
    if s.l4 = .idle ∧ (e.resent = true → 0 < s.resends) then
      { s with resends := s.resends - e.resent.toNat, l4 := .ifWantToQuit e }
    else s
  | .l4 => s.l4Step
  | .quit => if s.shell = .idle then { s with shell := .setWantToQuit } else s
  | .shell => s.shellStep
  | .thread v fd ok => s.threadStep v fd ok
  | .acceptor f client => s.acceptorStep slots f client
  | .handler f i more => s.setTcp f (HandlerSlots.step .echo slots (s.tcp f) (.handler i more))

/-! ## What is promised of a shutdown -/

/-- No server thread is running, and every descriptor has been closed. -/
structure Clean (s : State) : Prop where
  threads : ∀ v, (s.thread v).pc = .idle ∨ (s.thread v).pc = .ended
  tcp : ∀ f, Stopped (s.tcp f)
  sockets : ∀ fd, s.opened.count fd = s.closed.count fd

/-- `main` waits for a semaphore that is 0. -/
def State.Blocked (s : State) : Prop :=
  s.main = .pendRunApp ∧ s.runApp = false ∨ s.main = .pendQuitLock ∧ s.quitLock = 0

structure Sound (s : State) : Prop where
  returned : s.main = .returned → Clean s
  quits : 0 < s.quits → 0 < s.answered → ¬ s.Blocked

/-- `main` has not got `run_app` yet. -/
def MainPc.waitsRunApp : MainPc → Bool
  | .initApp | .takeRunApp | .pendRunApp => true
  | _ => false

/-- The network is up when `main` looks, or there is nothing to stop; a thread is aborted only after
its call of `socket`, and a listener only where no descriptor is between `accept` and its slot, nor
a slot marked without a thread id; a handler is aborted before it has closed its descriptor; and a
socket of a slot is looked at only when the slot's handler is not running.  `run_app` is not reset
once it was given for a quit command and `main` has not taken it. -/
def Careful (s : State) : Event → Prop
  | .main =>
    match s.main with
    | .ifConnected => s.connected = true ∨ Clean s
    | .abort (.udp f) => (s.thread (.udp f)).pc ≠ .socket
    | .abort (.tcp f) => (s.thread (.tcp f)).pc ≠ .socket ∧
        ∀ fd, (s.tcp f).acceptor.client? = some fd → ∃ i, (s.tcp f).acceptor = .mark fd i
    | .abortHandler f i => ∀ k, ((s.tcp f).slot i).thread = some k → k.pc ≠ .unset
    | .closeSlot f i => ((s.tcp f).slot i).thread = none
    | _ => True
  | .l4 =>
    match s.l4 with
    | .reset _ => s.main.waitsRunApp = true → s.quitGiven = false
    | _ => True
  | _ => True

/-! ## How far `main` has come -/

/-- The order the threads are started in. -/
def startRank : ThreadId → Nat
  | .tcp .v6 => 0
  | .tcp .v4 => 1
  | .udp .v6 => 2
  | .udp .v4 => 3

/-- The order the threads are stopped in. -/
def stopRank : ThreadId → Nat
  | .udp .v6 => 0
  | .udp .v4 => 1
  | .tcp .v6 => 2
  | .tcp .v4 => 3

/-- `main` has started the thread. -/
def MainPc.started : MainPc → ThreadId → Bool
  | .initApp, _ | .takeRunApp, _ | .pendRunApp, _ | .initSlots, _ => false
  | .start w, v => decide (startRank v < startRank w)
  | _, _ => true

/-- `main` has aborted the thread. -/
def MainPc.aborted : MainPc → ThreadId → Bool
  | .abort w, v => decide (stopRank v < stopRank w)
  | .close w, v => decide (stopRank v ≤ stopRank w)
  | .inUse f _, v | .abortHandler f _, v | .closeSlot f _, v =>
    decide (stopRank v ≤ stopRank (.tcp f))
  | _, _ => false

/-- `main` has closed the thread's socket. -/
def MainPc.closedSock : MainPc → ThreadId → Bool
  | .abort w, v | .close w, v => decide (stopRank v < stopRank w)
  | .inUse f _, v | .abortHandler f _, v | .closeSlot f _, v =>
    decide (stopRank v ≤ stopRank (.tcp f))
  | _, _ => false

/-- Where `main` is with the slots of a family: before `start_tcp`, before the listener is aborted,
at slot `i`, or behind the last one. -/
inductive TcpPhase where
  | zero
  | running
  | stopping (i : Nat)
  | stopped
  deriving DecidableEq, Repr

def MainPc.tcpPhase : MainPc → Family → TcpPhase
  | .initApp, _ | .takeRunApp, _ | .pendRunApp, _ | .initSlots, _ => .zero
  | .abort w, f => if stopRank (.tcp f) < stopRank w then .stopped else .running
  | .close w, f =>
    if stopRank (.tcp f) < stopRank w then .stopped
    else if w = .tcp f then .stopping 0
    else .running
  | .inUse g i, f | .abortHandler g i, f | .closeSlot g i, f =>
    if g = f then .stopping i else if f = .v6 then .stopped else .running
  | _, _ => .running

/-- What holds of the slots of a family. -/
def TcpPhase.Holds (slots : Nat) (t : HandlerSlots.State) : TcpPhase → Prop
  | .zero => t = zeroSlots
  | .running => HandlerSlots.Inv .echo slots t
  | .stopping i => Stopping slots i t
  | .stopped => Stopped t

/-- A socket that a thread has opened and `main` has still to close. -/
def SockHolds (main : MainPc) (thread : ThreadId → Thread) (v : ThreadId) (fd : Int) : Prop :=
  (thread v).pc ≠ .idle ∧ (thread v).pc ≠ .socket ∧ main.closedSock v = false ∧ 0 ≤ fd ∧
    (thread v).sock = fd

/-- What holds at `main` as long as it has not returned. -/
structure Stage (slots : Nat) (main : MainPc) (s : State) : Prop where
  started : ∀ v, (s.thread v).pc = .idle ↔ main.started v = false
  aborted : ∀ v, main.aborted v = true → (s.thread v).pc = .ended
  tcp : ∀ f, (main.tcpPhase f).Holds slots (s.tcp f)
  accounted : Accounted (SockHolds main s.thread) s.opened s.closed

variable {slots : Nat} {s : State}

/-! ## The server threads -/

theorem stage_init (slots : Nat) : Stage slots init.main init where
  started v := by simp [init, MainPc.started]
  aborted v h := by simp [init, MainPc.aborted] at h
  tcp f := rfl
  accounted := accounted_nil fun v fd h => h.1 rfl

@[simp] theorem setPc_self (v : ThreadId) (pc : ThreadPc) :
    (s.setPc v pc).thread v = { s.thread v with pc := pc } := by
  simp [State.setPc]

theorem setPc_of_ne {v w : ThreadId} (pc : ThreadPc) (hne : w ≠ v) :
    (s.setPc v pc).thread w = s.thread w := by
  simp [State.setPc, hne]

/-- A thread goes on from a statement behind its call of `socket`, where it has not been aborted. -/
theorem Stage.setPc {main : MainPc} (h : Stage slots main s) {v : ThreadId} {pc : ThreadPc}
    (hidle : (s.thread v).pc ≠ .idle) (hsocket : (s.thread v).pc ≠ .socket)
    (hpc : pc ≠ .idle ∧ pc ≠ .socket) (hended : (s.thread v).pc = .ended → pc = .ended) :
    Stage slots main (s.setPc v pc) where
  started w := by
    rcases eq_or_ne w v with rfl | hne
    · rw [setPc_self, ← h.started w]
      exact iff_of_false hpc.1 hidle
    · rw [setPc_of_ne pc hne]
      exact h.started w
  aborted w hw := by
    rcases eq_or_ne w v with rfl | hne
    · rw [setPc_self]
      exact hended (h.aborted w hw)
    · rw [setPc_of_ne pc hne]
      exact h.aborted w hw
  tcp := h.tcp
  accounted := by
    refine h.accounted.congr fun w fd => ?_
    rcases eq_or_ne w v with rfl | hne
    · simp [SockHolds, hidle, hsocket, hpc]
    · simp only [SockHolds, setPc_of_ne pc hne]

/-- `quit` wakes `main` at most. -/
theorem Stage.quit (h : Stage slots s.main s) : Stage slots s.quit.main s.quit := by
  unfold State.quit
  split
  case isTrue hat =>
    rw [hat] at h
    exact ⟨h.started, h.aborted, h.tcp, h.accounted⟩
  case isFalse => exact ⟨h.started, h.aborted, h.tcp, h.accounted⟩

theorem Stage.giveRunApp (h : Stage slots s.main s) :
    Stage slots s.giveRunApp.main s.giveRunApp := by
  unfold State.giveRunApp
  split
  case isTrue hat =>
    rw [hat] at h
    exact ⟨h.started, h.aborted, h.tcp, h.accounted⟩
  case isFalse => exact ⟨h.started, h.aborted, h.tcp, h.accounted⟩

@[simp] theorem quit_thread : s.quit.thread = s.thread := by
  unfold State.quit
  split <;> rfl

theorem aborted_of_closedSock {main : MainPc} {v : ThreadId} (h : main.closedSock v = true) :
    main.aborted v = true := by
  cases main with
  | close w =>
    simp only [MainPc.closedSock, MainPc.aborted, decide_eq_true_eq] at h ⊢
    omega
  | _ => exact h

/-- What `socket` returns is in the thread's field. -/
theorem Stage.socket (h : Stage slots s.main s) {v : ThreadId} (hat : (s.thread v).pc = .socket)
    (fd : Int) (ok : Bool) : Stage slots s.main (s.threadStep v fd ok) := by
  have hstarted : s.main.started v ≠ false := fun hno => by
    simp [(h.started v).mpr hno] at hat
  have haborted : s.main.aborted v ≠ true := fun hyes => by
    simp [h.aborted v hyes] at hat
  have hlater : ∀ pc : ThreadPc, pc ≠ .idle → ∀ w,
      (Function.update s.thread v { sock := fd, pc := pc } w).pc = .idle ↔
        s.main.started w = false := by
    intro pc hpc w
    rcases eq_or_ne w v with rfl | hne
    · simp [hpc, hstarted]
    · rw [Function.update_of_ne hne]
      exact h.started w
  have hended : ∀ (pc : ThreadPc) w, s.main.aborted w = true →
      (Function.update s.thread v { sock := fd, pc := pc } w).pc = .ended := by
    intro pc w hw
    have hne : w ≠ v := fun hwv => haborted (hwv ▸ hw)
    rw [Function.update_of_ne hne]
    exact h.aborted w hw
  simp only [State.threadStep, hat]
  split
  case isTrue hneg =>
    refine ⟨hlater _ (by decide), hended _, h.tcp, h.accounted.congr fun w e => ?_⟩
    rcases eq_or_ne w v with rfl | hne
    · have hnot : 0 ≤ e → fd ≠ e := by omega
      simpa [SockHolds, hat] using fun _ => hnot
    · simp [SockHolds, hne]
  case isFalse hpos =>
    split
    case isFalse => exact h
    case isTrue hfresh =>
      refine ⟨hlater _ (by decide), hended _, h.tcp, ?_⟩
      refine h.accounted.acquire (p := v) hfresh.1 fun w e => ?_
      rcases eq_or_ne w v with rfl | hne
      · have hclosed : s.main.closedSock w = false :=
          Bool.eq_false_iff.mpr fun hyes => haborted (aborted_of_closedSock hyes)
        have he : 0 ≤ e ∧ fd = e ↔ e = fd := by omega
        simp [SockHolds, hat, hclosed, he]
      · simp [SockHolds, hne]

/-- Only at its statement `quit` does a thread change where `main` is. -/
theorem threadStep_main {v : ThreadId} (hne : (s.thread v).pc ≠ .quit) (fd : Int) (ok : Bool) :
    (s.threadStep v fd ok).main = s.main := by
  unfold State.threadStep
  split <;> try split
  all_goals first | rfl | contradiction | skip
  all_goals split <;> rfl

theorem Stage.thread (h : Stage slots s.main s) (v : ThreadId) (fd : Int) (ok : Bool) :
    Stage slots (s.threadStep v fd ok).main (s.threadStep v fd ok) := by
  cases hat : (s.thread v).pc with
  | idle => simpa only [State.threadStep, hat] using h
  | socket =>
    rw [threadStep_main (by simp [hat])]
    exact h.socket hat fd ok
  | setup =>
    simp only [State.threadStep, hat]
    refine h.setPc (by simp [hat]) (by simp [hat]) ?_ (by simp [hat])
    cases ok <;> exact ⟨by simp, by simp⟩
  | serve =>
    simp only [State.threadStep, hat]
    cases v with
    | tcp f => exact h
    | udp f =>
      cases ok with
      | true => exact h
      | false => exact h.setPc (by simp [hat]) (by simp [hat]) ⟨by simp, by simp⟩ (by simp [hat])
  | quit =>
    simp only [State.threadStep, hat]
    exact h.quit.setPc (by simp [hat]) (by simp [hat]) ⟨by simp, by simp⟩ (by simp)
  | ended => simpa only [State.threadStep, hat] using h

/-- What the threads of a family's slots do keeps what holds of the slots. -/
theorem Stage.setTcp {main : MainPc} (h : Stage slots main s) {f : Family} {t : HandlerSlots.State}
    (ht : (main.tcpPhase f).Holds slots t) : Stage slots main (s.setTcp f t) where
  started := h.started
  aborted := h.aborted
  tcp g := by
    rcases eq_or_ne g f with rfl | hne
    · simpa [State.setTcp] using ht
    · simpa [State.setTcp, hne] using h.tcp g
  accounted := h.accounted

/-- Between its start and its end a listener works on slots that `main` leaves alone. -/
theorem tcpPhase_running {main : MainPc} {f : Family} (hstarted : main.started (.tcp f) ≠ false)
    (haborted : main.aborted (.tcp f) ≠ true) : main.tcpPhase f = .running := by
  cases main with
  | initApp => exact absurd rfl hstarted
  | takeRunApp => exact absurd rfl hstarted
  | pendRunApp => exact absurd rfl hstarted
  | initSlots => exact absurd rfl hstarted
  | abort w => simpa [MainPc.aborted, MainPc.tcpPhase] using haborted
  | close w =>
    simp only [MainPc.aborted, ne_eq, decide_eq_true_eq] at haborted
    have hne : w ≠ .tcp f := by
      rintro rfl
      omega
    have hlt : ¬ stopRank (.tcp f) < stopRank w := by omega
    simp only [MainPc.tcpPhase, hlt, hne, if_false]
  | inUse g i => cases f <;> cases g <;> simp_all [MainPc.aborted, MainPc.tcpPhase, stopRank]
  | abortHandler g i => cases f <;> cases g <;> simp_all [MainPc.aborted, MainPc.tcpPhase, stopRank]
  | closeSlot g i => cases f <;> cases g <;> simp_all [MainPc.aborted, MainPc.tcpPhase, stopRank]
  | _ => rfl

theorem Stage.acceptor (h : Stage slots s.main s) (f : Family) (client : Int) :
    Stage slots (s.acceptorStep slots f client).main (s.acceptorStep slots f client) := by
  unfold State.acceptorStep
  split
  case isFalse => exact h
  case isTrue hserve =>
    refine h.setTcp ?_
    have htcp := h.tcp f
    have hstarted : s.main.started (.tcp f) ≠ false := fun hno => by
      simp [(h.started (.tcp f)).mpr hno] at hserve
    have haborted : s.main.aborted (.tcp f) ≠ true := fun hyes => by
      simp [h.aborted (.tcp f) hyes] at hserve
    have hphase := tcpPhase_running hstarted haborted
    rw [hphase] at htcp ⊢
    exact htcp.step_echo _

theorem handler_of_none {t : HandlerSlots.State} {i : Nat} (hnone : (t.slot i).thread = none)
    (more : Bool) : HandlerSlots.step .echo slots t (.handler i more) = t := by
  simp [HandlerSlots.step, hnone]

theorem Stage.handler (h : Stage slots s.main s) (f : Family) (i : Nat) (more : Bool) :
    Stage slots s.main
      (s.setTcp f (HandlerSlots.step .echo slots (s.tcp f) (.handler i more))) := by
  refine h.setTcp ?_
  have htcp := h.tcp f
  cases hphase : s.main.tcpPhase f with
  | zero =>
    rw [hphase] at htcp
    have hzero : s.tcp f = zeroSlots := htcp
    rw [handler_of_none (by rw [hzero]; rfl)]
    exact htcp
  | running =>
    rw [hphase] at htcp
    exact HandlerSlots.Inv.step_echo htcp _
  | stopping j =>
    rw [hphase] at htcp
    exact Stopping.handler htcp i more
  | stopped =>
    rw [hphase] at htcp
    rw [handler_of_none (Stopped.thread htcp i)]
    exact htcp

/-! ## The statements of `main` -/

theorem Stage.initSlots (h : Stage slots s.main s) (hat : s.main = .initSlots) :
    Stage slots (.start (.tcp .v6)) { s with tcp := fun _ => HandlerSlots.start } := by
  rw [hat] at h
  refine ⟨fun v => ?_, fun v hv => absurd hv (by simp [MainPc.aborted]),
    fun f => inv_start .echo slots, h.accounted⟩
  rw [h.started v]
  simp [MainPc.started, startRank]

/-- The thread `v` and no other is started. -/
theorem afterStart_started (v w : ThreadId) :
    (afterStart v).started w = (decide (w = v) || (MainPc.start v).started w) := by
  rcases v with ⟨_ | _⟩ | ⟨_ | _⟩ <;> rcases w with ⟨_ | _⟩ | ⟨_ | _⟩ <;> rfl

theorem Stage.start (h : Stage slots s.main s) {v : ThreadId} (hat : s.main = .start v) :
    Stage slots (afterStart v) (s.setPc v .socket) := by
  rw [hat] at h
  have hv : (s.thread v).pc = .idle := (h.started v).mpr (by simp [MainPc.started])
  have hnext : ∀ w f, (afterStart v).aborted w = false ∧ (afterStart v).closedSock w = false ∧
      (afterStart v).tcpPhase f = .running := by
    rcases v with ⟨_ | _⟩ | ⟨_ | _⟩ <;> intro w f <;> exact ⟨rfl, rfl, rfl⟩
  refine ⟨fun w => ?_, fun w hw => ?_, fun f => ?_, h.accounted.congr fun w fd => ?_⟩
  · rw [afterStart_started]
    rcases eq_or_ne w v with rfl | hne
    · simp
    · rw [setPc_of_ne _ hne, h.started w]
      simp [hne]
  · simp [(hnext w .v4).1] at hw
  · rw [(hnext v f).2.2]
    exact h.tcp f
  · rcases eq_or_ne w v with rfl | hne
    · simp [SockHolds, hv]
    · have hopen : (MainPc.start v).closedSock w = false := rfl
      simp only [SockHolds, setPc_of_ne _ hne, (hnext w .v4).2.1, hopen]

/-- The network is up: `main` begins to stop. -/
theorem Stage.stop (h : Stage slots s.main s) (hat : s.main = .ifConnected) :
    Stage slots (.abort (.udp .v6)) s := by
  rw [hat] at h
  refine ⟨h.started, fun v hv => absurd hv (by simp [MainPc.aborted, stopRank]), fun f => ?_,
    h.accounted.congr fun v fd => ?_⟩
  · have hphase : (MainPc.abort (.udp .v6)).tcpPhase f = .running := by
      simp [MainPc.tcpPhase, stopRank]
    rw [hphase]
    exact h.tcp f
  · simp [SockHolds, MainPc.closedSock, stopRank]

theorem stopRank_inj {v w : ThreadId} (h : stopRank v = stopRank w) : v = w := by
  rcases v with ⟨_ | _⟩ | ⟨_ | _⟩ <;> rcases w with ⟨_ | _⟩ | ⟨_ | _⟩ <;> simp_all [stopRank]

/-- A thread is aborted behind its call of `socket`. -/
theorem Stage.abortPc (h : Stage slots s.main s) {v : ThreadId} (hat : s.main = .abort v)
    (hsocket : (s.thread v).pc ≠ .socket) {t : State} (ht : t.thread = (s.setPc v .ended).thread)
    (hopened : t.opened = s.opened) (hclosed : t.closed = s.closed)
    (hphases : ∀ f, ((MainPc.close v).tcpPhase f).Holds slots (t.tcp f)) :
    Stage slots (.close v) t := by
  rw [hat] at h
  have hidle : (s.thread v).pc ≠ .idle := fun hidle => by
    simpa [MainPc.started] using (h.started v).mp hidle
  refine ⟨fun w => ?_, fun w hw => ?_, hphases, ?_⟩
  · rw [ht]
    rcases eq_or_ne w v with rfl | hne
    · simp [MainPc.started]
    · rw [setPc_of_ne _ hne]
      exact h.started w
  · rw [ht]
    rcases eq_or_ne w v with rfl | hne
    · simp
    · rw [setPc_of_ne _ hne]
      refine h.aborted w ?_
      have hrank : stopRank w ≠ stopRank v := fun heq => hne (stopRank_inj heq)
      simp only [MainPc.aborted, decide_eq_true_eq] at hw ⊢
      omega
  · rw [hopened, hclosed, ht]
    refine h.accounted.congr fun w fd => ?_
    rcases eq_or_ne w v with rfl | hne
    · simp [SockHolds, hidle, hsocket, MainPc.closedSock]
    · simp only [SockHolds, setPc_of_ne _ hne]
      exact Iff.rfl

theorem Stage.abortThread (h : Stage slots s.main s) {v : ThreadId} (hat : s.main = .abort v)
    (hcareful : Careful s .main) : Stage slots (.close v) (s.abortThread v) := by
  have htcp : ∀ f, ((MainPc.abort v).tcpPhase f).Holds slots (s.tcp f) := hat ▸ h.tcp
  simp only [Careful, hat] at hcareful
  cases v with
  | udp g =>
    refine h.abortPc hat hcareful rfl rfl rfl fun f => ?_
    have hphase : (MainPc.close (.udp g)).tcpPhase f = (MainPc.abort (.udp g)).tcpPhase f := by
      simp [MainPc.tcpPhase]
    rw [hphase]
    exact htcp f
  | tcp g =>
    obtain ⟨hsocket, hclient⟩ := hcareful
    refine h.abortPc hat hsocket rfl rfl rfl fun f => ?_
    rcases eq_or_ne f g with rfl | hne
    · have hrunning := htcp f
      simp only [MainPc.tcpPhase, Nat.lt_irrefl, if_false] at hrunning
      simp only [MainPc.tcpPhase, Nat.lt_irrefl, if_false, if_true, State.abortThread, State.setTcp,
        Function.update_self]
      exact Stopping.of_inv hrunning fun fd hfd => (hclient fd hfd).imp fun _ => .inl
    · have hphase : (MainPc.close (.tcp g)).tcpPhase f = (MainPc.abort (.tcp g)).tcpPhase f := by
        simp [MainPc.tcpPhase, hne.symm]
      rw [hphase]
      simp only [State.abortThread, State.setTcp, Function.update_of_ne hne]
      exact htcp f

/-- Behind a close `main` goes to the next thread, or to the slots of the listener. -/
theorem afterClose_same (v : ThreadId) :
    (∀ w, (afterClose v).started w = true) ∧
    (∀ w, (afterClose v).aborted w = (MainPc.close v).aborted w) ∧
    (∀ w, (afterClose v).closedSock w = (MainPc.close v).aborted w) ∧
    ∀ f, (afterClose v).tcpPhase f = (MainPc.close v).tcpPhase f := by
  rcases v with ⟨_ | _⟩ | ⟨_ | _⟩ <;> refine ⟨fun w => ?_, fun w => ?_, fun w => ?_, fun f => ?_⟩
  all_goals first | rfl | (cases f <;> rfl) | (rcases w with ⟨_ | _⟩ | ⟨_ | _⟩ <;> rfl)

/-- The socket of a thread that has been aborted is closed. -/
theorem Stage.closeSock (h : Stage slots s.main s) {v : ThreadId} (hat : s.main = .close v) :
    Stage slots (afterClose v) (s.closeSock v) := by
  rw [hat] at h
  obtain ⟨hstarted, haborted, hclosed, hphase⟩ := afterClose_same v
  have hended : (s.thread v).pc = .ended := h.aborted v (by simp [MainPc.aborted])
  have hrank : ∀ w, (MainPc.close v).aborted w = false ↔
      (MainPc.close v).closedSock w = false ∧ w ≠ v := by
    intro w
    simp only [MainPc.aborted, MainPc.closedSock, decide_eq_false_iff_not]
    constructor
    · intro hlt
      refine ⟨by omega, ?_⟩
      rintro rfl
      omega
    · rintro ⟨hge, hne⟩
      have hdiff : stopRank w ≠ stopRank v := fun heq => hne (stopRank_inj heq)
      omega
  have hthreads : ∀ w, (s.thread w).pc = .idle ↔ (afterClose v).started w = false := by
    intro w
    rw [hstarted, h.started w]
    simp [MainPc.started]
  have hpcs : ∀ w, (afterClose v).aborted w = true → (s.thread w).pc = .ended := by
    intro w hw
    exact h.aborted w (by rwa [haborted] at hw)
  have htcp : ∀ f, ((afterClose v).tcpPhase f).Holds slots (s.tcp f) := by
    intro f
    rw [hphase]
    exact h.tcp f
  unfold State.closeSock
  split
  case isTrue hpos =>
    refine ⟨hthreads, hpcs, htcp, ?_⟩
    have hholds : SockHolds (.close v) s.thread v (s.thread v).sock := by
      simp [SockHolds, hended, MainPc.closedSock, hpos]
    refine h.accounted.release hholds fun w fd => ?_
    simp only [SockHolds, hclosed, hrank]
    constructor
    · rintro ⟨hidle, hsocket, ⟨hopen, hne⟩, hfd⟩
      exact ⟨⟨hidle, hsocket, hopen, hfd⟩, fun heq => hne heq.1⟩
    · rintro ⟨⟨hidle, hsocket, hopen, hfd, heq⟩, hnot⟩
      refine ⟨hidle, hsocket, ⟨hopen, ?_⟩, hfd, heq⟩
      rintro rfl
      exact hnot ⟨rfl, heq.symm⟩
  case isFalse hneg =>
    refine ⟨hthreads, hpcs, htcp, h.accounted.congr fun w fd => ?_⟩
    simp only [SockHolds, hclosed, hrank]
    constructor
    · rintro ⟨hidle, hsocket, ⟨hopen, _⟩, hfd⟩
      exact ⟨hidle, hsocket, hopen, hfd⟩
    · rintro ⟨hidle, hsocket, hopen, hfd, heq⟩
      refine ⟨hidle, hsocket, ⟨hopen, ?_⟩, hfd, heq⟩
      rintro rfl
      omega

theorem Stage.inUse (h : Stage slots s.main s) {f : Family} {i : Nat} (hat : s.main = .inUse f i)
    {main : MainPc} (hmain : main = .abortHandler f i ∨ main = .closeSlot f i) :
    Stage slots main s := by
  rw [hat] at h
  rcases hmain with rfl | rfl
  · exact ⟨h.started, h.aborted, h.tcp, h.accounted⟩
  · exact ⟨h.started, h.aborted, h.tcp, h.accounted⟩

/-- A handler is aborted that has not closed its descriptor. -/
theorem Stage.abortHandler (h : Stage slots s.main s) {f : Family} {i : Nat}
    (hat : s.main = .abortHandler f i) (hcareful : Careful s .main) :
    Stage slots (.closeSlot f i) (s.setTcp f (EchoServer.abortHandler (s.tcp f) i)) := by
  simp only [Careful, hat] at hcareful
  rw [hat] at h
  have htcp := h.tcp f
  simp only [MainPc.tcpPhase, if_true] at htcp
  have hnext : Stage slots (.closeSlot f i) s := ⟨h.started, h.aborted, h.tcp, h.accounted⟩
  refine hnext.setTcp ?_
  simp only [MainPc.tcpPhase, if_true]
  exact Stopping.abortHandler htcp hcareful

/-- The socket of a slot is closed when its handler is not running. -/
theorem Stage.closeSlot (h : Stage slots s.main s) {f : Family} {i : Nat}
    (hat : s.main = .closeSlot f i) (hcareful : Careful s .main) :
    Stage slots (.inUse f (i + 1)) (s.setTcp f (EchoServer.closeSlot (s.tcp f) i)) := by
  simp only [Careful, hat] at hcareful
  rw [hat] at h
  refine ⟨h.started, h.aborted, fun g => ?_, h.accounted⟩
  have htcp := h.tcp g
  rcases eq_or_ne f g with rfl | hne
  · simp only [MainPc.tcpPhase, if_true] at htcp
    simp only [MainPc.tcpPhase, if_true, State.setTcp, Function.update_self]
    exact Stopping.closeSlot htcp hcareful
  · simp only [MainPc.tcpPhase, hne, if_false] at htcp
    simp only [MainPc.tcpPhase, hne, if_false, State.setTcp, Function.update_of_ne hne.symm]
    exact htcp

/-- Behind the last slot of IPv6 comes the listener of IPv4. -/
theorem Stage.nextFamily (h : Stage slots s.main s) {i : Nat} (hat : s.main = .inUse .v6 i)
    (hi : slots ≤ i) : Stage slots (.abort (.tcp .v4)) s := by
  rw [hat] at h
  have hrank : ∀ v,
      decide (stopRank v < stopRank (.tcp .v4)) = decide (stopRank v ≤ stopRank (.tcp .v6)) :=
    fun v => decide_eq_decide.mpr Nat.lt_succ_iff
  refine ⟨h.started, fun v hv => ?_, fun g => ?_, h.accounted.congr fun v fd => ?_⟩
  · exact h.aborted v ((hrank v).symm.trans hv)
  · have htcp := h.tcp g
    cases g with
    | v4 => exact htcp
    | v6 =>
      simp only [MainPc.tcpPhase, if_true] at htcp
      exact Stopping.stopped_of_last htcp hi
  · simp only [SockHolds, MainPc.closedSock, hrank]

/-- Behind the last slot of IPv4 nothing is left. -/
theorem Stage.clean (h : Stage slots s.main s) {i : Nat} (hat : s.main = .inUse .v4 i)
    (hi : slots ≤ i) : Clean s := by
  rw [hat] at h
  have hrank : ∀ v, stopRank v ≤ stopRank (.tcp .v4) := by
    rintro (⟨_ | _⟩ | ⟨_ | _⟩) <;> decide
  refine ⟨fun v => .inr (h.aborted v (decide_eq_true (hrank v))), fun f => ?_, fun fd => ?_⟩
  · have htcp := h.tcp f
    cases f with
    | v4 =>
      simp only [MainPc.tcpPhase, if_true] at htcp
      exact Stopping.stopped_of_last htcp hi
    | v6 => exact htcp
  · refine h.accounted.settled fd fun v hv => ?_
    simp [SockHolds, MainPc.closedSock, hrank] at hv

/-- `main` is on its way, or it has left nothing behind. -/
def Progress (slots : Nat) (s : State) : Prop :=
  s.main = .returned ∧ Clean s ∨ s.main ≠ .returned ∧ Stage slots s.main s

theorem Stage.progress {main : MainPc} (h : Stage slots main s) (hne : main ≠ .returned) :
    Progress slots { s with main := main } :=
  .inr ⟨hne, h.started, h.aborted, h.tcp, h.accounted⟩

theorem Clean.progress (h : Clean s) : Progress slots { s with main := .returned } :=
  .inl ⟨rfl, h.threads, h.tcp, h.sockets⟩

theorem Stage.mainStep (h : Stage slots s.main s) (hcareful : Careful s .main)
    (hne : s.main ≠ .returned) : Progress slots (s.mainStep slots) := by
  cases hat : s.main with
  | initApp =>
    simp only [State.mainStep, hat]
    rw [hat] at h
    exact .inr ⟨by simp, h.started, h.aborted, h.tcp, h.accounted⟩
  | takeRunApp =>
    simp only [State.mainStep, hat]
    rw [hat] at h
    split <;> exact .inr ⟨by simp, h.started, h.aborted, h.tcp, h.accounted⟩
  | pendRunApp =>
    simp only [State.mainStep, hat]
    exact .inr ⟨hne, h⟩
  | initSlots =>
    simp only [State.mainStep, hat]
    exact (h.initSlots hat).progress (by simp)
  | start v =>
    simp only [State.mainStep, hat]
    refine (h.start hat).progress ?_
    rcases v with ⟨_ | _⟩ | ⟨_ | _⟩ <;> exact MainPc.noConfusion
  | takeQuitLock =>
    simp only [State.mainStep, hat]
    rw [hat] at h
    split <;> exact .inr ⟨by simp, h.started, h.aborted, h.tcp, h.accounted⟩
  | pendQuitLock =>
    simp only [State.mainStep, hat]
    exact .inr ⟨hne, h⟩
  | ifConnected =>
    simp only [State.mainStep, hat]
    have hdone : s.connected = true ∨ Clean s := by simpa only [Careful, hat] using hcareful
    by_cases hup : s.connected = true
    · rw [if_pos hup]
      exact (h.stop hat).progress (by simp)
    · rw [if_neg hup]
      exact (hdone.resolve_left hup).progress
  | abort v =>
    simp only [State.mainStep, hat]
    exact (h.abortThread hat hcareful).progress (by simp)
  | close v =>
    simp only [State.mainStep, hat]
    refine (h.closeSock hat).progress ?_
    rcases v with ⟨_ | _⟩ | ⟨_ | _⟩ <;> exact MainPc.noConfusion
  | inUse f i =>
    simp only [State.mainStep, hat]
    split
    case isTrue hi =>
      split
      · exact (h.inUse hat (.inl rfl)).progress (by simp)
      · exact (h.inUse hat (.inr rfl)).progress (by simp)
    case isFalse hi =>
      cases f with
      | v6 => exact (h.nextFamily hat (by omega)).progress (by simp)
      | v4 => exact (h.clean hat (by omega)).progress
  | abortHandler f i =>
    simp only [State.mainStep, hat]
    exact (h.abortHandler hat hcareful).progress (by simp)
  | closeSlot f i =>
    simp only [State.mainStep, hat]
    exact (h.closeSlot hat hcareful).progress (by simp)
  | returned => exact absurd hat hne

/-! ## The other steps -/

/-- Nothing depends on the semaphores and the flags. -/
theorem Progress.congr (h : Progress slots s) {t : State} (hmain : t.main = s.main)
    (hthread : t.thread = s.thread) (htcp : t.tcp = s.tcp) (hopened : t.opened = s.opened)
    (hclosed : t.closed = s.closed) : Progress slots t := by
  rcases h with ⟨hat, hclean⟩ | ⟨hne, hstage⟩
  · refine .inl ⟨hmain.trans hat, ?_, ?_, ?_⟩
    · rw [hthread]
      exact hclean.threads
    · rw [htcp]
      exact hclean.tcp
    · rw [hopened, hclosed]
      exact hclean.sockets
  · refine .inr ⟨by rwa [hmain], ?_, ?_, ?_, ?_⟩
    · rw [hthread, hmain]
      exact hstage.started
    · rw [hthread, hmain]
      exact hstage.aborted
    · rw [htcp, hmain]
      exact hstage.tcp
    · rw [hopened, hclosed, hthread, hmain]
      exact hstage.accounted

theorem giveRunApp_main (hne : s.main ≠ .returned) : s.giveRunApp.main ≠ .returned := by
  unfold State.giveRunApp
  split
  · simp
  · exact hne

theorem quit_main (hne : s.main ≠ .returned) : s.quit.main ≠ .returned := by
  unfold State.quit
  split
  · simp
  · exact hne

theorem Progress.giveRunApp (h : Progress slots s) : Progress slots s.giveRunApp := by
  rcases h with ⟨hat, hclean⟩ | ⟨hne, hstage⟩
  · rw [State.giveRunApp, if_neg (by simp [hat])]
    exact .inl ⟨hat, hclean.threads, hclean.tcp, hclean.sockets⟩
  · exact .inr ⟨giveRunApp_main hne, hstage.giveRunApp⟩

theorem Progress.quit (h : Progress slots s) : Progress slots s.quit := by
  rcases h with ⟨hat, hclean⟩ | ⟨hne, hstage⟩
  · rw [State.quit, if_neg (by simp [hat])]
    exact .inl ⟨hat, hclean.threads, hclean.tcp, hclean.sockets⟩
  · exact .inr ⟨quit_main hne, hstage.quit⟩

theorem Progress.mainStep (h : Progress slots s) (hcareful : Careful s .main) :
    Progress slots (s.mainStep slots) := by
  rcases h with ⟨hat, hclean⟩ | ⟨hne, hstage⟩
  · simp only [State.mainStep, hat]
    exact .inl ⟨hat, hclean⟩
  · exact hstage.mainStep hcareful hne

theorem Progress.l4Step (h : Progress slots s) : Progress slots s.l4Step := by
  unfold State.l4Step
  split
  case h_1 => exact h
  case h_3 => exact h.giveRunApp.congr rfl rfl rfl rfl rfl
  case h_6 => exact h.giveRunApp.congr rfl rfl rfl rfl rfl
  all_goals exact h.congr rfl rfl rfl rfl rfl

theorem Progress.shellStep (h : Progress slots s) : Progress slots s.shellStep := by
  unfold State.shellStep
  split
  case h_1 => exact h
  case h_4 => exact h.quit.congr rfl rfl rfl rfl rfl
  all_goals exact h.congr rfl rfl rfl rfl rfl

theorem Progress.threadStep (h : Progress slots s) (v : ThreadId) (fd : Int) (ok : Bool) :
    Progress slots (s.threadStep v fd ok) := by
  rcases h with ⟨hat, hclean⟩ | ⟨hne, hstage⟩
  · have hsame : s.threadStep v fd ok = s := by
      rcases hclean.threads v with hpc | hpc <;> simp [State.threadStep, hpc]
    rw [hsame]
    exact .inl ⟨hat, hclean⟩
  · refine .inr ⟨?_, hstage.thread v fd ok⟩
    by_cases hquit : (s.thread v).pc = .quit
    · simp only [State.threadStep, hquit]
      exact quit_main hne
    · rwa [threadStep_main hquit]

theorem acceptorStep_main (f : Family) (client : Int) :
    (s.acceptorStep slots f client).main = s.main := by
  unfold State.acceptorStep
  split <;> rfl

theorem Progress.acceptorStep (h : Progress slots s) (f : Family) (client : Int) :
    Progress slots (s.acceptorStep slots f client) := by
  rcases h with ⟨hat, hclean⟩ | ⟨hne, hstage⟩
  · have hsame : s.acceptorStep slots f client = s := by
      rcases hclean.threads (.tcp f) with hpc | hpc <;> simp [State.acceptorStep, hpc]
    rw [hsame]
    exact .inl ⟨hat, hclean⟩
  · exact .inr ⟨by rwa [acceptorStep_main], hstage.acceptor f client⟩

theorem Progress.handler (h : Progress slots s) (f : Family) (i : Nat) (more : Bool) :
    Progress slots (s.setTcp f (HandlerSlots.step .echo slots (s.tcp f) (.handler i more))) := by
  rcases h with ⟨hat, hclean⟩ | ⟨hne, hstage⟩
  · rw [handler_of_none ((hclean.tcp f).thread i)]
    have hsame : s.setTcp f (s.tcp f) = s := by simp [State.setTcp]
    rw [hsame]
    exact .inl ⟨hat, hclean⟩
  · exact .inr ⟨hne, hstage.handler f i more⟩

theorem Progress.step (h : Progress slots s) (e : Event) (hcareful : Careful s e) :
    Progress slots (step slots s e) := by
  cases e with
  | main => exact h.mainStep hcareful
  | event e =>
    simp only [Shutdown.step]
    split
    · exact h.congr rfl rfl rfl rfl rfl
    · exact h
  | l4 => exact h.l4Step
  | quit =>
    simp only [Shutdown.step]
    split
    · exact h.congr rfl rfl rfl rfl rfl
    · exact h
  | shell => exact h.shellStep
  | thread v fd ok => exact h.threadStep v fd ok
  | acceptor f client => exact h.acceptorStep f client
  | handler f i more => exact h.handler f i more

/-! ## The semaphores -/

/-- `main` has not got `quit_lock` yet. -/
def MainPc.waitsQuitLock : MainPc → Bool
  | .initApp | .takeRunApp | .pendRunApp | .initSlots | .start _ | .takeQuitLock
  | .pendQuitLock => true
  | _ => false

/-- An event that was sent for a quit command finds `want_to_quit`, or finds that `run_app` has been
given for a command. -/
structure Asked (s : State) : Prop where
  sent : s.shell = .resendStatus ∨ 0 < s.resends → s.wantToQuit = true ∨ s.quitGiven = true
  arrived : ∀ e, s.l4 = .ifWantToQuit e → e.resent = true → s.wantToQuit = true ∨ s.quitGiven = true
  given : ∀ e, s.l4 = .clearWantToQuit e → s.quitGiven = true
  handled : ∀ e, s.l4 = .branch e ∨ s.l4 = .give e ∨ s.l4 = .reset e → e.resent = true →
    s.quitGiven = true
  answered : 0 < s.answered → s.quitGiven = true

/-- A semaphore that was given for a quit command is given until `main` takes it. -/
structure Given (s : State) : Prop where
  runApp : s.quitGiven = true → s.main.waitsRunApp = true → s.runApp = true ∧ s.main ≠ .pendRunApp
  quitLock : 0 < s.quits → s.main.waitsQuitLock = true → 0 < s.quitLock ∧ s.main ≠ .pendQuitLock

theorem asked_init : Asked init where
  sent h := by simp [init] at h
  arrived e h := by simp [init] at h
  given e h := by simp [init] at h
  handled e h := by simp [init] at h
  answered h := by simp [init] at h

theorem given_init : Given init where
  runApp h := by simp [init] at h
  quitLock h := by simp [init] at h

/-- The flags and the handler of events depend on nothing else. -/
def State.askedOf (s : State) : Bool × Bool × L4Pc × ShellPc × Nat × Nat :=
  (s.wantToQuit, s.quitGiven, s.l4, s.shell, s.resends, s.answered)

theorem Asked.congr (h : Asked s) {t : State} (heq : t.askedOf = s.askedOf) : Asked t := by
  simp only [State.askedOf, Prod.mk.injEq] at heq
  obtain ⟨hwant, hgiven, hl4, hshell, hresends, hanswered⟩ := heq
  refine ⟨?_, ?_, ?_, ?_, ?_⟩
  · rw [hwant, hgiven, hshell, hresends]
    exact h.sent
  · rw [hwant, hgiven, hl4]
    exact h.arrived
  · rw [hgiven, hl4]
    exact h.given
  · rw [hgiven, hl4]
    exact h.handled
  · rw [hgiven, hanswered]
    exact h.answered

theorem quit_askedOf : s.quit.askedOf = s.askedOf := by
  unfold State.quit
  split <;> rfl

theorem mainStep_askedOf : (s.mainStep slots).askedOf = s.askedOf := by
  unfold State.mainStep
  split
  case h_9 v _ => cases v <;> rfl
  case h_10 =>
    unfold State.closeSock
    split <;> rfl
  all_goals first | rfl | (split <;> rfl)

theorem threadStep_askedOf (v : ThreadId) (fd : Int) (ok : Bool) :
    (s.threadStep v fd ok).askedOf = s.askedOf := by
  unfold State.threadStep
  split
  case h_3 => split <;> try split
              all_goals rfl
  case h_5 =>
    cases v with
    | udp f => cases ok <;> rfl
    | tcp f => rfl
  case h_6 => exact quit_askedOf
  all_goals rfl

theorem Asked.shellStep (h : Asked s) : Asked s.shellStep := by
  cases hat : s.shell with
  | idle =>
    simp only [State.shellStep, hat]
    exact h
  | setWantToQuit =>
    simp only [State.shellStep, hat]
    exact ⟨fun _ => .inl rfl, fun _ _ _ => .inl rfl, h.given, h.handled, h.answered⟩
  | resendStatus =>
    simp only [State.shellStep, hat]
    exact ⟨fun _ => h.sent (.inl hat), h.arrived, h.given, h.handled, h.answered⟩
  | quit =>
    simp only [State.shellStep, hat]
    have hquit : Asked s.quit := h.congr quit_askedOf
    exact ⟨fun hsent => hquit.sent (hsent.imp (by simp) id), hquit.arrived, hquit.given,
      hquit.handled, hquit.answered⟩

theorem giveRunApp_askedOf : s.giveRunApp.askedOf = s.askedOf := by
  unfold State.giveRunApp
  split <;> rfl

/-- What is done at an event for a quit command, `run_app` has been given for. -/
theorem answered_of_handled (h : Asked s) {e : L4Event}
    (hat : s.l4 = .branch e ∨ s.l4 = .give e ∨ s.l4 = .reset e)
    (hpos : 0 < s.answered + e.resent.toNat) : s.quitGiven = true := by
  cases hresent : e.resent with
  | true => exact h.handled e hat hresent
  | false =>
    refine h.answered ?_
    simpa [hresent] using hpos

theorem Asked.l4Step (h : Asked s) : Asked s.l4Step := by
  have hgive : Asked s.giveRunApp := h.congr giveRunApp_askedOf
  cases hat : s.l4 with
  | idle =>
    simp only [State.l4Step, hat]
    exact h
  | ifWantToQuit e =>
    simp only [State.l4Step, hat]
    by_cases hwant : s.wantToQuit = true
    · rw [if_pos hwant]
      exact ⟨h.sent, by simp, by simp, by simp, h.answered⟩
    · rw [if_neg hwant]
      refine ⟨h.sent, by simp, by simp, fun e' he' hresent => ?_, h.answered⟩
      obtain rfl : e = e' := by simpa using he'
      exact (h.arrived e hat hresent).resolve_left hwant
  | giveQuit e =>
    simp only [State.l4Step, hat]
    exact ⟨fun _ => .inr rfl, by simp, fun _ _ => rfl, by simp, fun _ => rfl⟩
  | clearWantToQuit e =>
    simp only [State.l4Step, hat]
    have hgiven := h.given e hat
    exact ⟨fun _ => .inr hgiven, by simp, by simp, fun _ _ _ => hgiven, fun _ => hgiven⟩
  | branch e =>
    simp only [State.l4Step, hat]
    refine ⟨h.sent, fun e' he' => ?_, fun e' he' => ?_, fun e' he' hresent => ?_, h.answered⟩
    · cases hup : e.connected <;> simp [hup] at he'
    · cases hup : e.connected <;> simp [hup] at he'
    · obtain rfl : e = e' := by cases hup : e.connected <;> simpa [hup] using he'
      exact h.handled e (.inl hat) hresent
  | give e =>
    simp only [State.l4Step, hat]
    have hgiven : s.giveRunApp.quitGiven = s.quitGiven := by
      unfold State.giveRunApp
      split <;> rfl
    exact ⟨hgive.sent, by simp, by simp, by simp, fun hpos =>
      hgiven.trans (answered_of_handled h (.inr (.inl hat)) hpos)⟩
  | reset e =>
    simp only [State.l4Step, hat]
    exact ⟨h.sent, by simp, by simp, by simp, answered_of_handled h (.inr (.inr hat))⟩

theorem Asked.step (h : Asked s) (e : Event) : Asked (step slots s e) := by
  cases e with
  | main => exact h.congr mainStep_askedOf
  | event e =>
    simp only [Shutdown.step]
    split
    case isFalse => exact h
    case isTrue hmay =>
      refine ⟨fun hsent => ?_, fun e' he' hresent => ?_, by simp, by simp, h.answered⟩
      · refine h.sent (hsent.imp id fun hpos => ?_)
        dsimp only at hpos
        omega
      · obtain rfl : e = e' := by simpa using he'
        exact h.sent (.inr (hmay.2 hresent))
  | l4 => exact h.l4Step
  | quit =>
    simp only [Shutdown.step]
    split
    case isFalse => exact h
    case isTrue =>
      exact ⟨fun hsent => h.sent (.inr (hsent.resolve_left (by simp))), h.arrived, h.given,
        h.handled, h.answered⟩
  | shell => exact h.shellStep
  | thread v fd ok => exact h.congr (threadStep_askedOf v fd ok)
  | acceptor f client =>
    refine h.congr ?_
    simp only [Shutdown.step, State.acceptorStep]
    split <;> rfl
  | handler f i more => exact h.congr rfl

/-- `run_app` is given, for a quit command or not. -/
theorem Given.giveRunApp (h : Given s) (b : Bool) : Given { s.giveRunApp with quitGiven := b } := by
  unfold State.giveRunApp
  split
  case isTrue hat =>
    refine ⟨by simp [MainPc.waitsRunApp], fun hquits _ => ?_⟩
    have hlock := h.quitLock hquits (by simp [hat, MainPc.waitsQuitLock])
    exact ⟨hlock.1, by simp⟩
  case isFalse hne => exact ⟨fun _ _ => ⟨rfl, hne⟩, h.quitLock⟩

/-- `quit_lock` is given, by a quit command or by a thread. -/
theorem Given.quit (h : Given s) (n : Nat) : Given { s.quit with quits := n } := by
  unfold State.quit
  split
  case isTrue hat => exact ⟨by simp [MainPc.waitsRunApp], by simp [MainPc.waitsQuitLock]⟩
  case isFalse hne =>
    refine ⟨h.runApp, fun _ _ => ⟨?_, hne⟩⟩
    exact Nat.lt_min.mpr ⟨Nat.succ_pos _, by decide⟩

/-- `main` goes on behind the semaphores. -/
theorem given_of_behind (h : Given s) {t : State} (hrun : t.main.waitsRunApp = false)
    (hlock : t.main.waitsQuitLock = true → s.main.waitsQuitLock = true ∧ t.main ≠ .pendQuitLock)
    (hquits : t.quits = s.quits) (hsame : t.quitLock = s.quitLock) : Given t where
  runApp _ hwaits := by simp [hrun] at hwaits
  quitLock hpos hwaits := by
    obtain ⟨hs, hne⟩ := hlock hwaits
    rw [hquits] at hpos
    rw [hsame]
    exact ⟨(h.quitLock hpos hs).1, hne⟩

theorem abortThread_semaphores (v : ThreadId) : (s.abortThread v).quits = s.quits ∧
    (s.abortThread v).quitLock = s.quitLock := by
  cases v <;> exact ⟨rfl, rfl⟩

theorem closeSock_semaphores (v : ThreadId) : (s.closeSock v).quits = s.quits ∧
    (s.closeSock v).quitLock = s.quitLock := by
  unfold State.closeSock
  split <;> exact ⟨rfl, rfl⟩

theorem Given.mainStep (h : Given s) : Given (s.mainStep slots) := by
  cases hat : s.main with
  | initApp =>
    simp only [State.mainStep, hat]
    refine ⟨fun hgiven _ => ?_, fun hpos _ => ?_⟩
    · exact ⟨(h.runApp hgiven (by simp [hat, MainPc.waitsRunApp])).1, by simp⟩
    · exact ⟨(h.quitLock hpos (by simp [hat, MainPc.waitsQuitLock])).1, by simp⟩
  | takeRunApp =>
    have hlock : 0 < s.quits → 0 < s.quitLock := fun hpos =>
      (h.quitLock hpos (by simp [hat, MainPc.waitsQuitLock])).1
    simp only [State.mainStep, hat]
    split
    case isTrue => exact ⟨by simp [MainPc.waitsRunApp], fun hpos _ => ⟨hlock hpos, by simp⟩⟩
    case isFalse hno =>
      refine ⟨fun hgiven _ => ?_, fun hpos _ => ⟨hlock hpos, by simp⟩⟩
      exact absurd (h.runApp hgiven (by simp [hat, MainPc.waitsRunApp])).1 hno
  | pendRunApp =>
    simp only [State.mainStep, hat]
    exact h
  | takeQuitLock =>
    simp only [State.mainStep, hat]
    split
    case isTrue => exact ⟨by simp [MainPc.waitsRunApp], by simp [MainPc.waitsQuitLock]⟩
    case isFalse hno =>
      refine ⟨by simp [MainPc.waitsRunApp], fun hpos _ => ?_⟩
      exact absurd (h.quitLock hpos (by simp [hat, MainPc.waitsQuitLock])).1 hno
  | pendQuitLock =>
    simp only [State.mainStep, hat]
    exact h
  | initSlots =>
    simp only [State.mainStep, hat]
    exact given_of_behind h rfl (fun _ => ⟨by rw [hat]; rfl, by simp⟩) rfl rfl
  | start v =>
    simp only [State.mainStep, hat]
    refine given_of_behind h ?_ (fun _ => ⟨by rw [hat]; rfl, ?_⟩) rfl rfl
    all_goals rcases v with ⟨_ | _⟩ | ⟨_ | _⟩ <;> first | rfl | exact MainPc.noConfusion
  | ifConnected =>
    simp only [State.mainStep, hat]
    split <;> exact given_of_behind h rfl (by simp [MainPc.waitsQuitLock]) rfl rfl
  | abort v =>
    obtain ⟨hquits, hlock⟩ := abortThread_semaphores (s := s) v
    simp only [State.mainStep, hat]
    exact given_of_behind h rfl (by simp [MainPc.waitsQuitLock]) hquits hlock
  | close v =>
    obtain ⟨hquits, hlock⟩ := closeSock_semaphores (s := s) v
    simp only [State.mainStep, hat]
    refine given_of_behind h ?_ ?_ hquits hlock
    all_goals
      rcases v with ⟨_ | _⟩ | ⟨_ | _⟩ <;>
        simp [afterClose, MainPc.waitsRunApp, MainPc.waitsQuitLock]
  | inUse f i =>
    simp only [State.mainStep, hat]
    split
    · split <;> exact given_of_behind h rfl (by simp [MainPc.waitsQuitLock]) rfl rfl
    · cases f <;> exact given_of_behind h rfl (by simp [afterSlots, MainPc.waitsQuitLock]) rfl rfl
  | abortHandler f i =>
    simp only [State.mainStep, hat]
    exact given_of_behind h rfl (by simp [MainPc.waitsQuitLock]) rfl rfl
  | closeSlot f i =>
    simp only [State.mainStep, hat]
    exact given_of_behind h rfl (by simp [MainPc.waitsQuitLock]) rfl rfl
  | returned =>
    simp only [State.mainStep, hat]
    exact h

/-- `run_app` is not reset while `main` waits for what a quit command has given. -/
theorem Given.l4Step (h : Given s) (hcareful : Careful s .l4) : Given s.l4Step := by
  cases hat : s.l4 with
  | giveQuit e =>
    simp only [State.l4Step, hat]
    exact ⟨(h.giveRunApp true).runApp, (h.giveRunApp true).quitLock⟩
  | give e =>
    simp only [State.l4Step, hat]
    have hgive := h.giveRunApp s.giveRunApp.quitGiven
    exact ⟨hgive.runApp, hgive.quitLock⟩
  | reset e =>
    simp only [Careful, hat] at hcareful
    simp only [State.l4Step, hat]
    refine ⟨fun hgiven hwaits => ?_, h.quitLock⟩
    simp [hcareful hwaits] at hgiven
  | idle =>
    simp only [State.l4Step, hat]
    exact h
  | ifWantToQuit e =>
    simp only [State.l4Step, hat]
    exact ⟨h.runApp, h.quitLock⟩
  | clearWantToQuit e =>
    simp only [State.l4Step, hat]
    exact ⟨h.runApp, h.quitLock⟩
  | branch e =>
    simp only [State.l4Step, hat]
    exact ⟨h.runApp, h.quitLock⟩

theorem Given.shellStep (h : Given s) : Given s.shellStep := by
  have hquit := h.quit (s.quits + 1)
  unfold State.shellStep
  split
  case h_4 => exact ⟨hquit.runApp, hquit.quitLock⟩
  all_goals exact ⟨h.runApp, h.quitLock⟩

theorem Given.threadStep (h : Given s) (v : ThreadId) (fd : Int) (ok : Bool) :
    Given (s.threadStep v fd ok) := by
  have hquit := h.quit s.quits
  have hquits : s.quit.quits = s.quits := by
    unfold State.quit
    split <;> rfl
  unfold State.threadStep
  split
  case h_3 =>
    split
    · exact ⟨h.runApp, h.quitLock⟩
    · split <;> exact ⟨h.runApp, h.quitLock⟩
  case h_5 =>
    cases v with
    | udp f =>
      dsimp only
      split <;> exact ⟨h.runApp, h.quitLock⟩
    | tcp f => exact h
  case h_6 => exact ⟨hquit.runApp, fun hpos => hquit.quitLock (hquits ▸ hpos)⟩
  all_goals exact ⟨h.runApp, h.quitLock⟩

theorem Given.step (h : Given s) (e : Event) (hcareful : Careful s e) : Given (step slots s e) := by
  cases e with
  | main => exact h.mainStep
  | event e =>
    simp only [Shutdown.step]
    split <;> exact ⟨h.runApp, h.quitLock⟩
  | l4 => exact h.l4Step hcareful
  | quit =>
    simp only [Shutdown.step]
    split <;> exact ⟨h.runApp, h.quitLock⟩
  | shell => exact h.shellStep
  | thread v fd ok => exact h.threadStep v fd ok
  | acceptor f client =>
    simp only [Shutdown.step, State.acceptorStep]
    split <;> exact ⟨h.runApp, h.quitLock⟩
  | handler f i more => exact ⟨h.runApp, h.quitLock⟩

/-! ## Whole runs -/

structure Inv (slots : Nat) (s : State) : Prop where
  progress : Progress slots s
  asked : Asked s
  given : Given s

theorem inv_init (slots : Nat) : Inv slots init where
  progress := .inr ⟨by simp [init], stage_init slots⟩
  asked := asked_init
  given := given_init

theorem Inv.step (h : Inv slots s) (e : Event) (hcareful : Careful s e) :
    Inv slots (step slots s e) where
  progress := h.progress.step e hcareful
  asked := h.asked.step e
  given := h.given.step e hcareful

theorem Inv.sound (h : Inv slots s) : Sound s where
  returned hat := by
    rcases h.progress with ⟨_, hclean⟩ | ⟨hne, _⟩
    · exact hclean
    · exact absurd hat hne
  quits hquits hanswered := by
    rintro (⟨hat, _⟩ | ⟨hat, _⟩)
    · have hgiven := h.asked.answered hanswered
      exact (h.given.runApp hgiven (by simp [hat, MainPc.waitsRunApp])).2 hat
    · exact (h.given.quitLock hquits (by simp [hat, MainPc.waitsQuitLock])).2 hat

/-- In a run of careful steps `main` leaves nothing behind, and a quit command ends its waiting. -/
theorem shutdown_sound_of_careful (slots : Nat) (es : List Event)
    (h : Along (step slots) Careful init es) : Always (step slots) Sound init es :=
  h.always_of_invariant (step slots) (I := Inv slots) (fun _ e hI hG => hI.step e hG)
    (fun _ hI => hI.sound) (inv_init slots)

/-- `Careful` with nothing left open: the network is up, and no descriptor is on its way. -/
def State.Calm (s : State) : Event → Bool
  | .main =>
    match s.main with
    | .ifConnected => s.connected
    | .abort (.udp f) => decide ((s.thread (.udp f)).pc ≠ .socket)
    | .abort (.tcp f) =>
      decide ((s.thread (.tcp f)).pc ≠ .socket) && (s.tcp f).acceptor.client?.isNone
    | .abortHandler f i => ((s.tcp f).slot i).thread.all fun k => decide (k.pc ≠ .unset)
    | .closeSlot f i => ((s.tcp f).slot i).thread.isNone
    | _ => true
  | .l4 =>
    match s.l4 with
    | .reset _ => !s.main.waitsRunApp || !s.quitGiven
    | _ => true
  | _ => true

theorem careful_of_calm {e : Event} (h : s.Calm e = true) : Careful s e := by
  cases e with
  | main =>
    cases hat : s.main with
    | ifConnected =>
      simp only [State.Calm, hat] at h
      simpa only [Careful, hat] using .inl h
    | abort v =>
      cases v with
      | udp f => simpa [State.Calm, Careful, hat] using h
      | tcp f =>
        simp only [State.Calm, hat, Bool.and_eq_true, decide_eq_true_eq,
          Option.isNone_iff_eq_none] at h
        simp only [Careful, hat]
        exact ⟨h.1, fun fd hfd => by simp [h.2] at hfd⟩
    | abortHandler f i =>
      simp only [State.Calm, hat] at h
      simp only [Careful, hat]
      intro k hk
      simpa [hk] using h
    | closeSlot f i => simpa [State.Calm, Careful, hat] using h
    | _ => simp only [Careful, hat]
  | l4 =>
    cases hat : s.l4 with
    | reset e =>
      simp only [State.Calm, hat, Bool.or_eq_true, Bool.not_eq_true'] at h
      simp only [Careful, hat]
      intro hwaits
      exact h.resolve_left (by simp [hwaits])
    | _ => simp only [Careful, hat]
  | _ => trivial

def up (resent : Bool) : Event := .event { connected := true, resent := resent }

def down (resent : Bool) : Event := .event { connected := false, resent := resent }

/-- Every thread is started, a client is served, and then comes a quit command. -/
def servedRun : List Event :=
  [up false, .l4, .l4, .l4] ++ List.replicate 7 .main ++
  [.thread (.tcp .v6) 10 true, .thread (.tcp .v6) 0 true, .thread (.tcp .v4) 11 true,
    .thread (.tcp .v4) 0 true, .thread (.udp .v6) 12 true, .thread (.udp .v6) 0 true,
    .thread (.udp .v4) 13 true, .thread (.udp .v4) 0 true] ++
  [.acceptor .v6 20, .acceptor .v6 0, .acceptor .v6 0, .acceptor .v6 0, .acceptor .v6 0,
    .handler .v6 0 true] ++
  [.quit, .shell, .shell, .shell, up true, .l4, .l4, .l4, .l4, .l4] ++ List.replicate 17 .main

theorem servedRun_sound : (run (step 1) init servedRun).main = .returned ∧
    Always (step 1) Sound init servedRun :=
  ⟨by decide +kernel,
    shutdown_sound_of_careful 1 servedRun
      (Along.imp_of_invariant (step 1) (I := fun _ => True) (G := fun s e => s.Calm e = true)
        (fun _ _ _ hcalm => ⟨trivial, careful_of_calm hcalm⟩) trivial (by decide +kernel))⟩

/-- The network is lost, and then comes a quit command. -/
def lostRun : List Event :=
  [up false, .l4, .l4, .l4] ++ List.replicate 7 .main ++ [.thread (.udp .v4) 13 true] ++
  [down false, .l4, .l4, .l4, .quit, .shell, .shell, .shell, .main, .main]

/-- A quit command comes before `main` waits for `run_app`, and the network is down. -/
def unconnectedRun : List Event :=
  [.quit, .shell, .shell, .shell, down true, .l4, .l4, .l4, .l4, .l4, .main, .main]

/-- `main` returns with a thread that is running, or it waits in spite of a quit command. -/
theorem not_sound_shutdown : ¬ Always (step 1) Sound init lostRun ∧
    ¬ Always (step 1) Sound init unconnectedRun := by
  constructor
  · refine not_always_of_last _ rfl fun hsound => ?_
    have hclean := hsound.returned (by decide +kernel)
    rcases hclean.threads (.udp .v4) with hpc | hpc
    · exact absurd hpc (by decide +kernel)
    · exact absurd hpc (by decide +kernel)
  · refine not_always_of_last _ rfl fun hsound => ?_
    exact hsound.quits (by decide +kernel) (by decide +kernel)
      (.inl ⟨by decide +kernel, by decide +kernel⟩)

end Shutdown
end EchoServer
end ZephyrSamples
