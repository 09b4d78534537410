import ZephyrSamples.Lib.Runs

/-!
# The OpenAMP ping-pong

The loops of the two `app_task`s, that of the master core and that of the remote core, with the
callbacks of the mailbox and of the endpoint, in any interleaving.  A vring keeps what was sent
until the receiving core asks for it, the mailbox interrupt that announces it comes at some later
time, and interrupts that announce nothing may come at any time.  The one message there is moves
through four places, and the core that does not have it can only wait for it.
-/

namespace ZephyrSamples
namespace Openamp

open Runs

/-- The statement a core is at: the head of its loop, `send_message`, those of `receive_message`,
and what follows it.  In `notified` and `rxGive` are the messages `virtqueue_notification` still has
to hand to `endpoint_cb`, in `rxGive` behind the one `endpoint_cb` has just stored. -/
inductive Pc where
  | test
  | send
  | takeRx
  | takeData
  | notify
  | notified (rest : List Nat)
  | rxGive (rest : List Nat)
  | received
  | ended
  deriving DecidableEq, Repr

/-- A core: the local `message` and the statics, the vring it receives from, and how many runs of
`platform_ipm_callback` are outstanding.  `got` are the messages `receive_message` has returned.  No
value exceeds the bound of the master's loop, so an unsigned int is a natural number here. -/
structure Core where
  message : Nat
  receivedData : Nat
  dataSem : Bool
  dataRxSem : Bool
  pc : Pc
  vring : List Nat
  callbacks : Nat
  got : List Nat
  deriving DecidableEq, Repr

namespace Core

/-- The endpoints are set up.  The semaphore of the mailbox may have been given meanwhile. -/
def start (receivedData : Nat) (dataSem : Bool) : Core where
  message := 0
  receivedData := receivedData
  dataSem := dataSem
  dataRxSem := false
  pc := .test
  vring := []
  callbacks := 0
  got := []

def platformIpmCallback (c : Core) : Core := { c with dataSem := true }

/-- A statement of `receive_message` and of the callbacks that run in it. -/
def receiveMessage (c : Core) : Core :=
  match c.pc with
  | .takeRx =>
    if c.dataRxSem then { c with dataRxSem := false, pc := .received }
    else { c with pc := .takeData }
  | .takeData => if c.dataSem then { c with dataSem := false, pc := .notify } else c
  | .notify => { c with vring := [], pc := .notified c.vring }
  | .notified [] => { c with pc := .takeRx }
  | .notified (data :: rest) => { c with receivedData := data, pc := .rxGive rest }
  | .rxGive rest => { c with dataRxSem := true, pc := .notified rest }
  | _ => c

/-- `rpmsg_send` of the other core. -/
def rpmsgSend (c : Core) (message : Nat) : Core :=
  { c with vring := c.vring ++ [message], callbacks := c.callbacks + 1 }

/-- `message = receive_message()` and `message++`. -/
def setMessage (c : Core) (pc : Pc) : Core :=
  { c with message := c.receivedData + 1, got := c.got ++ [c.receivedData], pc := pc }

end Core

structure State where
  master : Core
  remote : Core
  deriving DecidableEq, Repr

namespace State

/-- A statement of the master's `app_task`, with `n` for 100. -/
def masterTask (n : Nat) (s : State) : State :=
  match s.master.pc with
  | .test =>
    { s with master := { s.master with pc := if s.master.message < n then .send else .ended } }
  | .send => {
      master := { s.master with pc := .takeRx }
      remote := s.remote.rpmsgSend s.master.message }
  | .received => { s with master := s.master.setMessage .test }
  | _ => { s with master := s.master.receiveMessage }

/-- A statement of the remote's `app_task`, with `n - 1` for 99. -/
def remoteTask (n : Nat) (s : State) : State :=
  match s.remote.pc with
  | .test =>
    { s with
      remote := { s.remote with pc := if s.remote.message < n - 1 then .takeRx else .ended } }
  | .received => { s with remote := s.remote.setMessage .send }
  | .send => {
      master := s.master.rpmsgSend s.remote.message
      remote := { s.remote with pc := .test } }
  | _ => { s with remote := s.remote.receiveMessage }

end State

inductive Role where
  | master
  | remote
  deriving DecidableEq, Repr

inductive Event where
  | task (role : Role)
  | callback (role : Role)
  | spurious (role : Role)
  deriving DecidableEq, Repr

/-- An outstanding run of `platform_ipm_callback`. -/
def Core.callback (c : Core) : Core :=
  if c.callbacks = 0 then c else { c.platformIpmCallback with callbacks := c.callbacks - 1 }

def step (n : Nat) (s : State) : Event → State
  | .task .master => s.masterTask n
  | .task .remote => s.remoteTask n
  | .callback .master => { s with master := s.master.callback }
  | .callback .remote => { s with remote := s.remote.callback }
  | .spurious .master => { s with master := s.master.platformIpmCallback }
  | .spurious .remote => { s with remote := s.remote.platformIpmCallback }

/-! ## Where the message is -/

def Pc.Polling : Pc → Prop
  | .takeRx | .takeData | .notify | .notified [] => True
  | _ => False

namespace Core

/-- Nothing is on its way to the core. -/
structure Empty (c : Core) : Prop where
  vring : c.vring = []
  dataRxSem : c.dataRxSem = false

/-- `m` alone is in the vring, and the core has been told or will be. -/
structure Ring (c : Core) (m : Nat) : Prop where
  vring : c.vring = [m]
  dataRxSem : c.dataRxSem = false
  told : c.dataSem = true ∨ 0 < c.callbacks

structure Waiting (c : Core) : Prop extends Empty c where
  polling : c.pc.Polling

/-- `m` is on its way through `receive_message`. -/
inductive Holds (c : Core) (m : Nat) : Prop where
  | ring (hring : c.Ring m) (hpc : c.pc.Polling)
  | notify (hvring : c.vring = [m]) (hrx : c.dataRxSem = false) (hpc : c.pc = .notify)
  | notified (hempty : c.Empty) (hpc : c.pc = .notified [m])
  | stored (hempty : c.Empty) (hdata : c.receivedData = m) (hpc : c.pc = .rxGive [])
  | given (hvring : c.vring = []) (hrx : c.dataRxSem = true) (hdata : c.receivedData = m)
    (hpc : c.pc = .notified [] ∨ c.pc = .takeRx)
  | received (hempty : c.Empty) (hdata : c.receivedData = m) (hpc : c.pc = .received)

variable {c : Core} {m : Nat}

theorem Waiting.receiveMessage (h : c.Waiting) : c.receiveMessage.Waiting := by
  obtain ⟨⟨hv, hrx⟩, hpc⟩ := h
  unfold Core.receiveMessage
  split
  case h_1 => simp only [hrx, Bool.false_eq_true, if_false]; exact ⟨⟨hv, rfl⟩, trivial⟩
  case h_2 => split <;> exact ⟨⟨hv, hrx⟩, by simp_all [Pc.Polling]⟩
  case h_3 => exact ⟨⟨rfl, hrx⟩, by simp [hv, Pc.Polling]⟩
  case h_4 => exact ⟨⟨hv, hrx⟩, trivial⟩
  case h_5 h => simp [h, Pc.Polling] at hpc
  case h_6 h => simp [h, Pc.Polling] at hpc
  case h_7 => exact ⟨⟨hv, hrx⟩, hpc⟩

theorem Waiting.rpmsgSend (h : c.Waiting) (m : Nat) : (c.rpmsgSend m).Holds m :=
  .ring ⟨by simp [Core.rpmsgSend, h.vring], h.dataRxSem, .inr (Nat.succ_pos _)⟩ h.polling

theorem Empty.rpmsgSend (h : c.Empty) (m : Nat) : (c.rpmsgSend m).Ring m :=
  ⟨by simp [Core.rpmsgSend, h.vring], h.dataRxSem, .inr (Nat.succ_pos _)⟩

theorem Holds.receiveMessage (h : c.Holds m) (hpc : c.pc ≠ .received) :
    c.receiveMessage.Holds m := by
  cases h with
  | ring hring hpoll =>
    obtain ⟨hv, hrx, htold⟩ := hring
    unfold Core.receiveMessage
    split
    case h_1 => simp only [hrx, Bool.false_eq_true, if_false]; exact .ring ⟨hv, rfl, htold⟩ trivial
    case h_2 =>
      split
      · exact .notify hv hrx rfl
      · exact .ring ⟨hv, hrx, htold⟩ hpoll
    case h_3 => exact .notified ⟨rfl, hrx⟩ (by simp [hv])
    case h_4 => exact .ring ⟨hv, hrx, htold⟩ trivial
    case h_5 h => simp [h, Pc.Polling] at hpoll
    case h_6 h => simp [h, Pc.Polling] at hpoll
    case h_7 => exact .ring ⟨hv, hrx, htold⟩ hpoll
  | notify hv hrx hat =>
    simp only [Core.receiveMessage, hat]
    exact .notified ⟨rfl, hrx⟩ (by simp [hv])
  | notified hempty hat =>
    simp only [Core.receiveMessage, hat]
    exact .stored ⟨hempty.1, hempty.2⟩ rfl rfl
  | stored hempty hdata hat =>
    simp only [Core.receiveMessage, hat]; exact .given hempty.vring rfl hdata (.inl rfl)
  | given hv hrx hdata hat =>
    rcases hat with hat | hat
    · simp only [Core.receiveMessage, hat]; exact .given hv hrx hdata (.inr rfl)
    · simp only [Core.receiveMessage, hat, hrx, if_true]; exact .received ⟨hv, rfl⟩ hdata rfl
  | received _ _ hat => exact absurd hat hpc

/-- A mailbox interrupt leaves the message where it is. -/
theorem Holds.interrupt (h : c.Holds m) (left : Nat) :
    { c with dataSem := true, callbacks := left }.Holds m := by
  cases h with
  | ring hring hpc => exact .ring ⟨hring.vring, hring.dataRxSem, .inl rfl⟩ hpc
  | notify hvring hrx hpc => exact .notify hvring hrx hpc
  | notified hempty hpc => exact .notified ⟨hempty.vring, hempty.dataRxSem⟩ hpc
  | stored hempty hdata hpc => exact .stored ⟨hempty.vring, hempty.dataRxSem⟩ hdata hpc
  | given hvring hrx hdata hpc => exact .given hvring hrx hdata hpc
  | received hempty hdata hpc => exact .received ⟨hempty.vring, hempty.dataRxSem⟩ hdata hpc

end Core

/-- The first `k` messages of the master. -/
def evens (k : Nat) : List Nat := (List.range k).map fun i => 2 * i

/-- The first `k` messages of the remote. -/
def odds (k : Nat) : List Nat := (List.range k).map fun i => 2 * i + 1

theorem evens_succ (k : Nat) : evens (k + 1) = evens k ++ [2 * k] := by
  simp [evens, List.range_succ]

theorem odds_succ (k : Nat) : odds (k + 1) = odds k ++ [2 * k + 1] := by
  simp [odds, List.range_succ]

/-- The message is at the master, in the remote's vring or behind it, at the remote, or in the
master's vring or behind it; `k` counts the rounds that are complete. -/
inductive Turn (n : Nat) (m r : Core) : Prop where
  | atMaster (k : Nat) (hm : m.Empty) (hr : r.Empty) (hmessage : m.message = 2 * k)
    (hmpc : m.pc = .test ∧ 2 * k ≤ n ∨ m.pc = .send ∧ 2 * k < n ∨ m.pc = .ended ∧ 2 * k = n)
    (hlast : r.message = 2 * k - 1)
    (hrpc : r.pc = .test ∨ r.pc.Polling ∧ 2 * k < n ∨ r.pc = .ended ∧ 2 * k = n)
    (hmgot : m.got = odds k) (hrgot : r.got = evens k)
  | toRemote (k : Nat) (hk : 2 * k < n) (hm : m.Waiting) (hmessage : m.message = 2 * k)
    (hr : r.Holds (2 * k) ∨ r.Ring (2 * k) ∧ r.pc = .test) (hlast : r.message = 2 * k - 1)
    (hmgot : m.got = odds k) (hrgot : r.got = evens k)
  | atRemote (k : Nat) (hk : 2 * k < n) (hm : m.Waiting) (hmessage : m.message = 2 * k)
    (hr : r.Empty) (hrpc : r.pc = .send) (hlast : r.message = 2 * k + 1)
    (hmgot : m.got = odds k) (hrgot : r.got = evens (k + 1))
  | toMaster (k : Nat) (hk : 2 * k < n) (hm : m.Holds (2 * k + 1)) (hmessage : m.message = 2 * k)
    (hr : r.Empty) (hlast : r.message = 2 * k + 1)
    (hrpc : r.pc = .test ∨ r.pc.Polling ∧ 2 * (k + 1) < n ∨ r.pc = .ended ∧ 2 * (k + 1) = n)
    (hmgot : m.got = odds k) (hrgot : r.got = evens (k + 1))

theorem Pc.Polling.ne {pc : Pc} (h : pc.Polling) : pc ≠ .test ∧ pc ≠ .send ∧ pc ≠ .received := by
  cases pc <;> simp_all [Polling]

namespace Core

variable {c : Core} {m : Nat}

@[simp] theorem receiveMessage_message : c.receiveMessage.message = c.message := by
  unfold receiveMessage
  split <;> first | rfl | split <;> rfl

@[simp] theorem receiveMessage_got : c.receiveMessage.got = c.got := by
  unfold receiveMessage
  split <;> first | rfl | split <;> rfl

theorem Holds.ne (h : c.Holds m) : c.pc ≠ .test ∧ c.pc ≠ .send := by
  cases h with
  | ring _ hpc => exact ⟨hpc.ne.1, hpc.ne.2.1⟩
  | notify _ _ hpc => simp [hpc]
  | notified _ hpc => simp [hpc]
  | stored _ _ hpc => simp [hpc]
  | given _ _ _ hpc => rcases hpc with hpc | hpc <;> simp [hpc]
  | received _ _ hpc => simp [hpc]

/-- Who is at the end of `receive_message` has the message and nothing else. -/
theorem Holds.of_received (h : c.Holds m) (hpc : c.pc = .received) :
    c.Empty ∧ c.receivedData = m := by
  cases h with
  | ring _ hpoll => exact absurd hpc hpoll.ne.2.2
  | notify _ _ hat => simp [hat] at hpc
  | notified _ hat => simp [hat] at hpc
  | stored _ _ hat => simp [hat] at hpc
  | given _ _ _ hat => rcases hat with hat | hat <;> simp [hat] at hpc
  | received hempty hdata _ => exact ⟨hempty, hdata⟩

end Core

namespace State

variable {n : Nat} {s : State}

theorem masterTask_eq (htest : s.master.pc ≠ .test) (hsend : s.master.pc ≠ .send)
    (hreceived : s.master.pc ≠ .received) :
    s.masterTask n = { s with master := s.master.receiveMessage } := by
  unfold masterTask
  split <;> first | contradiction | rfl

theorem remoteTask_eq (htest : s.remote.pc ≠ .test) (hsend : s.remote.pc ≠ .send)
    (hreceived : s.remote.pc ≠ .received) :
    s.remoteTask n = { s with remote := s.remote.receiveMessage } := by
  unfold remoteTask
  split <;> first | contradiction | rfl

theorem masterTask_polling (h : s.master.pc.Polling) :
    s.masterTask n = { s with master := s.master.receiveMessage } :=
  masterTask_eq h.ne.1 h.ne.2.1 h.ne.2.2

theorem remoteTask_polling (h : s.remote.pc.Polling) :
    s.remoteTask n = { s with remote := s.remote.receiveMessage } :=
  remoteTask_eq h.ne.1 h.ne.2.1 h.ne.2.2

end State

open State

variable {n : Nat} {s : State}

/-- A statement of the master sends the message, brings it nearer or takes it. -/
theorem Turn.masterTask (h : Turn n s.master s.remote) (hn : n % 2 = 0) :
    Turn n (s.masterTask n).master (s.masterTask n).remote := by
  cases h with
  | atMaster k hm hr hmessage hmpc hlast hrpc hmgot hrgot =>
    rcases hmpc with ⟨hat, hk⟩ | ⟨hat, hk⟩ | ⟨hat, hk⟩
    · simp only [State.masterTask, hat]
      refine .atMaster k ⟨hm.vring, hm.dataRxSem⟩ hr hmessage ?_ hlast hrpc hmgot hrgot
      by_cases hlt : s.master.message < n
      · exact .inr (.inl ⟨by simp only [hlt, if_true], by omega⟩)
      · exact .inr (.inr ⟨by simp only [hlt, if_false], by omega⟩)
    · simp only [State.masterTask, hat]
      refine .toRemote k hk ⟨⟨hm.vring, hm.dataRxSem⟩, trivial⟩ hmessage ?_ hlast hmgot hrgot
      rcases hrpc with hrpc | ⟨hrpc, _⟩ | ⟨_, hend⟩
      · exact .inr ⟨hmessage ▸ hr.rpmsgSend _, hrpc⟩
      · exact .inl (hmessage ▸ Core.Waiting.rpmsgSend ⟨hr, hrpc⟩ _)
      · omega
    · rw [masterTask_eq (by simp [hat]) (by simp [hat]) (by simp [hat])]
      simp only [Core.receiveMessage, hat]
      exact .atMaster k hm hr hmessage (.inr (.inr ⟨hat, hk⟩)) hlast hrpc hmgot hrgot
  | toRemote k hk hm hmessage hr hlast hmgot hrgot =>
    rw [masterTask_polling hm.polling]
    exact .toRemote k hk hm.receiveMessage (by simpa using hmessage) hr hlast
      (by simpa using hmgot) hrgot
  | atRemote k hk hm hmessage hr hrpc hlast hmgot hrgot =>
    rw [masterTask_polling hm.polling]
    exact .atRemote k hk hm.receiveMessage (by simpa using hmessage) hr hrpc hlast
      (by simpa using hmgot)
      hrgot
  | toMaster k hk hm hmessage hr hlast hrpc hmgot hrgot =>
    by_cases hat : s.master.pc = .received
    · obtain ⟨hempty, hdata⟩ := hm.of_received hat
      simp only [State.masterTask, hat]
      have hnext : s.master.receivedData + 1 = 2 * (k + 1) := by omega
      have hgot : s.master.got ++ [s.master.receivedData] = odds (k + 1) := by
        rw [odds_succ, hmgot, hdata]
      exact .atMaster (k + 1) ⟨hempty.vring, hempty.dataRxSem⟩ hr hnext
        (.inl ⟨rfl, by omega⟩) hlast hrpc hgot hrgot
    · rw [masterTask_eq hm.ne.1 hm.ne.2 hat]
      exact .toMaster k hk (hm.receiveMessage hat) (by simpa using hmessage) hr hlast hrpc
        (by simpa using hmgot) hrgot

/-- And so does a statement of the remote. -/
theorem Turn.remoteTask (h : Turn n s.master s.remote) (hn : n % 2 = 0) (hpos : 2 ≤ n) :
    Turn n (s.remoteTask n).master (s.remoteTask n).remote := by
  cases h with
  | atMaster k hm hr hmessage hmpc hlast hrpc hmgot hrgot =>
    rcases hrpc with hat | ⟨hat, hk⟩ | ⟨hat, hk⟩
    · simp only [State.remoteTask, hat]
      refine .atMaster k hm ⟨hr.vring, hr.dataRxSem⟩ hmessage hmpc hlast ?_ hmgot hrgot
      by_cases hlt : s.remote.message < n - 1
      · exact .inr (.inl ⟨by simp only [hlt, if_true, Pc.Polling], by omega⟩)
      · exact .inr (.inr ⟨by simp only [hlt, if_false], by omega⟩)
    · rw [remoteTask_polling hat]
      have hwaiting := Core.Waiting.receiveMessage ⟨hr, hat⟩
      exact .atMaster k hm hwaiting.toEmpty hmessage hmpc (by simpa using hlast)
        (.inr (.inl ⟨hwaiting.polling, hk⟩)) hmgot (by simpa using hrgot)
    · rw [remoteTask_eq (by simp [hat]) (by simp [hat]) (by simp [hat])]
      simp only [Core.receiveMessage, hat]
      exact .atMaster k hm hr hmessage hmpc hlast (.inr (.inr ⟨hat, hk⟩)) hmgot hrgot
  | toRemote k hk hm hmessage hr hlast hmgot hrgot =>
    rcases hr with hr | ⟨hr, hat⟩
    · by_cases hat : s.remote.pc = .received
      · obtain ⟨hempty, hdata⟩ := hr.of_received hat
        simp only [State.remoteTask, hat]
        have hgot : s.remote.got ++ [s.remote.receivedData] = evens (k + 1) := by
          rw [evens_succ, hrgot, hdata]
        have hnext : s.remote.receivedData + 1 = 2 * k + 1 := by omega
        exact .atRemote k hk hm hmessage ⟨hempty.vring, hempty.dataRxSem⟩ rfl hnext hmgot hgot
      · rw [remoteTask_eq hr.ne.1 hr.ne.2 hat]
        exact .toRemote k hk hm hmessage (.inl (hr.receiveMessage hat)) (by simpa using hlast) hmgot
          (by simpa using hrgot)
    · have hlt : s.remote.message < n - 1 := by omega
      simp only [State.remoteTask, hat, hlt, if_true]
      exact .toRemote k hk hm hmessage
        (.inl (.ring ⟨hr.vring, hr.dataRxSem, hr.told⟩ trivial)) hlast
        hmgot hrgot
  | atRemote k hk hm hmessage hr hrpc hlast hmgot hrgot =>
    simp only [State.remoteTask, hrpc]
    exact .toMaster k hk (hlast ▸ hm.rpmsgSend _) hmessage ⟨hr.vring, hr.dataRxSem⟩ hlast (.inl rfl)
      hmgot hrgot
  | toMaster k hk hm hmessage hr hlast hrpc hmgot hrgot =>
    rcases hrpc with hat | ⟨hat, hmore⟩ | ⟨hat, hend⟩
    · simp only [State.remoteTask, hat]
      refine .toMaster k hk hm hmessage ⟨hr.vring, hr.dataRxSem⟩ hlast ?_ hmgot hrgot
      by_cases hlt : s.remote.message < n - 1
      · exact .inr (.inl ⟨by simp only [hlt, if_true, Pc.Polling], by omega⟩)
      · exact .inr (.inr ⟨by simp only [hlt, if_false], by omega⟩)
    · rw [remoteTask_polling hat]
      have hwaiting := Core.Waiting.receiveMessage ⟨hr, hat⟩
      exact .toMaster k hk hm hmessage hwaiting.toEmpty (by simpa using hlast)
        (.inr (.inl ⟨hwaiting.polling, hmore⟩)) hmgot (by simpa using hrgot)
    · rw [remoteTask_eq (by simp [hat]) (by simp [hat]) (by simp [hat])]
      simp only [Core.receiveMessage, hat]
      exact .toMaster k hk hm hmessage hr hlast (.inr (.inr ⟨hat, hend⟩)) hmgot hrgot

theorem Turn.masterInterrupt {m r : Core} (h : Turn n m r) (left : Nat) :
    Turn n { m with dataSem := true, callbacks := left } r := by
  cases h with
  | atMaster k hm hr hmessage hmpc hlast hrpc hmgot hrgot =>
    exact .atMaster k ⟨hm.vring, hm.dataRxSem⟩ hr hmessage hmpc hlast hrpc hmgot hrgot
  | toRemote k hk hm hmessage hr hlast hmgot hrgot =>
    exact .toRemote k hk ⟨⟨hm.vring, hm.dataRxSem⟩, hm.polling⟩ hmessage hr hlast hmgot hrgot
  | atRemote k hk hm hmessage hr hrpc hlast hmgot hrgot =>
    exact .atRemote k hk ⟨⟨hm.vring, hm.dataRxSem⟩, hm.polling⟩ hmessage hr hrpc hlast hmgot hrgot
  | toMaster k hk hm hmessage hr hlast hrpc hmgot hrgot =>
    exact .toMaster k hk (hm.interrupt left) hmessage hr hlast hrpc hmgot hrgot

theorem Turn.remoteInterrupt {m r : Core} (h : Turn n m r) (left : Nat) :
    Turn n m { r with dataSem := true, callbacks := left } := by
  cases h with
  | atMaster k hm hr hmessage hmpc hlast hrpc hmgot hrgot =>
    exact .atMaster k hm ⟨hr.vring, hr.dataRxSem⟩ hmessage hmpc hlast hrpc hmgot hrgot
  | toRemote k hk hm hmessage hr hlast hmgot hrgot =>
    refine .toRemote k hk hm hmessage ?_ hlast hmgot hrgot
    rcases hr with hr | ⟨hr, hat⟩
    · exact .inl (hr.interrupt left)
    · exact .inr ⟨⟨hr.vring, hr.dataRxSem, .inl rfl⟩, hat⟩
  | atRemote k hk hm hmessage hr hrpc hlast hmgot hrgot =>
    exact .atRemote k hk hm hmessage ⟨hr.vring, hr.dataRxSem⟩ hrpc hlast hmgot hrgot
  | toMaster k hk hm hmessage hr hlast hrpc hmgot hrgot =>
    exact .toMaster k hk hm hmessage ⟨hr.vring, hr.dataRxSem⟩ hlast hrpc hmgot hrgot

theorem turn_step (hn : n % 2 = 0) (hpos : 2 ≤ n) (s : State) (e : Event)
    (h : Turn n s.master s.remote) : Turn n (step n s e).master (step n s e).remote := by
  cases e with
  | task role =>
    cases role with
    | master => exact h.masterTask hn
    | remote => exact h.remoteTask hn hpos
  | callback role =>
    cases role with
    | master =>
      simp only [step, Core.callback]
      split
      · exact h
      · exact h.masterInterrupt _
    | remote =>
      simp only [step, Core.callback]
      split
      · exact h
      · exact h.remoteInterrupt _
  | spurious role =>
    cases role with
    | master => exact h.masterInterrupt _
    | remote => exact h.remoteInterrupt _

/-! ## What the two loops receive -/

/-- The messages `virtqueue_notification` and `endpoint_cb` are at. -/
def Pc.underway : Pc → Nat
  | .notified rest => rest.length
  | .rxGive rest => rest.length + 1
  | _ => 0

/-- The messages sent to a core that `receive_message` has not taken yet. -/
def Core.inFlight (c : Core) : Nat := c.vring.length + c.pc.underway + c.dataRxSem.toNat

/-- The core waits for `data_sem` at 0, and no callback is outstanding. -/
def Core.Blocked (c : Core) : Prop := c.pc = .takeData ∧ c.dataSem = false ∧ c.callbacks = 0

def State.Ended (s : State) : Prop := s.master.pc = .ended ∧ s.remote.pc = .ended

def State.Stuck (s : State) : Prop :=
  ¬ s.Ended ∧ (s.master.pc = .ended ∨ s.master.Blocked) ∧ (s.remote.pc = .ended ∨ s.remote.Blocked)

/-- Each core receives the messages of the other one in order, all of them when the loops have
ended. -/
structure Sound (n : Nat) (s : State) : Prop where
  remoteGot : s.remote.got <+: evens (n / 2)
  masterGot : s.master.got <+: odds (n / 2)
  all : s.Ended → s.remote.got = evens (n / 2) ∧ s.master.got = odds (n / 2)
  inFlight : s.master.inFlight + s.remote.inFlight ≤ 1
  alive : ¬ s.Stuck
  bounded : s.master.message ≤ n ∧ s.remote.message ≤ n

theorem evens_prefix {k j : Nat} (h : k ≤ j) : evens k <+: evens j := by
  obtain ⟨d, rfl⟩ := Nat.exists_eq_add_of_le h
  simp only [evens, List.range_add, List.map_append]
  exact List.prefix_append _ _

theorem odds_prefix {k j : Nat} (h : k ≤ j) : odds k <+: odds j := by
  obtain ⟨d, rfl⟩ := Nat.exists_eq_add_of_le h
  simp only [odds, List.range_add, List.map_append]
  exact List.prefix_append _ _

namespace Core

variable {c : Core} {m : Nat}

theorem Empty.inFlight (h : c.Empty) (hpc : c.pc.underway = 0) : c.inFlight = 0 := by
  simp [Core.inFlight, h.vring, h.dataRxSem, hpc]

theorem Ring.inFlight (h : c.Ring m) (hpc : c.pc.underway = 0) : c.inFlight = 1 := by
  simp [Core.inFlight, h.vring, h.dataRxSem, hpc]

theorem underway_polling (h : c.pc.Polling) : c.pc.underway = 0 := by
  revert h
  cases c.pc with
  | notified rest => cases rest <;> simp [Pc.Polling, Pc.underway]
  | _ => simp [Pc.Polling, Pc.underway]

theorem Holds.inFlight (h : c.Holds m) : c.inFlight ≤ 1 := by
  cases h with
  | ring hring hpc => exact Nat.le_of_eq (hring.inFlight (underway_polling hpc))
  | notify hvring hrx hpc => simp [Core.inFlight, hvring, hrx, hpc, Pc.underway]
  | notified hempty hpc => simp [Core.inFlight, hempty.vring, hempty.dataRxSem, hpc, Pc.underway]
  | stored hempty hdata hpc =>
    simp [Core.inFlight, hempty.vring, hempty.dataRxSem, hpc, Pc.underway]
  | given hvring hrx hdata hpc =>
    rcases hpc with hpc | hpc <;> simp [Core.inFlight, hvring, hrx, hpc, Pc.underway]
  | received hempty hdata hpc => simp [hempty.inFlight, hpc, Pc.underway]

/-- A core that a message is on its way to goes on. -/
theorem Holds.alive (h : c.Holds m) : c.pc ≠ .ended ∧ ¬ c.Blocked := by
  cases h with
  | ring hring hpc =>
    refine ⟨fun hend => by simp [hend, Pc.Polling] at hpc, fun ⟨_, hsem, hcallbacks⟩ => ?_⟩
    rcases hring.told with htold | htold
    · simp [hsem] at htold
    · omega
  | notify _ _ hpc => simp [hpc, Blocked]
  | notified _ hpc => simp [hpc, Blocked]
  | stored _ _ hpc => simp [hpc, Blocked]
  | given _ _ _ hpc => rcases hpc with hpc | hpc <;> simp [hpc, Blocked]
  | received _ _ hpc => simp [hpc, Blocked]

end Core

theorem Pc.Polling.not_ended {pc : Pc} (h : pc.Polling) : pc ≠ .ended := by
  rintro rfl
  exact h

theorem Turn.inFlight {m r : Core} (h : Turn n m r) : m.inFlight + r.inFlight ≤ 1 := by
  cases h with
  | atMaster k hm hr hmessage hmpc hlast hrpc hmgot hrgot =>
    have hmzero : m.inFlight = 0 := by
      refine hm.inFlight ?_
      rcases hmpc with ⟨hat, _⟩ | ⟨hat, _⟩ | ⟨hat, _⟩ <;> simp [hat, Pc.underway]
    have hrzero : r.inFlight = 0 := by
      refine hr.inFlight ?_
      rcases hrpc with hat | ⟨hat, _⟩ | ⟨hat, _⟩
      · simp [hat, Pc.underway]
      · exact Core.underway_polling hat
      · simp [hat, Pc.underway]
    omega
  | toRemote k hk hm hmessage hr hlast hmgot hrgot =>
    have hmzero := hm.toEmpty.inFlight (Core.underway_polling hm.polling)
    have hrone : r.inFlight ≤ 1 := by
      rcases hr with hr | ⟨hr, hat⟩
      · exact hr.inFlight
      · exact Nat.le_of_eq (hr.inFlight (by simp [hat, Pc.underway]))
    omega
  | atRemote k hk hm hmessage hr hrpc hlast hmgot hrgot =>
    have hmzero := hm.toEmpty.inFlight (Core.underway_polling hm.polling)
    have hrzero := hr.inFlight (by simp [hrpc, Pc.underway])
    omega
  | toMaster k hk hm hmessage hr hlast hrpc hmgot hrgot =>
    have hmone := hm.inFlight
    have hrzero : r.inFlight = 0 := by
      refine hr.inFlight ?_
      rcases hrpc with hat | ⟨hat, _⟩ | ⟨hat, _⟩
      · simp [hat, Pc.underway]
      · exact Core.underway_polling hat
      · simp [hat, Pc.underway]
    omega

/-- The core that has the message or is about to get it is neither behind its loop nor blocked,
until the master has the message back after the last round. -/
theorem Turn.not_stuck (h : Turn n s.master s.remote) : ¬ s.Stuck := by
  rintro ⟨hnot, hmaster, hremote⟩
  cases h with
  | atMaster k hm hr hmessage hmpc hlast hrpc hmgot hrgot =>
    rcases hmpc with ⟨hat, _⟩ | ⟨hat, _⟩ | ⟨hat, hk⟩
    · simp [hat, Core.Blocked] at hmaster
    · simp [hat, Core.Blocked] at hmaster
    · rcases hrpc with hrat | ⟨_, hlt⟩ | ⟨hrat, _⟩
      · simp [hrat, Core.Blocked] at hremote
      · omega
      · exact hnot ⟨hat, hrat⟩
  | toRemote k hk hm hmessage hr hlast hmgot hrgot =>
    rcases hr with hr | ⟨_, hat⟩
    · exact hremote.elim hr.alive.1 hr.alive.2
    · simp [hat, Core.Blocked] at hremote
  | atRemote k hk hm hmessage hr hrpc hlast hmgot hrgot =>
    simp [hrpc, Core.Blocked] at hremote
  | toMaster k hk hm hmessage hr hlast hrpc hmgot hrgot =>
    exact hmaster.elim hm.alive.1 hm.alive.2

theorem Turn.all (h : Turn n s.master s.remote) (hend : s.Ended) :
    s.remote.got = evens (n / 2) ∧ s.master.got = odds (n / 2) := by
  obtain ⟨hmaster, hremote⟩ := hend
  cases h with
  | atMaster k hm hr hmessage hmpc hlast hrpc hmgot hrgot =>
    have hk : k = n / 2 := by
      rcases hmpc with ⟨hat, _⟩ | ⟨hat, _⟩ | ⟨_, hk⟩
      · simp [hat] at hmaster
      · simp [hat] at hmaster
      · omega
    exact ⟨hk ▸ hrgot, hk ▸ hmgot⟩
  | toRemote k hk hm hmessage hr hlast hmgot hrgot => exact absurd hmaster hm.polling.not_ended
  | atRemote k hk hm hmessage hr hrpc hlast hmgot hrgot => exact absurd hmaster hm.polling.not_ended
  | toMaster k hk hm hmessage hr hlast hrpc hmgot hrgot => exact absurd hmaster hm.alive.1

theorem Turn.sound (hn : n % 2 = 0) (s : State) (h : Turn n s.master s.remote) : Sound n s where
  remoteGot := by
    cases h with
    | atMaster k hm hr hmessage hmpc hlast hrpc hmgot hrgot => exact hrgot ▸ evens_prefix (by omega)
    | toRemote k hk hm hmessage hr hlast hmgot hrgot => exact hrgot ▸ evens_prefix (by omega)
    | atRemote k hk hm hmessage hr hrpc hlast hmgot hrgot => exact hrgot ▸ evens_prefix (by omega)
    | toMaster k hk hm hmessage hr hlast hrpc hmgot hrgot => exact hrgot ▸ evens_prefix (by omega)
  masterGot := by
    cases h with
    | atMaster k hm hr hmessage hmpc hlast hrpc hmgot hrgot => exact hmgot ▸ odds_prefix (by omega)
    | toRemote k hk hm hmessage hr hlast hmgot hrgot => exact hmgot ▸ odds_prefix (by omega)
    | atRemote k hk hm hmessage hr hrpc hlast hmgot hrgot => exact hmgot ▸ odds_prefix (by omega)
    | toMaster k hk hm hmessage hr hlast hrpc hmgot hrgot => exact hmgot ▸ odds_prefix (by omega)
  all := h.all
  inFlight := h.inFlight
  alive := h.not_stuck
  bounded := by
    cases h with
    | atMaster k hm hr hmessage hmpc hlast hrpc hmgot hrgot => omega
    | toRemote k hk hm hmessage hr hlast hmgot hrgot => omega
    | atRemote k hk hm hmessage hr hrpc hlast hmgot hrgot => omega
    | toMaster k hk hm hmessage hr hlast hrpc hmgot hrgot => omega

/-- The endpoints are set up on both cores, with whatever has been received and given before. -/
def start (master remote : Nat) (masterSem remoteSem : Bool) : State where
  master := .start master masterSem
  remote := .start remote remoteSem

theorem turn_start (master remote : Nat) (masterSem remoteSem : Bool) :
    Turn n (start master remote masterSem remoteSem).master
      (start master remote masterSem remoteSem).remote :=
  .atMaster 0 ⟨rfl, rfl⟩ ⟨rfl, rfl⟩ rfl (.inl ⟨rfl, Nat.zero_le _⟩) rfl (.inl rfl) rfl rfl

/-- In whatever order the cores and the mailbox interrupts take their steps, the remote receives 0,
2 and so on up to `n - 2` and the master 1, 3 and so on up to `n - 1`, one message being in flight
at a time, and the cores do not wait for each other. -/
theorem pingPong_sound (hn : n % 2 = 0) (hpos : 2 ≤ n) (master remote : Nat)
    (masterSem remoteSem : Bool) (es : List Event) :
    Always (step n) (Sound n) (start master remote masterSem remoteSem) es :=
  always_of_invariant (step n) (turn_step hn hpos) (Turn.sound hn)
    (turn_start master remote masterSem remoteSem) es

/-- Both cores go on in turn, with interrupts at the remote core that announce nothing. -/
def inTurn (k : Nat) : List Event :=
  (List.replicate k [.task .master, .callback .remote, .task .remote, .callback .master,
    .spurious .remote]).flatten

/-- The demo as it stands, until three messages have been received and the next one is. -/
theorem pingPong_sound_hundred :
    Always (step 100) (Sound 100) (start 0 0 true false) (inTurn 30) ∧
      (run (step 100) (start 0 0 true false) (inTurn 30)).remote.got = [0, 2] ∧
      (run (step 100) (start 0 0 true false) (inTurn 30)).master.got = [1] :=
  ⟨pingPong_sound (by decide) (by decide) 0 0 true false _, by decide +kernel, by decide +kernel⟩

end Openamp
end ZephyrSamples
