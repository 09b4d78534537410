import ZephyrSamples.Lib.Runs

/-!
# The connection to the broker

`main.c` of the Azure sample statement by statement: main's loop, the handler of the L4 events, the
work queue with the two delayed works, and the callbacks of the MQTT library inside the calls of
main and of the handler.  Throughout a run a lost connection has something pending that picks it up
exactly when no attempt fails for good, the broker does not close the connection while the network
is up and nothing is on its way to main, and the network does not come back to a main that waits for
a work that was cancelled. -/

namespace ZephyrSamples
namespace MqttAzure

open Runs

/-- The statement main comes to next; `retries` is the counter of the loop it is in. -/
inductive MainPc where
  | takeMqttStart
  | getaddrinfo (retries : Nat)
  | mqttConnect (retries : Nat)
  | prepareFds (retries : Nat)
  | waitConnack (retries : Nat)
  | abortAndReturn
  | connectInput (retries : Nat)
  | ifConnected (retries : Nat)
  | subscribe
  | abortAndRetry (retries : Nat)
  | waitRetry (retries : Nat)
  | whileConnected
  | publish
  | waitPuback
  | publishInput
  | submitPubMessage
  | takePublishMsg
  | returned
  deriving DecidableEq, Repr

/-- `l4_event_handler` with `abort_mqtt_connection`, after NET_EVENT_L4_DISCONNECTED. -/
inductive L4Pc where
  | idle
  | givePublishMsg
  | ifConnected
  | clearConnected
  | mqttAbort
  | cancelPubMessage
  | cancelCheckNetworkConn
  deriving DecidableEq, Repr

/-- `check_network_connection` on the work queue; `publish_timeout` is one statement. -/
inductive WorkPc where
  | idle
  | ifConnected
  | ifBound
  | giveMqttStart
  | submitCheckNetworkConn
  deriving DecidableEq, Repr

/-- The statics, the two semaphores, whether the works are scheduled, and where everyone is;
`mainClears` and `l4Clears` say that the DISCONNECT callback of a call comes to `clear_fds`.  `up`
is the last L4 event, and `connectedOnce` says that there has been a connection. -/
structure App where
  mqttConnected : Bool
  nfds : Nat
  mqttStart : Bool
  publishMsg : Bool
  pubMessage : Bool
  checkNetworkConn : Bool
  main : MainPc
  mainClears : Bool
  l4 : L4Pc
  l4Clears : Bool
  work : WorkPc
  up : Bool
  connectedOnce : Bool
  deriving DecidableEq, Repr

/-- `main` has registered the callback and calls `connect_to_cloud_and_publish`. -/
def start : App where
  mqttConnected := false
  nfds := 0
  mqttStart := false
  publishMsg := false
  pubMessage := false
  checkNetworkConn := false
  main := .takeMqttStart
  mainClears := false
  l4 := .idle
  l4Clears := false
  work := .idle
  up := false
  connectedOnce := false

/-- A statement of one of the three contexts, with the result of the call it makes; an L4 event, the
expiry of a work, or a callback of the library. -/
inductive Event where
  | main (rc : Int)
  | l4Event (connected : Bool)
  | l4
  | pubMessage
  | checkNetworkConn
  | work (iface : Option Bool)
  | connack (result : Int)
  | disconnect (inMain : Bool)
  deriving DecidableEq, Repr

def einval : Int := 22

/-- `wait`, where `poll` gives `rc`. -/
def wait (s : App) (rc : Int) : Int := if s.nfds = 0 then -einval else rc

/-- `while (retries--)` of `get_mqtt_broker_addrinfo` -/
def nextGetaddrinfo : Nat → MainPc
  | 0 => .returned
  | retries + 1 => .getaddrinfo retries

/-- `while (retries--)` of `try_to_connect` -/
def nextTry : Nat → MainPc
  | 0 => .returned
  | retries + 1 => .mqttConnect retries

def clearFds (s : App) : App := { s with nfds := 0 }

def mainStatement (s : App) (rc : Int) : App :=
  match s.main with
  | .takeMqttStart => { s with mqttStart := false, main := nextGetaddrinfo 3 }
  | .getaddrinfo retries =>
    if rc = 0 then { s with main := nextTry 3 } else { s with main := nextGetaddrinfo retries }
  | .mqttConnect retries =>
    if rc ≠ 0 then { s with main := nextTry retries } else { s with main := .prepareFds retries }
  | .prepareFds retries => { s with nfds := 1, main := .waitConnack retries }
  | .waitConnack retries =>
    if wait s rc < 0 then { s with main := .abortAndReturn }
    else { s with main := .connectInput retries }
  | .abortAndReturn => { s with main := .returned }
  | .connectInput retries => { s with main := .ifConnected retries }
  | .ifConnected retries =>
    if s.mqttConnected then { s with main := .subscribe }
    else { s with main := .abortAndRetry retries }
  | .subscribe => { s with main := .whileConnected }
  | .abortAndRetry retries => { s with main := .waitRetry retries }
  | .waitRetry retries => { s with main := nextTry retries }
  | .whileConnected =>
    if s.mqttConnected then { s with main := .publish } else { s with main := .takeMqttStart }
  | .publish =>
    if rc ≠ 0 then { s with main := .submitPubMessage } else { s with main := .waitPuback }
  | .waitPuback =>
    if wait s rc ≤ 0 then { s with main := .submitPubMessage }
    else { s with main := .publishInput }
  | .publishInput => { s with main := .submitPubMessage }
  | .submitPubMessage => { s with pubMessage := true, main := .takePublishMsg }
  | .takePublishMsg => { s with publishMsg := false, main := .whileConnected }
  | .returned => s

/-- A callback that has begun goes on before the call returns. -/
def mainStep (s : App) (rc : Int) : App :=
  if s.mainClears then clearFds { s with mainClears := false } else mainStatement s rc

def l4EventHandler (s : App) (connected : Bool) : App :=
  -- Wait for DHCP to be back in BOUND state
  if connected then { s with up := true, checkNetworkConn := true }
  else { s with up := false, l4 := .givePublishMsg }

def l4Statement (s : App) : App :=
  match s.l4 with
  | .idle => s
  | .givePublishMsg => { s with publishMsg := true, l4 := .ifConnected }
  | .ifConnected =>
    if s.mqttConnected then { s with l4 := .clearConnected }
    else { s with l4 := .cancelCheckNetworkConn }
  | .clearConnected => { s with mqttConnected := false, l4 := .mqttAbort }
  | .mqttAbort => { s with l4 := .cancelPubMessage }
  | .cancelPubMessage => { s with pubMessage := false, l4 := .cancelCheckNetworkConn }
  | .cancelCheckNetworkConn => { s with checkNetworkConn := false, l4 := .idle }

def l4Step (s : App) : App :=
  if s.l4Clears then clearFds { s with l4Clears := false } else l4Statement s

/-- `iface` is the default interface, if there is one, and whether its DHCP state is BOUND. -/
def checkNetworkConnection (s : App) (iface : Option Bool) : App :=
  match s.work with
  | .idle => s
  | .ifConnected =>
    if s.mqttConnected then { s with work := .idle } else { s with work := .ifBound }
  | .ifBound =>
    if iface = some true then { s with work := .giveMqttStart }
    else { s with work := .submitCheckNetworkConn }
  | .giveMqttStart => { s with mqttStart := true, work := .idle }
  | .submitCheckNetworkConn => { s with checkNetworkConn := true, work := .idle }

/-- `mqtt_event_handler`: MQTT_EVT_CONNACK -/
def connack (s : App) (result : Int) : App :=
  if result ≠ 0 then s else { s with mqttConnected := true, connectedOnce := true }

/-- `mqtt_event_handler`: MQTT_EVT_DISCONNECT -/
def disconnect (s : App) (inMain : Bool) : App :=
  if inMain then { s with mqttConnected := false, mainClears := true }
  else { s with mqttConnected := false, l4Clears := true }

def step (s : App) : Event → App
  | .main rc => mainStep s rc
  | .l4Event connected => l4EventHandler s connected
  | .l4 => l4Step s
  | .pubMessage => { s with pubMessage := false, publishMsg := true }
  | .checkNetworkConn => { s with checkNetworkConn := false, work := .ifConnected }
  | .work iface => checkNetworkConnection s iface
  | .connack result => connack s result
  | .disconnect inMain => disconnect s inMain

/-- The calls of the library that main makes. -/
def MainPc.calls : MainPc → Bool
  | .mqttConnect _ => true
  | .abortAndReturn => true
  | .connectInput _ => true
  | .subscribe => true
  | .abortAndRetry _ => true
  | .publish => true
  | .publishInput => true
  | _ => false

/-- The calls that read what the broker has sent. -/
def MainPc.inputs : MainPc → Bool
  | .connectInput _ => true
  | .publishInput => true
  | _ => false

/-- `k_sem_take` waits, the events of the network come one after the other, the works run one after
the other, and the library calls back only while it is called. -/
def Possible (s : App) : Event → Prop
  | .main _ =>
    (s.main = .takeMqttStart → s.mqttStart = true) ∧
      (s.main = .takePublishMsg → s.publishMsg = true) ∧ s.main ≠ .returned
  | .l4Event _ => s.l4 = .idle
  | .l4 => s.l4 ≠ .idle
  | .pubMessage => s.pubMessage = true ∧ s.work = .idle
  | .checkNetworkConn => s.checkNetworkConn = true ∧ s.work = .idle
  | .work _ => s.work ≠ .idle
  | .connack _ => s.main.inputs = true ∧ s.mainClears = false
  | .disconnect inMain =>
    if inMain then s.main.calls = true ∧ s.mainClears = false
    else s.l4 = .mqttAbort ∧ s.l4Clears = false

instance (s : App) : ∀ e, Decidable (Possible s e)
  | .main _ => inferInstanceAs (Decidable ((s.main = .takeMqttStart → s.mqttStart = true) ∧
      (s.main = .takePublishMsg → s.publishMsg = true) ∧ s.main ≠ .returned))
  | .l4Event _ => inferInstanceAs (Decidable (s.l4 = .idle))
  | .l4 => inferInstanceAs (Decidable (s.l4 ≠ .idle))
  | .pubMessage => inferInstanceAs (Decidable (s.pubMessage = true ∧ s.work = .idle))
  | .checkNetworkConn => inferInstanceAs (Decidable (s.checkNetworkConn = true ∧ s.work = .idle))
  | .work _ => inferInstanceAs (Decidable (s.work ≠ .idle))
  | .connack _ => inferInstanceAs (Decidable (s.main.inputs = true ∧ s.mainClears = false))
  | .disconnect inMain => inferInstanceAs (Decidable (if inMain then
      s.main.calls = true ∧ s.mainClears = false else s.l4 = .mqttAbort ∧ s.l4Clears = false))

/-! ## Picking a lost connection up -/

/-- The connection is lost and the network is up. -/
def Due (s : App) : Prop :=
  s.connectedOnce = true ∧ s.up = true ∧ s.mqttConnected = false

instance (s : App) : Decidable (Due s) :=
  inferInstanceAs (Decidable (_ ∧ _ ∧ _))

/-- `mqtt_start` is given, or the work that gives it is scheduled or being executed. -/
def Restarts (s : App) : Prop :=
  s.mqttStart = true ∨ s.checkNetworkConn = true ∨ s.work ≠ .idle

instance (s : App) : Decidable (Restarts s) :=
  inferInstanceAs (Decidable (_ ∨ _ ∨ _))

/-- Something leads to a new attempt.  A main that runs waits for the semaphore it comes to next: in
the loop of `publish_message` that is `publish_msg`, with the work that main is about to submit, and
at the loop's test it is `mqtt_start`. -/
def Pending (s : App) : Prop :=
  match s.main with
  | .takeMqttStart => Restarts s
  | .whileConnected => Restarts s
  | .publish => s.publishMsg = true ∨ Restarts s
  | .waitPuback => s.publishMsg = true ∨ Restarts s
  | .publishInput => s.publishMsg = true ∨ Restarts s
  | .submitPubMessage => s.publishMsg = true ∨ Restarts s
  | .takePublishMsg => s.publishMsg = true ∨ (s.pubMessage = true ∧ Restarts s)
  | .returned => False
  -- inside `get_mqtt_broker_addrinfo` or `try_to_connect`
  | _ => True

def PickedUp (s : App) : Prop := Due s → Pending s

/-- A main that waits for its next publication is woken. -/
def Woken (s : App) : Prop :=
  s.main = .takePublishMsg → s.publishMsg = true ∨ s.pubMessage = true

instance (s : App) : Decidable (Woken s) :=
  inferInstanceAs (Decidable (_ → _ ∨ _))

/-- A step does not lose the connection for good.  While it is lost, no attempt fails for good, and
main leaves `try_to_connect` or the wait for `publish_msg` only with a new attempt on its way; the
broker closes it only with one on its way or main about to be woken; and the network comes back to a
main that has not returned and does not wait for a work that is not scheduled. -/
def Steady (s : App) : Event → Prop
  | .main rc =>
    s.mainClears = false → Due s →
      (s.main = .getaddrinfo 0 ∨ s.main = .mqttConnect 0 → rc = 0) ∧
      s.main ≠ .abortAndReturn ∧ s.main ≠ .waitRetry 0 ∧
      (s.main = .subscribe ∨ s.main = .takePublishMsg → Restarts s)
  | .disconnect inMain =>
    inMain = true → s.connectedOnce = true → s.up = true →
      s.main = .publish ∨ s.main = .publishInput → s.publishMsg = true ∨ Restarts s
  | .l4Event connected =>
    connected = true → s.connectedOnce = true → s.mqttConnected = false →
      s.main ≠ .returned ∧ Woken s
  | _ => True

instance (s : App) : ∀ e, Decidable (Steady s e)
  | .main rc => inferInstanceAs (Decidable (s.mainClears = false → Due s →
      (s.main = .getaddrinfo 0 ∨ s.main = .mqttConnect 0 → rc = 0) ∧
      s.main ≠ .abortAndReturn ∧ s.main ≠ .waitRetry 0 ∧
      (s.main = .subscribe ∨ s.main = .takePublishMsg → Restarts s)))
  | .disconnect inMain => inferInstanceAs (Decidable (inMain = true → s.connectedOnce = true →
      s.up = true → s.main = .publish ∨ s.main = .publishInput →
      s.publishMsg = true ∨ Restarts s))
  | .l4Event connected => inferInstanceAs (Decidable (connected = true → s.connectedOnce = true →
      s.mqttConnected = false → s.main ≠ .returned ∧ Woken s))
  | .l4 => inferInstanceAs (Decidable True)
  | .pubMessage => inferInstanceAs (Decidable True)
  | .checkNetworkConn => inferInstanceAs (Decidable True)
  | .work _ => inferInstanceAs (Decidable True)
  | .connack _ => inferInstanceAs (Decidable True)

/-- The handler is under way only after the network has gone. -/
def Inv (s : App) : Prop := s.l4 ≠ .idle → s.up = false

variable {s : App}

theorem mainStep_up (rc : Int) : (mainStep s rc).up = s.up ∧ (mainStep s rc).l4 = s.l4 := by
  unfold mainStep
  split
  · exact ⟨rfl, rfl⟩
  · unfold mainStatement
    split <;> first | exact ⟨rfl, rfl⟩ | (split <;> exact ⟨rfl, rfl⟩)

theorem l4Step_up (s : App) : (l4Step s).up = s.up := by
  unfold l4Step
  split
  · rfl
  · unfold l4Statement
    split <;> first | rfl | (split <;> rfl)

theorem checkNetworkConnection_up (iface : Option Bool) :
    (checkNetworkConnection s iface).up = s.up ∧ (checkNetworkConnection s iface).l4 = s.l4 := by
  unfold checkNetworkConnection
  split <;> first | exact ⟨rfl, rfl⟩ | (split <;> exact ⟨rfl, rfl⟩)

theorem inv_step {e : Event} (h : Inv s) (he : Possible s e) : Inv (step s e) := by
  cases e with
  | main rc =>
    obtain ⟨hup, hl4⟩ := mainStep_up (s := s) rc
    intro hnot
    exact hup.trans (h fun hidle => hnot (hl4.trans hidle))
  | l4Event connected =>
    cases connected with
    | true => exact fun hnot => absurd he hnot
    | false => exact fun _ => rfl
  | l4 =>
    intro _
    exact (l4Step_up s).trans (h he)
  | pubMessage => exact h
  | checkNetworkConn => exact h
  | work iface =>
    obtain ⟨hup, hl4⟩ := checkNetworkConnection_up (s := s) iface
    intro hnot
    exact hup.trans (h fun hidle => hnot (hl4.trans hidle))
  | connack result =>
    simp only [step, connack]
    split
    · exact h
    · exact h
  | disconnect inMain =>
    cases inMain with
    | true => exact h
    | false => exact h

theorem pickedUp_of_down (h : s.up = false) : PickedUp s := by
  intro hdue
  exact absurd hdue.2.1 (by simp [h])

theorem due_mainStatement (rc : Int) : Due (mainStatement s rc) ↔ Due s := by
  unfold mainStatement
  split <;> first | exact Iff.rfl | (split <;> exact Iff.rfl)

theorem pending_nextTry (retries : Nat) :
    Pending { s with main := nextTry retries } ↔ retries ≠ 0 := by
  cases retries with
  | zero => exact ⟨False.elim, fun h => h rfl⟩
  | succ n => exact ⟨fun _ => Nat.succ_ne_zero n, fun _ => trivial⟩

theorem pending_nextGetaddrinfo (retries : Nat) :
    Pending { s with main := nextGetaddrinfo retries } ↔ retries ≠ 0 := by
  cases retries with
  | zero => exact ⟨False.elim, fun h => h rfl⟩
  | succ n => exact ⟨fun _ => Nat.succ_ne_zero n, fun _ => trivial⟩

theorem pending_mainStatement_iff {rc : Int} (hdue : Due s) (h : Pending s) :
    Pending (mainStatement s rc) ↔
      (s.main = .getaddrinfo 0 ∨ s.main = .mqttConnect 0 → rc = 0) ∧
      s.main ≠ .abortAndReturn ∧ s.main ≠ .waitRetry 0 ∧
      (s.main = .subscribe ∨ s.main = .takePublishMsg → Restarts s) := by
  unfold mainStatement
  unfold Pending at h
  cases hpc : s.main with
  | takeMqttStart => simp [Pending, nextGetaddrinfo]
  | getaddrinfo retries =>
    by_cases hrc : rc = 0
    · simp [hrc, pending_nextTry]
    · simp [hrc, pending_nextGetaddrinfo]
  | mqttConnect retries =>
    by_cases hrc : rc = 0
    · simp [hrc, Pending]
    · simp [hrc, pending_nextTry]
  | prepareFds retries => simp [Pending]
  | waitConnack retries =>
    simp only
    split <;> simp [Pending]
  | abortAndReturn => simp [Pending]
  | connectInput retries => simp [Pending]
  | ifConnected retries => simp [hdue.2.2, Pending]
  | subscribe => simp [Pending, Restarts]
  | abortAndRetry retries => simp [Pending]
  | waitRetry retries => simp [pending_nextTry]
  | whileConnected =>
    rw [hpc] at h
    simpa [hdue.2.2, Pending, Restarts] using h
  | publish =>
    rw [hpc] at h
    simp only
    split <;> simpa [Pending, Restarts] using h
  | waitPuback =>
    rw [hpc] at h
    simp only
    split <;> simpa [Pending, Restarts] using h
  | publishInput =>
    rw [hpc] at h
    simpa [Pending, Restarts] using h
  | submitPubMessage =>
    rw [hpc] at h
    simpa [Pending, Restarts] using h
  | takePublishMsg => simp [Pending, Restarts]
  | returned =>
    rw [hpc] at h
    exact h.elim

theorem pickedUp_main_iff {rc : Int} (h : PickedUp s) :
    PickedUp (mainStep s rc) ↔ Steady s (.main rc) := by
  unfold mainStep
  cases hclears : s.mainClears with
  | true => exact ⟨fun _ hno => absurd (hclears.symm.trans hno) (by decide), fun _ => h⟩
  | false =>
    constructor
    · intro hnext _ hdue
      exact (pending_mainStatement_iff hdue (h hdue)).mp
        (hnext ((due_mainStatement rc).mpr hdue))
    · intro hsteady hdue'
      have hdue : Due s := (due_mainStatement rc).mp hdue'
      exact (pending_mainStatement_iff hdue (h hdue)).mpr (hsteady hclears hdue)

/-- The work is scheduled, so that only main itself can be missing. -/
theorem pickedUp_l4Event_iff {connected : Bool} :
    PickedUp (l4EventHandler s connected) ↔ Steady s (.l4Event connected) := by
  cases connected with
  | false => exact ⟨fun _ hno => (nomatch hno), fun _ => pickedUp_of_down rfl⟩
  | true =>
    have hpending : Pending (l4EventHandler s true) ↔ s.main ≠ .returned ∧ Woken s := by
      unfold l4EventHandler Woken
      cases hpc : s.main <;> simp [Pending, Restarts]
    constructor
    · exact fun hnext _ honce hlost => hpending.mp (hnext ⟨honce, rfl, hlost⟩)
    · exact fun hsteady hdue => hpending.mpr (hsteady rfl hdue.1 hdue.2.2)

theorem pickedUp_disconnect_iff {inMain : Bool} (h : Inv s)
    (he : Possible s (.disconnect inMain)) :
    PickedUp (disconnect s inMain) ↔ Steady s (.disconnect inMain) := by
  cases inMain with
  | false =>
    obtain ⟨hl4, -⟩ : s.l4 = .mqttAbort ∧ s.l4Clears = false := he
    have hdown : s.up = false := h (by simp [hl4])
    exact ⟨fun _ hno => (nomatch hno), fun _ => pickedUp_of_down hdown⟩
  | true =>
    obtain ⟨hcalls, -⟩ : s.main.calls = true ∧ s.mainClears = false := he
    have hpending : Pending (disconnect s true) ↔
        (s.main = .publish ∨ s.main = .publishInput → s.publishMsg = true ∨ Restarts s) := by
      unfold disconnect
      cases hpc : s.main <;> simp [hpc, MainPc.calls] at hcalls <;> simp [Pending, Restarts]
    constructor
    · exact fun hnext _ honce hup => hpending.mp (hnext ⟨honce, hup, rfl⟩)
    · exact fun hsteady hdue => hpending.mpr (hsteady rfl hdue.1 hdue.2.1)

/-- What is pending for main stays so while the others only add to it. -/
theorem Pending.mono {s' : App} (h : Pending s) (hmain : s'.main = s.main)
    (hrestarts : Restarts s → Restarts s') (hpublish : s.publishMsg = true → s'.publishMsg = true)
    (hwork : s.pubMessage = true → s'.pubMessage = true ∨ s'.publishMsg = true) :
    Pending s' := by
  unfold Pending at h ⊢
  rw [hmain]
  cases hpc : s.main <;> simp only [hpc] at h ⊢ <;> grind

theorem due_checkNetworkConnection (iface : Option Bool) :
    Due (checkNetworkConnection s iface) ↔ Due s := by
  unfold checkNetworkConnection
  split <;> first | exact Iff.rfl | (split <;> exact Iff.rfl)

/-- The work gives the semaphore or is scheduled again, or it finds the connection there. -/
theorem pickedUp_work (h : PickedUp s) (iface : Option Bool) :
    PickedUp (checkNetworkConnection s iface) := by
  intro hdue'
  have hdue : Due s := (due_checkNetworkConnection iface).mp hdue'
  have hpending := h hdue
  unfold checkNetworkConnection
  cases hpc : s.work with
  | idle => exact hpending
  | ifConnected =>
    simp only [hdue.2.2, Bool.false_eq_true, if_false]
    exact hpending.mono rfl (fun _ => .inr (.inr (nomatch ·))) id .inl
  | ifBound =>
    simp only
    split
    · exact hpending.mono rfl (fun _ => .inr (.inr (nomatch ·))) id .inl
    · exact hpending.mono rfl (fun _ => .inr (.inr (nomatch ·))) id .inl
  | giveMqttStart => exact hpending.mono rfl (fun _ => .inl rfl) id .inl
  | submitCheckNetworkConn => exact hpending.mono rfl (fun _ => .inr (.inl rfl)) id .inl

theorem pickedUp_step_iff {e : Event} (h : Inv s) (he : Possible s e) (ha : PickedUp s) :
    PickedUp (step s e) ↔ Steady s e := by
  cases e with
  | main rc => exact pickedUp_main_iff ha
  | l4Event connected => exact pickedUp_l4Event_iff
  | l4 =>
    have hdown : (l4Step s).up = false := (l4Step_up s).trans (h he)
    exact ⟨fun _ => trivial, fun _ => pickedUp_of_down hdown⟩
  | pubMessage =>
    refine ⟨fun _ => trivial, fun _ hdue => ?_⟩
    exact (ha hdue).mono rfl id (fun _ => rfl) (fun _ => .inr rfl)
  | checkNetworkConn =>
    refine ⟨fun _ => trivial, fun _ hdue => ?_⟩
    exact (ha hdue).mono rfl (fun _ => .inr (.inr (nomatch ·))) id .inl
  | work iface => exact ⟨fun _ => trivial, fun _ => pickedUp_work ha iface⟩
  | connack result =>
    refine ⟨fun _ => trivial, fun _ => ?_⟩
    simp only [step, connack]
    split
    · exact ha
    · exact fun hdue => nomatch hdue.2.2
  | disconnect inMain => exact pickedUp_disconnect_iff h he

/-- Every run, in any order of the statements, the events and the callbacks. -/
theorem picked_up_iff_steady {es : List Event} (he : Along step Possible start es) :
    Always step PickedUp start es ↔ Along step Steady start es :=
  always_iff_along_of_along step (fun _ _ h he => inv_step h he)
    (fun _ _ h he ha => pickedUp_step_iff h he ha) (fun h => absurd rfl h)
    (pickedUp_of_down rfl) he

/-- The network comes up, and main connects and waits for its next publication. -/
def firstPublication : List Event :=
  [.l4Event true, .checkNetworkConn, .work none, .work (some true), .work none, .main 0, .main 0,
    .main 0, .main 0, .main 1, .connack 0, .main 0, .main 0, .main 0, .main 0, .main 0, .main 0,
    .main 0]

/-- Then the network goes down, the handler ends the connection, and main waits for `mqtt_start`;
the network comes up again, and main connects once more. -/
def lossAndReturn : List Event :=
  firstPublication ++ [.l4Event false, .l4, .l4, .l4, .disconnect false, .l4, .l4, .l4, .l4,
    .main 0, .main 0, .l4Event true, .checkNetworkConn, .work none, .work (some true), .work none,
    .main 0, .main 0, .main 0, .main 0, .main 1, .connack 0, .main 0, .main 0, .main 0, .main 0]

theorem picked_up_loss_and_return :
    Along step Possible start lossAndReturn ∧ Always step PickedUp start lossAndReturn := by
  have hpossible : Along step Possible start lossAndReturn := by decide +kernel
  exact ⟨hpossible, (picked_up_iff_steady hpossible).mpr (by decide +kernel)⟩

/-- The broker closes the connection at the second publication, while the network stays up. -/
def closedConnection : List Event :=
  firstPublication ++ [.pubMessage, .main 0, .main 0, .main 0, .main 1, .disconnect true, .main 0,
    .main 0, .main 0, .pubMessage, .main 0, .main 0]

theorem run_closedConnection :
    run step start closedConnection = { start with up := true, connectedOnce := true } := by
  decide +kernel

/-- In the end main waits for `mqtt_start`, and nothing is scheduled that gives it. -/
theorem closed_connection_not_picked_up :
    Along step Possible start closedConnection ∧ ¬ Always step PickedUp start closedConnection := by
  have hlost : ¬ PickedUp { start with up := true, connectedOnce := true } := by
    intro h
    have hrestarts : Restarts { start with up := true, connectedOnce := true } := h ⟨rfl, rfl, rfl⟩
    exact absurd hrestarts (by decide)
  exact ⟨by decide +kernel, not_always_of_last step run_closedConnection hlost⟩

/-! ## The wake-up that is lost

Main submits `pub_message` and waits for what it gives; the handler gives `publish_msg` before it
cancels the work, so main may have submitted the work in between. -/

def CancelSafe (s : App) : Event → Prop
  | .l4 =>
    s.l4Clears = false → s.l4 = .cancelPubMessage → s.main = .takePublishMsg → s.publishMsg = true
  | _ => True

theorem nextTry_ne (retries : Nat) : nextTry retries ≠ .takePublishMsg := by
  cases retries <;> simp [nextTry]

theorem nextGetaddrinfo_ne (retries : Nat) : nextGetaddrinfo retries ≠ .takePublishMsg := by
  cases retries <;> simp [nextGetaddrinfo]

theorem woken_mainStep (h : Woken s) (rc : Int) : Woken (mainStep s rc) := by
  unfold mainStep
  split
  · exact h
  · intro hwaits
    -- Main gets there by submitting the work only.
    have hsubmits : s.main = .submitPubMessage := by
      unfold mainStatement at hwaits
      cases hpc : s.main <;> grind [nextTry_ne, nextGetaddrinfo_ne]
    unfold mainStatement
    rw [hsubmits]
    exact .inr rfl

theorem woken_l4Step_iff (h : Woken s) : Woken (l4Step s) ↔ CancelSafe s .l4 := by
  unfold l4Step
  cases hclears : s.l4Clears with
  | true => exact ⟨fun _ hno => absurd (hclears.symm.trans hno) (by decide), fun _ => h⟩
  | false =>
    unfold l4Statement
    cases hpc : s.l4 <;> simp [Woken, CancelSafe, hclears, hpc] at h ⊢ <;> grind

theorem woken_step_iff {e : Event} (h : Woken s) : Woken (step s e) ↔ CancelSafe s e := by
  cases e with
  | main rc => exact ⟨fun _ => trivial, fun _ => woken_mainStep h rc⟩
  | l4Event connected => cases connected <;> exact ⟨fun _ => trivial, fun _ => h⟩
  | l4 => exact woken_l4Step_iff h
  | pubMessage => exact ⟨fun _ => trivial, fun _ _ => .inl rfl⟩
  | checkNetworkConn => exact ⟨fun _ => trivial, fun _ => h⟩
  | work iface =>
    refine ⟨fun _ => trivial, fun _ => ?_⟩
    simp only [step, checkNetworkConnection]
    split <;> first | exact h | (split <;> exact h)
  | connack result =>
    refine ⟨fun _ => trivial, fun _ => ?_⟩
    simp only [step, connack]
    split <;> exact h
  | disconnect inMain => cases inMain <;> exact ⟨fun _ => trivial, fun _ => h⟩

/-- Main never waits for a work that is not scheduled, exactly when none is cancelled then. -/
theorem main_woken_iff (es : List Event) :
    Always step Woken start es ↔ Along step CancelSafe start es :=
  always_iff_along step (I := fun _ => True) (fun _ _ _ => trivial)
    (fun _ _ _ h => woken_step_iff h) trivial (by decide) es

end MqttAzure
end ZephyrSamples
