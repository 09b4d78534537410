import Mathlib.Logic.Function.Basic
import ZephyrSamples.Lib.Runs

/-!
# The connection of the MQTT publisher

`try_to_connect`, `process_mqtt_and_sleep` and `publisher` under the loop of `main`, call by call,
with the callbacks of the library inside the calls.  `prepare_fds` knows two of the four transports
that `client_init` can select: over a websocket the poll set keeps the descriptor 0 it was built
with.
-/

namespace ZephyrSamples
namespace MqttPublisher

open Runs

/-- `enum mqtt_transport_type` -/
inductive Transport where
  | nonSecure
  | secure
  | nonSecureWebsocket
  | secureWebsocket
  deriving DecidableEq, Repr

/-- What the configuration sets: CONFIG_MQTT_LIB_TLS and CONFIG_MQTT_LIB_WEBSOCKET,
`APP_CONNECT_TRIES`, and the most iterations and connections; 0 connections stand for no limit. -/
structure Config where
  tls : Bool
  websocket : Bool
  connectTries : Nat
  maxIterations : Nat
  maxConnections : Nat
  deriving DecidableEq, Repr

/-- The transport of `client_init`. -/
def Config.transport (c : Config) : Transport :=
  if c.tls then
    if c.websocket then .secureWebsocket else .secure
  else if c.websocket then .nonSecureWebsocket else .nonSecure

/-- The call that comes next, with the loop counter of `try_to_connect` or of `publisher`, and which
of the four calls of `process_mqtt_and_sleep` or of the three of `publish` it is. -/
inductive Pc where
  | main
  | tryTest (i : Nat)
  | connect (i : Nat)
  | tryWait (i : Nat)
  | tryInput (i : Nat)
  | tryAbort (i : Nat)
  | iterTest (i : Nat)
  | ping (i : Nat)
  | sleepTest (i k : Nat)
  | sleepWait (i k : Nat)
  | sleepInput (i k : Nat)
  | sleepLive (i k : Nat)
  | liveInput (i k : Nat)
  | publish (i k : Nat)
  | disconnect
  | returned
  | exited
  deriving DecidableEq, Repr

/-- The statics, `client_ctx.transport` with the socket of each transport in its field, the loop
counter of `main`, and the socket of the connection that is open. -/
structure App where
  fd : Int
  nfds : Nat
  connected : Bool
  sock : Transport → Int
  pc : Pc
  rounds : Nat
  conn : Option Int

def start : App where
  fd := 0
  nfds := 0
  connected := false
  sock _ := 0
  pc := .main
  rounds := 0
  conn := none

/-- A packet that `mqtt_input` hands to `mqtt_evt_handler`. -/
inductive Packet where
  | connack (result : Int)
  | puback (result : Int)
  | pubrec (result : Int)
  | pubcomp (result : Int)
  | pingresp
  | other
  deriving DecidableEq, Repr

inductive Evt where
  | packet (p : Packet)
  | disconnect
  deriving DecidableEq, Repr

/-- What a call gives: `rc` is the result of a call of the library or of `poll`, `sock` the socket
of a connection that is opened, `packets` what comes in, `ended` says that a connection for which
`mqtt_live` returns -EAGAIN has ended, and `more` that there is time left in
`process_mqtt_and_sleep`. -/
structure Answer where
  rc : Int
  sock : Int
  packets : List Packet
  ended : Bool
  more : Bool
  deriving DecidableEq, Repr

def eagain : Int := 11

namespace App

def prepareFds (c : Config) (s : App) : App :=
  match c.transport with
  | .nonSecure => { s with fd := s.sock .nonSecure, nfds := 1 }
  | .secure => { s with fd := s.sock .secure, nfds := 1 }
  | _ => { s with nfds := 1 }

def clearFds (s : App) : App := { s with nfds := 0 }

/-- A message that is released or acknowledged changes nothing here. -/
def mqttEvtHandler (s : App) : Evt → App
  | .packet (.connack result) => if result ≠ 0 then s else { s with connected := true }
  | .disconnect => { s with connected := false }.clearFds
  | .packet _ => s

/-- The library ends the connection and says so; without a connection it does nothing. -/
def endConnection (s : App) : App :=
  if s.conn.isSome then { s with conn := none }.mqttEvtHandler .disconnect else s

/-- `mqtt_ping`, `mqtt_publish` or `mqtt_live` -/
def call (s : App) (failed : Bool) : App := if failed then s.endConnection else s

def mqttInput (s : App) (a : Answer) : App :=
  if s.conn.isSome then
    (a.packets.foldl (fun s p => s.mqttEvtHandler (.packet p)) s).call (a.rc ≠ 0)
  else s

def mqttConnect (c : Config) (s : App) (sock : Int) : App :=
  { s with sock := Function.update s.sock c.transport sock, conn := some sock }

/-- The statement after `process_mqtt_and_sleep`. -/
def afterSleep (s : App) (i k : Nat) (rc : Int) : App :=
  if rc ≠ 0 then { s with pc := .disconnect }
  else if k < 3 then { s with pc := .publish i k }
  else { s with pc := .iterTest i }

/-- `wait`: the result of `poll`, or 0 when there is nothing to poll. -/
def wait (s : App) (a : Answer) : Int := if 0 < s.nfds then a.rc else 0

end App

open App

/-- A call of `main` and what it calls, with the tests up to the next one. -/
def step (c : Config) (s : App) (a : Answer) : App :=
  match s.pc with
  | .main =>
    if c.maxConnections = 0 then { s with pc := .tryTest 0 }
    else if s.rounds < c.maxConnections then { s with pc := .tryTest 0, rounds := s.rounds + 1 }
    else { s with pc := .exited, rounds := s.rounds + 1 }
  | .tryTest i =>
    if i < c.connectTries ∧ s.connected = false then { s with pc := .connect (i + 1) }
    else if s.connected then { s with pc := .iterTest 0 }
    else { s with pc := .returned }
  | .connect i =>
    if a.rc ≠ 0 then { s with pc := .tryTest i }
    else { (s.mqttConnect c a.sock).prepareFds c with pc := .tryWait i }
  | .tryWait i => { s with pc := if s.wait a ≠ 0 then .tryInput i else .tryAbort i }
  | .tryInput i => { s.mqttInput a with pc := .tryAbort i }
  | .tryAbort i =>
    if s.connected then { s with pc := .tryTest i } else { s.endConnection with pc := .tryTest i }
  | .iterTest i =>
    if i < c.maxIterations ∧ s.connected = true then { s with pc := .ping (i + 1) }
    else { s with pc := .disconnect }
  | .ping i =>
    { s.call (a.rc ≠ 0) with pc := if a.rc ≠ 0 then .disconnect else .sleepTest i 0 }
  | .sleepTest i k =>
    if a.more ∧ s.connected = true then { s with pc := .sleepWait i k } else s.afterSleep i k 0
  | .sleepWait i k => { s with pc := if s.wait a ≠ 0 then .sleepInput i k else .sleepLive i k }
  | .sleepInput i k =>
    if a.rc ≠ 0 then (s.mqttInput a).afterSleep i k a.rc
    else { s.mqttInput a with pc := .sleepLive i k }
  | .sleepLive i k =>
    let s := s.call (a.rc ≠ 0 ∧ (a.rc = -eagain → a.ended))
    if a.rc ≠ 0 ∧ a.rc ≠ -eagain then s.afterSleep i k a.rc
    else if a.rc = 0 then { s with pc := .liveInput i k }
    else { s with pc := .sleepTest i k }
  | .liveInput i k =>
    if a.rc ≠ 0 then (s.mqttInput a).afterSleep i k a.rc
    else { s.mqttInput a with pc := .sleepTest i k }
  | .publish i k =>
    { s.call (a.rc ≠ 0) with pc := if a.rc ≠ 0 then .disconnect else .sleepTest i (k + 1) }
  | .disconnect => { s.endConnection with pc := .returned }
  | .returned => { s with pc := .main }
  | .exited => s

/-! ## The bookkeeping -/

/-- `wait` calls `poll`. -/
def App.Polls (s : App) : Prop :=
  ((∃ i, s.pc = .tryWait i) ∨ ∃ i k, s.pc = .sleepWait i k) ∧ 0 < s.nfds

structure Sound (s : App) : Prop where
  poll : s.Polls → s.nfds = 1 ∧ s.conn = some s.fd
  connect : ∀ i, s.pc = .connect i → s.conn = none
  connected : s.connected = true → s.conn.isSome = true
  returned : s.pc = .returned → s.conn = none ∧ s.connected = false

/-- The transports whose socket `prepare_fds` puts into the poll set. -/
def Transport.Polled (t : Transport) : Prop := t = .nonSecure ∨ t = .secure

/-- Over a websocket a connection has the socket 0. -/
def Careful (c : Config) (s : App) (a : Answer) : Prop :=
  ∀ i, s.pc = .connect i → a.rc = 0 → c.transport.Polled ∨ a.sock = 0

/-- There is a connection, and it is the one that is polled. -/
structure Linked (s : App) : Prop where
  conn : s.conn = some s.fd
  nfds : s.nfds = 1

structure Down (s : App) : Prop where
  conn : s.conn = none
  connected : s.connected = false

/-- What is known before each call. -/
def Expected (s : App) : Prop :=
  match s.pc with
  | .tryTest _ => Linked s ∧ s.connected = true ∨ Down s
  | .connect _ | .returned | .main | .exited => Down s
  | .tryWait _ | .sleepWait _ _ => Linked s
  | _ => Linked s ∨ Down s

structure Inv (c : Config) (s : App) : Prop where
  expected : Expected s
  fd : ¬ c.transport.Polled → s.fd = 0

variable {c : Config} {s : App} {a : Answer}

/-- The connection is there and polled, or gone and known to be gone. -/
def Settled (s : App) : Prop := Linked s ∨ Down s

@[simp] theorem endConnection_fd : s.endConnection.fd = s.fd := by
  unfold endConnection
  split <;> rfl

@[simp] theorem call_fd (failed : Bool) : (s.call failed).fd = s.fd := by
  cases failed <;> simp [App.call]

/-- Packets do not touch the poll set. -/
theorem packets_same (packets : List Packet) :
    ∃ connected, packets.foldl (fun s p => s.mqttEvtHandler (.packet p)) s =
      { s with connected := connected } := by
  induction packets generalizing s with
  | nil => exact ⟨s.connected, rfl⟩
  | cons p packets ih =>
    have hone : ∃ connected, s.mqttEvtHandler (.packet p) = { s with connected := connected } := by
      cases p with
      | connack result =>
        by_cases hresult : result = 0
        · exact ⟨true, by simp [mqttEvtHandler, hresult]⟩
        · exact ⟨s.connected, by simp [mqttEvtHandler, hresult]⟩
      | _ => exact ⟨s.connected, rfl⟩
    obtain ⟨connected, hone⟩ := hone
    obtain ⟨connected', hrest⟩ := ih (s := { s with connected := connected })
    exact ⟨connected', by rw [List.foldl_cons, hone, hrest]⟩

@[simp] theorem mqttInput_fd : (s.mqttInput a).fd = s.fd := by
  obtain ⟨connected, heq⟩ := packets_same (s := s) a.packets
  unfold mqttInput
  split
  · rw [call_fd, heq]
  · rfl

theorem Settled.endConnection (h : Settled s) : Down s.endConnection := by
  rcases h with hlinked | hdown
  · simp only [App.endConnection, hlinked.conn, Option.isSome_some, if_true]
    exact ⟨rfl, rfl⟩
  · simpa [App.endConnection, hdown.conn] using hdown

theorem Settled.call (h : Settled s) (failed : Bool) : Settled (s.call failed) := by
  cases failed with
  | true => exact .inr h.endConnection
  | false => exact h

theorem Settled.mqttInput (h : Settled s) (a : Answer) : Settled (s.mqttInput a) := by
  rcases h with hlinked | hdown
  · obtain ⟨connected, heq⟩ := packets_same (s := s) a.packets
    simp only [App.mqttInput, hlinked.conn, Option.isSome_some, if_true]
    rw [heq]
    have hsettled : Settled { s with connected := connected } := .inl ⟨hlinked.conn, hlinked.nfds⟩
    exact hsettled.call _
  · simp only [App.mqttInput, hdown.conn, Option.isSome_none, Bool.false_eq_true, if_false]
    exact .inr hdown

theorem Settled.setPc (h : Settled s) (pc : Pc) : Settled { s with pc := pc } :=
  h.imp (fun h => ⟨h.conn, h.nfds⟩) fun h => ⟨h.conn, h.connected⟩

theorem Settled.linked (h : Settled s) (hconnected : s.connected = true) : Linked s :=
  h.resolve_right fun hdown => by simp [hdown.connected] at hconnected

theorem Settled.afterSleep (h : Settled s) (i k : Nat) (rc : Int) :
    Expected (s.afterSleep i k rc) ∧ (s.afterSleep i k rc).fd = s.fd := by
  unfold App.afterSleep
  split
  · exact ⟨h.setPc _, rfl⟩
  · split
    · exact ⟨h.setPc _, rfl⟩
    · exact ⟨h.setPc _, rfl⟩

/-- What is expected before a call is settled, whatever the call. -/
theorem Expected.settled (h : Expected s) : Settled s := by
  unfold Expected at h
  split at h
  · exact h.imp_left And.left
  · exact .inr h
  · exact .inr h
  · exact .inr h
  · exact .inr h
  · exact .inl h
  · exact .inl h
  · exact h

/-- A connection is opened and the poll set prepared. -/
theorem connect_linked_iff (hfd : ¬ c.transport.Polled → s.fd = 0) (sock : Int) :
    ((s.mqttConnect c sock).prepareFds c).conn = some ((s.mqttConnect c sock).prepareFds c).fd ↔
      c.transport.Polled ∨ sock = 0 := by
  cases ht : c.transport with
  | nonSecure => simp [App.mqttConnect, App.prepareFds, ht, Transport.Polled]
  | secure => simp [App.mqttConnect, App.prepareFds, ht, Transport.Polled]
  | nonSecureWebsocket =>
    have hzero : s.fd = 0 := hfd (by simp [ht, Transport.Polled])
    simp [App.mqttConnect, App.prepareFds, ht, Transport.Polled, hzero]
  | secureWebsocket =>
    have hzero : s.fd = 0 := hfd (by simp [ht, Transport.Polled])
    simp [App.mqttConnect, App.prepareFds, ht, Transport.Polled, hzero]

theorem prepareFds_nfds : (s.prepareFds c).nfds = 1 := by
  unfold App.prepareFds
  split <;> rfl

theorem prepareFds_fd (hfd : ¬ c.transport.Polled → s.fd = 0) :
    ¬ c.transport.Polled → (s.prepareFds c).fd = 0 := by
  intro hnot
  unfold App.prepareFds
  split
  case h_1 ht => exact absurd (.inl ht) hnot
  case h_2 ht => exact absurd (.inr ht) hnot
  case h_3 => exact hfd hnot

/-! ### One call of `main` -/

theorem Inv.main (h : Inv c s) (hpc : s.pc = .main) (a : Answer) : Inv c (step c s a) := by
  obtain ⟨hexpected, hfd⟩ := h
  simp only [Expected, hpc] at hexpected
  simp only [MqttPublisher.step, hpc]
  split
  · exact ⟨.inr ⟨hexpected.conn, hexpected.connected⟩, hfd⟩
  · split
    · exact ⟨.inr ⟨hexpected.conn, hexpected.connected⟩, hfd⟩
    · exact ⟨⟨hexpected.conn, hexpected.connected⟩, hfd⟩

theorem Inv.tryTest (h : Inv c s) {i : Nat} (hpc : s.pc = .tryTest i) (a : Answer) :
    Inv c (step c s a) := by
  obtain ⟨hexpected, hfd⟩ := h
  simp only [Expected, hpc] at hexpected
  simp only [MqttPublisher.step, hpc]
  rcases hexpected with ⟨hlinked, hconnected⟩ | hdown
  · simp only [hconnected, if_true, reduceCtorEq, and_false, if_false]
    exact ⟨.inl ⟨hlinked.conn, hlinked.nfds⟩, hfd⟩
  · simp only [hdown.connected, Bool.false_eq_true, if_false, and_true]
    split
    · exact ⟨⟨hdown.conn, rfl⟩, hfd⟩
    · exact ⟨⟨hdown.conn, rfl⟩, hfd⟩

theorem Inv.connect (h : Inv c s) {i : Nat} (hpc : s.pc = .connect i) (a : Answer)
    (hcareful : Careful c s a) : Inv c (step c s a) := by
  obtain ⟨hexpected, hfd⟩ := h
  simp only [Expected, hpc] at hexpected
  simp only [MqttPublisher.step, hpc]
  by_cases hrc : a.rc = 0
  · simp only [hrc, ne_eq, not_true, if_false]
    have hlink := (connect_linked_iff hfd a.sock).mpr (hcareful i hpc hrc)
    exact ⟨⟨hlink, prepareFds_nfds⟩, prepareFds_fd hfd⟩
  · simp only [hrc, ne_eq, not_false_eq_true, if_true]
    exact ⟨.inr ⟨hexpected.conn, hexpected.connected⟩, hfd⟩

theorem Inv.tryWait (h : Inv c s) {i : Nat} (hpc : s.pc = .tryWait i) (a : Answer) :
    Inv c (step c s a) := by
  have hsettled := h.expected.settled
  simp only [MqttPublisher.step, hpc]
  refine ⟨?_, h.fd⟩
  split
  · exact hsettled.setPc _
  · exact hsettled.setPc _

theorem Inv.tryInput (h : Inv c s) {i : Nat} (hpc : s.pc = .tryInput i) (a : Answer) :
    Inv c (step c s a) := by
  have hsettled := h.expected.settled
  simp only [MqttPublisher.step, hpc]
  exact ⟨(hsettled.mqttInput a).setPc _, by simpa using h.fd⟩

theorem Inv.tryAbort (h : Inv c s) {i : Nat} (hpc : s.pc = .tryAbort i) (a : Answer) :
    Inv c (step c s a) := by
  have hsettled := h.expected.settled
  simp only [MqttPublisher.step, hpc]
  split
  case isTrue hconnected =>
    have hlinked := hsettled.linked hconnected
    exact ⟨.inl ⟨⟨hlinked.conn, hlinked.nfds⟩, hconnected⟩, h.fd⟩
  case isFalse =>
    have hdown := hsettled.endConnection
    exact ⟨.inr ⟨hdown.conn, hdown.connected⟩, by simpa using h.fd⟩

theorem Inv.iterTest (h : Inv c s) {i : Nat} (hpc : s.pc = .iterTest i) (a : Answer) :
    Inv c (step c s a) := by
  have hsettled := h.expected.settled
  simp only [MqttPublisher.step, hpc]
  split
  · exact ⟨hsettled.setPc _, h.fd⟩
  · exact ⟨hsettled.setPc _, h.fd⟩

theorem Inv.ping (h : Inv c s) {i : Nat} (hpc : s.pc = .ping i) (a : Answer) :
    Inv c (step c s a) := by
  have hsettled := h.expected.settled
  simp only [MqttPublisher.step, hpc]
  refine ⟨?_, by simpa using h.fd⟩
  split
  · exact (hsettled.call _).setPc _
  · exact (hsettled.call _).setPc _

theorem Inv.sleepTest (h : Inv c s) {i k : Nat} (hpc : s.pc = .sleepTest i k) (a : Answer) :
    Inv c (step c s a) := by
  have hsettled := h.expected.settled
  simp only [MqttPublisher.step, hpc]
  split
  case isTrue hmore =>
    have hlinked := hsettled.linked hmore.2
    exact ⟨⟨hlinked.conn, hlinked.nfds⟩, h.fd⟩
  case isFalse =>
    obtain ⟨hafter, hsame⟩ := hsettled.afterSleep i k 0
    exact ⟨hafter, hsame ▸ h.fd⟩

theorem Inv.sleepWait (h : Inv c s) {i k : Nat} (hpc : s.pc = .sleepWait i k) (a : Answer) :
    Inv c (step c s a) := by
  have hsettled := h.expected.settled
  simp only [MqttPublisher.step, hpc]
  refine ⟨?_, h.fd⟩
  split
  · exact hsettled.setPc _
  · exact hsettled.setPc _

/-- `mqtt_input` in the loop, which fails or goes on at `pc`. -/
theorem Inv.input (h : Inv c s) (i k : Nat) {pc : Pc} (a : Answer)
    (hpc : ∀ s', Settled s' → Expected { s' with pc := pc }) :
    Inv c (if a.rc ≠ 0 then (s.mqttInput a).afterSleep i k a.rc
      else { s.mqttInput a with pc := pc }) := by
  have hinput := h.expected.settled.mqttInput a
  split
  · obtain ⟨hafter, hsame⟩ := hinput.afterSleep i k a.rc
    exact ⟨hafter, by simpa [hsame] using h.fd⟩
  · exact ⟨hpc _ hinput, by simpa using h.fd⟩

theorem Inv.sleepInput (h : Inv c s) {i k : Nat} (hpc : s.pc = .sleepInput i k) (a : Answer) :
    Inv c (step c s a) := by
  simp only [MqttPublisher.step, hpc]
  exact h.input i k a fun _ hsettled => hsettled.setPc _

theorem Inv.liveInput (h : Inv c s) {i k : Nat} (hpc : s.pc = .liveInput i k) (a : Answer) :
    Inv c (step c s a) := by
  simp only [MqttPublisher.step, hpc]
  exact h.input i k a fun _ hsettled => hsettled.setPc _

theorem Inv.sleepLive (h : Inv c s) {i k : Nat} (hpc : s.pc = .sleepLive i k) (a : Answer) :
    Inv c (step c s a) := by
  have hsettled := h.expected.settled
  simp only [MqttPublisher.step, hpc]
  split
  · obtain ⟨hafter, hsame⟩ := (hsettled.call _).afterSleep i k a.rc
    exact ⟨hafter, by rw [hsame, call_fd]; exact h.fd⟩
  · split
    · exact ⟨(hsettled.call _).setPc _, by simpa using h.fd⟩
    · exact ⟨(hsettled.call _).setPc _, by simpa using h.fd⟩

theorem Inv.publish (h : Inv c s) {i k : Nat} (hpc : s.pc = .publish i k) (a : Answer) :
    Inv c (step c s a) := by
  have hsettled := h.expected.settled
  simp only [MqttPublisher.step, hpc]
  refine ⟨?_, by simpa using h.fd⟩
  split
  · exact (hsettled.call _).setPc _
  · exact (hsettled.call _).setPc _

theorem Inv.disconnect (h : Inv c s) (hpc : s.pc = .disconnect) (a : Answer) :
    Inv c (step c s a) := by
  have hdown := h.expected.settled.endConnection
  simp only [MqttPublisher.step, hpc]
  exact ⟨⟨hdown.conn, hdown.connected⟩, by simpa using h.fd⟩

theorem Inv.returned (h : Inv c s) (hpc : s.pc = .returned) (a : Answer) : Inv c (step c s a) := by
  obtain ⟨hexpected, hfd⟩ := h
  simp only [Expected, hpc] at hexpected
  simp only [MqttPublisher.step, hpc]
  exact ⟨⟨hexpected.conn, hexpected.connected⟩, hfd⟩

theorem Inv.exited (h : Inv c s) (hpc : s.pc = .exited) (a : Answer) : Inv c (step c s a) := by
  simp only [MqttPublisher.step, hpc]
  exact h

theorem Inv.step (h : Inv c s) (a : Answer) (hcareful : Careful c s a) : Inv c (step c s a) := by
  cases hpc : s.pc with
  | main => exact h.main hpc a
  | tryTest i => exact h.tryTest hpc a
  | connect i => exact h.connect hpc a hcareful
  | tryWait i => exact h.tryWait hpc a
  | tryInput i => exact h.tryInput hpc a
  | tryAbort i => exact h.tryAbort hpc a
  | iterTest i => exact h.iterTest hpc a
  | ping i => exact h.ping hpc a
  | sleepTest i k => exact h.sleepTest hpc a
  | sleepWait i k => exact h.sleepWait hpc a
  | sleepInput i k => exact h.sleepInput hpc a
  | sleepLive i k => exact h.sleepLive hpc a
  | liveInput i k => exact h.liveInput hpc a
  | publish i k => exact h.publish hpc a
  | disconnect => exact h.disconnect hpc a
  | returned => exact h.returned hpc a
  | exited => exact h.exited hpc a

theorem Inv.sound (h : Inv c s) : Sound s := by
  obtain ⟨hexpected, _⟩ := h
  refine ⟨?_, fun i hpc => ?_, fun hconnected => ?_, fun hpc => ?_⟩
  · rintro ⟨⟨i, hpc⟩ | ⟨i, k, hpc⟩, _⟩
    · simp only [Expected, hpc] at hexpected
      exact ⟨hexpected.nfds, hexpected.conn⟩
    · simp only [Expected, hpc] at hexpected
      exact ⟨hexpected.nfds, hexpected.conn⟩
  · simp only [Expected, hpc] at hexpected
    exact hexpected.conn
  · simp [(hexpected.settled.linked hconnected).conn]
  · simp only [Expected, hpc] at hexpected
    exact ⟨hexpected.conn, hexpected.connected⟩

/-- A websocket whose socket is not 0 is not polled. -/
theorem Inv.careful (h : Inv c s) (a : Answer) (hsound : Sound (MqttPublisher.step c s a)) :
    Careful c s a := by
  intro i hpc hrc
  simp only [MqttPublisher.step, hpc, hrc, ne_eq, not_true, if_false] at hsound
  have hpolls : ({ (s.mqttConnect c a.sock).prepareFds c with pc := .tryWait i } : App).Polls :=
    ⟨.inl ⟨i, rfl⟩, by rw [prepareFds_nfds]; decide⟩
  exact (connect_linked_iff h.fd a.sock).mp (hsound.poll hpolls).2

theorem inv_start (c : Config) : Inv c start := ⟨⟨rfl, rfl⟩, fun _ => rfl⟩

/-- Whatever the library and `poll` return, the bookkeeping is right exactly when every connection
is one over TCP or TLS, or has the socket 0. -/
theorem publisher_sound_iff_careful (c : Config) (as : List Answer) :
    Always (MqttPublisher.step c) Sound start as ↔
      Along (MqttPublisher.step c) (Careful c) start as := by
  exact always_iff_along_kept (MqttPublisher.step c) (I := Inv c)
    (fun _ a h hcareful => h.step a hcareful)
    (fun _ a h => ⟨h.careful a, fun hcareful => (h.step a hcareful).sound⟩) (inv_start c)
    (inv_start c).sound as

/-- Over TCP and over TLS it is right in every run. -/
theorem sound_of_polled {c : Config} (h : c.transport.Polled) (as : List Answer) :
    Always (MqttPublisher.step c) Sound start as :=
  always_of_invariant (MqttPublisher.step c) (I := Inv c)
    (fun _ a hinv => hinv.step a fun _ _ _ => .inl h) (fun _ hinv => hinv.sound) (inv_start c) as

/-- `mqtt_connect` opens a connection over a websocket with the socket 5, and `poll` is called with
the descriptor 0. -/
theorem websocket_not_polled :
    ¬ Always (MqttPublisher.step ⟨false, true, 10, 500, 0⟩) Sound start
      [⟨0, 0, [], false, true⟩, ⟨0, 0, [], false, true⟩, ⟨0, 5, [], false, true⟩] := by
  refine not_always_of_last _ rfl fun hsound => ?_
  have hpoll := (hsound.poll ⟨.inl ⟨1, by decide⟩, by decide⟩).2
  exact absurd hpoll (by decide)

end MqttPublisher
end ZephyrSamples
