import ZephyrSamples.Lib.Runs

/-!
# The game's Bluetooth connection

`ble.c` without its GATT part: the states of `ble_state`, the delayed work, the two connection
callbacks and what they leave in `default_conn`, beside what the stack is doing for them.  An
attempt that fails, times out or is cancelled keeps its reference; a run agrees with the stack
exactly when no such reference is met when an attempt is given up or a connection comes up, and no
scan goes on behind a connection that ends. -/

namespace ZephyrSamples
namespace Pong
namespace Ble

open Runs

/-- A connection object of the stack. -/
abbrev Conn := Nat

inductive BleState where
  | disconnected
  | scanStart
  | scan
  | connectCreate
  | connectCancel
  | advStart
  | advertising
  | connected
  deriving DecidableEq, Repr

/-- The statics of `ble.c` (`bleWork` says that the work is queued), and of the stack: what runs,
the attempts it has not yet reported, the connections, and the one it reported last. -/
structure Link where
  bleState : BleState
  connectCanceled : Bool
  defaultConn : Option Conn
  bleWork : Bool
  initiator : Bool
  remoteReady : Bool
  remoteHandle : Nat
  scanning : Bool
  advertising : Bool
  attempts : List Conn
  live : List Conn
  lastConnected : Option Conn
  deriving DecidableEq, Repr

/-- After `ble_init`. -/
def bleInit : Link where
  bleState := .disconnected
  connectCanceled := false
  defaultConn := none
  bleWork := false
  initiator := false
  remoteReady := false
  remoteHandle := 0
  scanning := false
  advertising := false
  attempts := []
  live := []
  lastConnected := none

/-- The events, with what the stack answers to the calls made in them: whether starting the scan or
the advertising failed, the object of a connection attempt or `none`, the role of a connection. -/
inductive Event where
  | bleConnect
  | bleCancelConnect
  | bleTimeout (err : Bool)
  | deviceFound (created : Option Conn)
  | connected (conn : Conn) (err : Bool) (master : Bool)
  | disconnected (conn : Conn)
  deriving DecidableEq, Repr

def bleConnect (s : Link) : Link :=
  if s.bleState ≠ .disconnected then s
  else { s with bleState := .scanStart, bleWork := true }

def bleCancelConnect (s : Link) : Link :=
  match s.bleState with
  | .disconnected => { s with bleWork := false }
  | .scanStart => { s with bleWork := false, bleState := .disconnected }
  | .scan => { s with bleWork := true, connectCanceled := true }
  | .advStart => { s with bleWork := false, bleState := .disconnected }
  | .advertising => { s with bleWork := true, connectCanceled := true }
  | .connectCreate =>
    { s with bleWork := true, connectCanceled := true, bleState := .connectCancel }
  | .connected => { s with bleWork := true, connectCanceled := true }
  | .connectCancel => { s with bleWork := false }

def createConn (s : Link) (created : Option Conn) : Link :=
  if s.defaultConn ≠ none then s
  else
    match created with
    | none => s
    | some conn =>
      { s with defaultConn := some conn, attempts := conn :: s.attempts,
               bleState := .connectCreate, bleWork := true }

/-- `device_found` with a matching advertisement. -/
def deviceFound (s : Link) (created : Option Conn) : Link :=
  createConn { s with scanning := false } created

/-- `cancel_connect`; a `bt_conn_disconnect` is answered by a later callback. -/
def cancelConnect (s : Link) : Link :=
  match s.bleState with
  | .scan =>
    { s with connectCanceled := false, scanning := false, bleState := .disconnected }
  | .advertising =>
    { s with connectCanceled := false, advertising := false, bleState := .disconnected }
  -- For CONNECTED the state will be updated in the disconnected cb
  | .connected => { s with connectCanceled := false }
  | _ => { s with connectCanceled := false, bleState := .disconnected }

def bleTimeout (s : Link) (err : Bool) : Link :=
  if s.connectCanceled then cancelConnect s
  else
    match s.bleState with
    | .disconnected => s
    | .scanStart =>
      { s with scanning := s.scanning || !err, bleState := .scan, bleWork := true }
    | .connectCreate => { s with bleState := .advStart, bleWork := true }
    | .scan => { s with scanning := false, bleState := .advStart, bleWork := true }
    | .advStart =>
      if err then s
      else { s with advertising := true, bleState := .advertising, bleWork := true }
    | .advertising => { s with advertising := false, bleState := .scanStart, bleWork := true }
    | .connected => s
    | .connectCancel => s

def connected (s : Link) (conn : Conn) (err master : Bool) : Link :=
  let s := { s with attempts := s.attempts.erase conn }
  if err then s
  else
    { s with advertising := if s.bleState = .advertising then false else s.advertising,
             defaultConn := s.defaultConn.or (some conn), initiator := master,
             remoteReady := false, remoteHandle := 0, bleState := .connected, bleWork := true,
             live := conn :: s.live, lastConnected := some conn }

def disconnected (s : Link) (conn : Conn) : Link :=
  { s with defaultConn := none, remoteHandle := 0, live := s.live.erase conn,
           bleState := if s.bleState = .connected then .disconnected else s.bleState }

def step (s : Link) : Event → Link
  | .bleConnect => bleConnect s
  | .bleCancelConnect => bleCancelConnect s
  | .bleTimeout err => bleTimeout { s with bleWork := false } err
  | .deviceFound created => deviceFound s created
  | .connected conn err master => connected s conn err master
  | .disconnected conn => disconnected s conn

/-- What the stack can report: matches while it scans, the end of each attempt once, new objects for
new attempts and connections, and the end of connections that are up. -/
def Possible (s : Link) : Event → Prop
  | .bleConnect => True
  | .bleCancelConnect => True
  | .bleTimeout _ => s.bleWork = true
  | .deviceFound created =>
    s.scanning = true ∧ ∀ conn ∈ created, conn ∉ s.attempts ∧ conn ∉ s.live
  | .connected conn err _ => conn ∈ s.attempts ∨ (err = false ∧ conn ∉ s.live)
  | .disconnected conn => conn ∈ s.live

instance (s : Link) : ∀ e, Decidable (Possible s e)
  | .bleConnect => inferInstanceAs (Decidable True)
  | .bleCancelConnect => inferInstanceAs (Decidable True)
  | .bleTimeout _ => inferInstanceAs (Decidable (s.bleWork = true))
  | .deviceFound created => inferInstanceAs (Decidable (s.scanning = true ∧
      ∀ conn ∈ created, conn ∉ s.attempts ∧ conn ∉ s.live))
  | .connected conn err _ =>
    inferInstanceAs (Decidable (conn ∈ s.attempts ∨ (err = false ∧ conn ∉ s.live)))
  | .disconnected conn => inferInstanceAs (Decidable (conn ∈ s.live))

/-- Idle means that nothing runs and nothing is referenced, and connected that the reference is to
the connection last reported. -/
structure Agrees (s : Link) : Prop where
  idle : s.bleState = .disconnected → s.bleWork = false →
    s.scanning = false ∧ s.advertising = false ∧ s.defaultConn = none
  current : s.bleState = .connected → s.defaultConn = s.lastConnected

/-! ## Runs that agree -/

/-- An event does not meet what an earlier attempt has left: giving an attempt up finds no reference
and no other scan, a connection that comes up finds no reference to another one, and a scan does not
outlast the connection that came up during it. -/
def Unhaunted (s : Link) : Event → Prop
  | .bleConnect => True
  | .bleCancelConnect =>
    s.bleState = .disconnected ∨ s.bleState = .scanStart ∨ s.bleState = .advStart →
      s.scanning = false ∧ s.defaultConn = none
  | .bleTimeout _ =>
    if s.connectCanceled then
      s.bleState ≠ .connected → (s.scanning = true → s.bleState = .scan) ∧ s.defaultConn = none
    else s.bleState = .disconnected → s.scanning = false
  | .deviceFound _ => True
  | .connected conn err _ => err = false → s.defaultConn = none ∨ s.defaultConn = some conn
  | .disconnected _ => s.bleState = .connected → s.bleWork = false → s.scanning = false

instance (s : Link) : ∀ e, Decidable (Unhaunted s e)
  | .bleConnect => inferInstanceAs (Decidable True)
  | .bleCancelConnect => inferInstanceAs (Decidable (s.bleState = .disconnected ∨
      s.bleState = .scanStart ∨ s.bleState = .advStart → s.scanning = false ∧ s.defaultConn = none))
  | .bleTimeout _ => inferInstanceAs (Decidable (if s.connectCanceled then
      s.bleState ≠ .connected → (s.scanning = true → s.bleState = .scan) ∧ s.defaultConn = none
      else s.bleState = .disconnected → s.scanning = false))
  | .deviceFound _ => inferInstanceAs (Decidable True)
  | .connected conn err _ => inferInstanceAs (Decidable
      (err = false → s.defaultConn = none ∨ s.defaultConn = some conn))
  | .disconnected _ => inferInstanceAs (Decidable
      (s.bleState = .connected → s.bleWork = false → s.scanning = false))

/-- What every run keeps: advertising runs in its own state only, scanning never while advertising
or connecting, and the work that outlives a connection finds no reference. -/
structure Inv (s : Link) : Prop where
  adv : s.advertising = true → s.bleState = .advertising
  scan : s.scanning = true → s.bleState = .scan ∨ s.bleState = .connected ∨
    s.bleState = .disconnected ∨ s.bleState = .scanStart
  left : s.bleState = .disconnected → s.bleWork = true → s.defaultConn = none

theorem inv_bleInit : Inv bleInit := by
  constructor <;> simp [bleInit]

theorem agrees_bleInit : Agrees bleInit := by
  constructor <;> simp [bleInit]

variable {s : Link}

theorem inv_step {e : Event} (h : Inv s) (he : Possible s e) : Inv (step s e) := by
  obtain ⟨hadv, hscan, hleft⟩ := h
  cases e with
  | bleConnect =>
    simp only [step, bleConnect]
    constructor <;> grind
  | bleCancelConnect =>
    simp only [step, bleCancelConnect]
    constructor <;> grind
  | bleTimeout err =>
    simp only [step, bleTimeout, cancelConnect]
    constructor <;> grind
  | deviceFound created =>
    simp only [step, deviceFound, createConn, Possible] at he ⊢
    constructor <;> grind
  | connected conn err master =>
    simp only [step, connected]
    constructor <;> grind
  | disconnected conn =>
    simp only [step, disconnected]
    constructor <;> grind

theorem connected_agrees_iff {conn : Conn} {err master : Bool} (ha : Agrees s) :
    Agrees (connected s conn err master) ↔
      (err = false → s.defaultConn = none ∨ s.defaultConn = some conn) := by
  cases err with
  | true =>
    refine ⟨fun _ h => (nomatch h), fun _ => ?_⟩
    exact ⟨ha.idle, ha.current⟩
  | false =>
    have hsome : Agrees (connected s conn false master) ↔
        s.defaultConn.or (some conn) = some conn := by
      refine ⟨fun h => h.current rfl, fun h => ⟨fun hstate => ?_, fun _ => h⟩⟩
      cases hstate
    rw [hsome]
    cases hconn : s.defaultConn with
    | none => simp
    | some c => simp

theorem disconnected_agrees_iff {conn : Conn} (h : Inv s) (ha : Agrees s) :
    Agrees (disconnected s conn) ↔
      (s.bleState = .connected → s.bleWork = false → s.scanning = false) := by
  obtain ⟨hidle, hcur⟩ := ha
  have hadv := h.adv
  unfold disconnected
  by_cases hstate : s.bleState = .connected
  · rw [if_pos hstate]
    refine ⟨fun hd _ hwork => (hd.idle rfl hwork).1, fun hscan => ⟨fun _ hwork => ?_, ?_⟩⟩
    · refine ⟨hscan hstate hwork, ?_, rfl⟩
      show s.advertising = false
      grind
    · intro hnot
      cases hnot
  · rw [if_neg hstate]
    refine ⟨fun _ hcon => absurd hcon hstate, fun _ => ⟨fun hdis hwork => ?_, ?_⟩⟩
    · obtain ⟨hs, ha, -⟩ := hidle hdis hwork
      exact ⟨hs, ha, rfl⟩
    · exact fun hcon => absurd hcon hstate

/-- Outside a connection the cancelled work leaves the machine idle, with what it does not stop. -/
theorem cancelConnect_agrees_iff (h : Inv s) (hwork : s.bleWork = false)
    (hcur : s.bleState = .connected → s.defaultConn = s.lastConnected) :
    Agrees (cancelConnect s) ↔ (s.bleState ≠ .connected →
      (s.scanning = true → s.bleState = .scan) ∧ s.defaultConn = none) := by
  obtain ⟨hadv, hscan, hleft⟩ := h
  unfold cancelConnect
  constructor
  · rintro ⟨hidle', -⟩
    cases hstate : s.bleState <;> simp only [hstate] at hidle' <;> grind
  · intro hG
    cases hstate : s.bleState <;> constructor <;> grind

theorem bleTimeout_agrees_iff {err : Bool} (h : Inv s) (ha : Agrees s)
    (hqueued : s.bleWork = true) :
    Agrees (bleTimeout { s with bleWork := false } err) ↔ Unhaunted s (.bleTimeout err) := by
  have hcur := ha.current
  have h' : Inv { s with bleWork := false } := ⟨h.adv, h.scan, fun _ hw => (nomatch hw)⟩
  unfold bleTimeout Unhaunted
  by_cases hcancel : s.connectCanceled = true
  · simp only [if_pos hcancel]
    exact cancelConnect_agrees_iff h' rfl hcur
  · simp only [if_neg hcancel]
    by_cases hdis : s.bleState = .disconnected
    · -- The work of an earlier connection ends: from here on nothing is pending.
      have hconn := h.left hdis hqueued
      have hadv : s.advertising = false := by
        have := h.adv
        grind
      simp only [hdis]
      refine ⟨fun hidle _ => (hidle.idle rfl rfl).1, fun hscan => ⟨fun _ _ => ?_, ?_⟩⟩
      · exact ⟨hscan trivial, hadv, hconn⟩
      · exact fun hcon => nomatch hcon
    · refine ⟨fun _ hd => absurd hd hdis, fun _ => ?_⟩
      constructor <;> grind

theorem agrees_step_iff {e : Event} (h : Inv s) (he : Possible s e) (ha : Agrees s) :
    Agrees (step s e) ↔ Unhaunted s e := by
  cases e with
  | bleConnect =>
    refine ⟨fun _ => trivial, fun _ => ?_⟩
    simp only [step, bleConnect]
    split
    · exact ha
    · exact ⟨fun hdis => (nomatch hdis), fun hcon => (nomatch hcon)⟩
  | bleCancelConnect =>
    obtain ⟨hadv, hscan, hleft⟩ := h
    obtain ⟨hidle, hcur⟩ := ha
    simp only [step, bleCancelConnect, Unhaunted]
    constructor
    · rintro ⟨hidle', hcur'⟩
      grind
    · intro hG
      constructor <;> grind
  | bleTimeout err => exact bleTimeout_agrees_iff h ha he
  | deviceFound created =>
    refine ⟨fun _ => trivial, fun _ => ?_⟩
    obtain ⟨hadv, hscan, hleft⟩ := h
    obtain ⟨hidle, hcur⟩ := ha
    simp only [step, deviceFound, createConn]
    constructor <;> grind
  | connected conn err master => exact connected_agrees_iff ha
  | disconnected conn => exact disconnected_agrees_iff h ha

/-- Every run that the stack can give. -/
theorem link_agrees_iff_unhaunted {es : List Event} (he : Along step Possible bleInit es) :
    Always step Agrees bleInit es ↔ Along step Unhaunted bleInit es :=
  always_iff_along_of_along step (fun _ _ h he => inv_step h he)
    (fun _ _ h he ha => agrees_step_iff h he ha) inv_bleInit agrees_bleInit he

/-- A game over the scan, then one over the advertising. -/
theorem link_agrees_two_games :
    Along step Possible bleInit [.bleConnect, .bleTimeout false, .deviceFound (some 1),
      .connected 1 false true, .bleTimeout false, .disconnected 1, .bleConnect, .bleTimeout false,
      .bleTimeout false, .bleTimeout false, .connected 2 false false] ∧
    Always step Agrees bleInit [.bleConnect, .bleTimeout false, .deviceFound (some 1),
      .connected 1 false true, .bleTimeout false, .disconnected 1, .bleConnect, .bleTimeout false,
      .bleTimeout false, .bleTimeout false, .connected 2 false false] :=
  ⟨by decide, (link_agrees_iff_unhaunted (by decide)).mpr (by decide)⟩

/-- The cancelled attempt is left to itself. -/
theorem cancelled_attempt_keeps_reference :
    Along step Possible bleInit [.bleConnect, .bleTimeout false, .deviceFound (some 1),
      .bleCancelConnect, .bleTimeout false] ∧
    ¬ Always step Agrees bleInit [.bleConnect, .bleTimeout false, .deviceFound (some 1),
      .bleCancelConnect, .bleTimeout false] := by
  refine ⟨by decide, fun h => ?_⟩
  have hlast := (h.last.idle rfl rfl).2.2
  cases hlast

end Ble
end Pong
end ZephyrSamples
