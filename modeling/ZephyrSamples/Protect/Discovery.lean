import ZephyrSamples.Lib.Runs

/-!
# Discovery of the five services

The central's connections, one after the other, and the discovery on each of them.  `discover_cb`
counts the services found in a static that only an unsuccessful discovery resets, so the count is
that of the connection exactly as long as it reaches 5 at a fifth service and nowhere else.
-/

namespace ZephyrSamples
namespace Protect

open Runs

/-- A connection object of the stack. -/
abbrev Conn := Nat

inductive BtState where
  | down
  | idle
  | scanning
  | foundProtect
  | connected
  | disconnected
  deriving DecidableEq, Repr

/-- `discover_params`: `func` says whether `discover_cb` is still there, and the type whether it is
`BT_GATT_DISCOVER_PRIMARY`. -/
structure DiscoverParams where
  func : Bool
  uuid : Option Nat
  startHandle : Nat
  endHandle : Nat
  primary : Bool
  deriving DecidableEq, Repr

/-- The statics of `ble.c`, and of the stack: whether it scans, the attempt and the connection there
are, whether a discovery is under way, and the services it has found on the connection. -/
structure Central where
  btState : BtState
  discovered : Nat
  defaultConn : Option Conn
  params : DiscoverParams
  scanning : Bool
  attempt : Option Conn
  up : Option Conn
  asking : Bool
  foundHere : List Nat
  deriving DecidableEq, Repr

def gap : Nat := 0x1800

def gatt : Nat := 0x1801

def dis : Nat := 0x180a

def bas : Nat := 0x180f

def fitnessMachine : Nat := 0x1826

/-- `services[]` of `discover_cb` -/
def services : List Nat := [gap, gatt, dis, bas, fitnessMachine]

/-- After `ble_initialise`. -/
def init : Central where
  btState := .idle
  discovered := 0
  defaultConn := none
  params := { func := true, uuid := none, startHandle := 0x0001, endHandle := 0xffff,
              primary := false }
  scanning := false
  attempt := none
  up := none
  asking := false
  foundHere := []

/-- The events, with the stack's answers: `created` is the object `bt_conn_le_create` has made, if
it has, and `err` what `bt_le_scan_start` or `bt_gatt_discover` returns in the callback. -/
inductive Event where
  | startScan (err : Bool)
  | eirFound (created : Option Conn)
  | reconnect (created : Option Conn)
  | connectedCb (conn : Conn) (connErr err : Bool)
  | discoverCb (attr : Option Nat) (err : Bool)
  | disconnectedCb (conn : Conn) (err : Bool)
  deriving DecidableEq, Repr

def startScan (s : Central) (err : Bool) : Central :=
  if err then s else { s with scanning := true }

def connLeCreate (s : Central) : Option Conn → Central
  | none => s
  | some conn => { s with defaultConn := some conn, attempt := some conn }

/-- `eir_found` once the scan is stopped. -/
def eirFound (s : Central) (created : Option Conn) : Central :=
  connLeCreate { s with scanning := false } created

def reconnect (s : Central) (created : Option Conn) : Central := connLeCreate s created

def discoveryMatch (s : Central) (uuid : Nat) : Bool := s.params.uuid == some uuid

def discoverPrimary (s : Central) (reqd handle : Nat) (err : Bool) : Central :=
  { s with params := { s.params with uuid := some reqd, startHandle := handle, primary := true },
           asking := !err }

def connectedCb (s : Central) (conn : Conn) (connErr err : Bool) : Central :=
  if connErr then startScan { s with defaultConn := none } err
  else if s.defaultConn = some conn then discoverPrimary s gap 0x0001 err
  else s

/-- The service at `count` of the list is found: count it and ask for the next one. -/
def countService (s : Central) (count handle : Nat) (err : Bool) : Central :=
  let discovered := (s.discovered + 1) % 256
  let s := { s with discovered := discovered,
                    btState := if discovered = 5 then .foundProtect else s.btState }
  match services[count + 1]? with
  | some reqd => discoverPrimary s reqd handle err
  | none => s

def discoverCb (s : Central) (attr : Option Nat) (err : Bool) : Central :=
  match attr with
  | some handle =>
    match services.findIdx? (discoveryMatch s) with
    | some count => countService s count handle err
    | none => s
  | none =>
    { s with params := { func := false, uuid := none, startHandle := 0, endHandle := 0,
                         primary := false },
             discovered := 0 }

def disconnectedCb (s : Central) (conn : Conn) (err : Bool) : Central :=
  let s := { s with btState := .down }
  if s.defaultConn ≠ some conn then s else startScan { s with defaultConn := none } err

/-- What an event does, the stack's part first: an attempt ends, a discovery is answered, the
service it was for is found, a connection is gone. -/
def step (s : Central) : Event → Central
  | .startScan err => startScan s err
  | .eirFound created => eirFound s created
  | .reconnect created => reconnect s created
  | .connectedCb conn connErr err =>
    connectedCb { s with attempt := none, up := if connErr then s.up else some conn,
                         foundHere := [] } conn connErr err
  | .discoverCb attr err =>
    discoverCb { s with asking := false,
                        foundHere := if attr.isSome then s.foundHere ++ s.params.uuid.toList
                          else s.foundHere } attr err
  | .disconnectedCb conn err =>
    disconnectedCb { s with up := none, asking := false, foundHere := [] } conn err

/-- What the stack can report: one attempt or connection at a time, and the callback of a discovery
that is under way. -/
def Possible (s : Central) : Event → Prop
  | .startScan _ => True
  | .eirFound created => created = none ∨ s.attempt = none ∧ s.up = none
  | .reconnect created => created = none ∨ s.attempt = none ∧ s.up = none
  | .connectedCb conn _ _ => s.attempt = some conn
  | .discoverCb _ _ => s.asking = true ∧ s.params.func = true
  | .disconnectedCb conn _ => s.up = some conn

instance (s : Central) : ∀ e, Decidable (Possible s e)
  | .startScan _ => inferInstanceAs (Decidable True)
  | .eirFound created =>
    inferInstanceAs (Decidable (created = none ∨ s.attempt = none ∧ s.up = none))
  | .reconnect created =>
    inferInstanceAs (Decidable (created = none ∨ s.attempt = none ∧ s.up = none))
  | .connectedCb conn _ _ => inferInstanceAs (Decidable (s.attempt = some conn))
  | .discoverCb _ _ => inferInstanceAs (Decidable (s.asking = true ∧ s.params.func = true))
  | .disconnectedCb conn _ => inferInstanceAs (Decidable (s.up = some conn))

/-- The state tells that all five services have been found on the connection there is. -/
def TellsFound (s : Central) : Prop :=
  s.btState = .foundProtect ↔ s.up ≠ none ∧ ∀ uuid ∈ services, uuid ∈ s.foundHere

/-- A service found brings the count to 5 if it is the last one, and only then. -/
def CountsFifth (s : Central) : Event → Prop
  | .discoverCb (some _) _ => s.discovered = 4 ↔ s.params.uuid = some fitnessMachine
  | _ => True

instance (s : Central) : ∀ e, Decidable (CountsFifth s e)
  | .discoverCb (some _) _ =>
    inferInstanceAs (Decidable (s.discovered = 4 ↔ s.params.uuid = some fitnessMachine))
  | .discoverCb none _ => inferInstanceAs (Decidable True)
  | .startScan _ => inferInstanceAs (Decidable True)
  | .eirFound _ => inferInstanceAs (Decidable True)
  | .reconnect _ => inferInstanceAs (Decidable True)
  | .connectedCb _ _ _ => inferInstanceAs (Decidable True)
  | .disconnectedCb _ _ => inferInstanceAs (Decidable True)

instance (s : Central) : Decidable (TellsFound s) :=
  inferInstanceAs (Decidable (s.btState = .foundProtect ↔
    s.up ≠ none ∧ ∀ uuid ∈ services, uuid ∈ s.foundHere))

/-! ## One connection -/

/-- The services found on the connection are the first of the list, and the next one
is asked for. -/
structure Inv (s : Central) : Prop where
  here : ∃ k < 6, s.foundHere = services.take k
  asked : s.asking = true → ∃ k < 5, s.foundHere = services.take k ∧ s.params.uuid = services[k]?
  down : s.up = none → s.asking = false
  attempt : s.attempt ≠ none → s.up = none
  count : s.discovered < 256

theorem inv_init : Inv init where
  here := ⟨0, by omega, rfl⟩
  asked h := nomatch h
  down _ := rfl
  attempt _ := rfl
  count := by decide

theorem tellsFound_init : TellsFound init := by
  simp [TellsFound, init]

theorem mem_take_iff : ∀ k < 6, (∀ uuid ∈ services, uuid ∈ services.take k) ↔ k = 5 := by
  decide

theorem take_append : ∀ k < 5, services.take k ++ services[k]?.toList = services.take (k + 1) := by
  decide

theorem fifth_iff : ∀ k < 5, services[k]? = some fitnessMachine ↔ k = 4 := by
  decide

theorem findIdx_discoveryMatch {s : Central} {k : Nat} (hk : k < 5)
    (h : s.params.uuid = services[k]?) : services.findIdx? (discoveryMatch s) = some k := by
  have hlist : ∀ k < 5, services.findIdx? (fun uuid => services[k]? == some uuid) = some k := by
    decide
  have hmatch : discoveryMatch s = fun uuid => services[k]? == some uuid := by
    funext uuid
    rw [discoveryMatch, h]
  rw [hmatch, hlist k hk]

/-- What the callback for a service found leaves, on the `k`th service asked for. -/
theorem step_found {s : Central} {k : Nat} (handle : Nat) (err : Bool) (hk : k < 5)
    (hhere : s.foundHere = services.take k) (huuid : s.params.uuid = services[k]?) :
    let s' := step s (.discoverCb (some handle) err)
    s'.foundHere = services.take (k + 1) ∧ s'.up = s.up ∧ s'.attempt = s.attempt ∧
      (s'.asking = true → k < 4 ∧ s'.params.uuid = services[k + 1]?) ∧
      s'.discovered = (s.discovered + 1) % 256 ∧
      (s'.btState = .foundProtect ↔ (s.discovered + 1) % 256 = 5 ∨ s.btState = .foundProtect) := by
  have hfind :=
    findIdx_discoveryMatch (s := { s with asking := false, foundHere := services.take (k + 1) })
    hk huuid
  have hfound : s.foundHere ++ s.params.uuid.toList = services.take (k + 1) := by
    rw [hhere, huuid, take_append k hk]
  simp only [step, Option.isSome_some, if_true, hfound, discoverCb, hfind, countService]
  split
  · next reqd hreqd =>
    have hlast : k < 4 := by
      have hlt := (List.getElem?_eq_some_iff.mp hreqd).1
      have hlen : services.length = 5 := rfl
      omega
    refine ⟨rfl, rfl, rfl, fun _ => ⟨hlast, hreqd.symm⟩, rfl, ?_⟩
    simp only [discoverPrimary]
    split
    · next h5 => simp [h5]
    · next h5 => simp [h5]
  · refine ⟨rfl, rfl, rfl, fun h => (nomatch h), rfl, ?_⟩
    split
    · next h5 => simp [h5]
    · next h5 => simp [h5]

theorem Inv.startScan {s : Central} (h : Inv s) (err : Bool) : Inv (startScan s err) := by
  unfold Protect.startScan
  split
  · exact h
  · exact ⟨h.here, h.asked, h.down, h.attempt, h.count⟩

theorem Inv.dropDefault {s : Central} (h : Inv s) : Inv { s with defaultConn := none } :=
  ⟨h.here, h.asked, h.down, h.attempt, h.count⟩

theorem Inv.connLeCreate {s : Central} {created : Option Conn} (h : Inv s)
    (hfree : created = none ∨ s.attempt = none ∧ s.up = none) :
    Inv (connLeCreate s created) := by
  cases created with
  | none => exact h
  | some conn =>
    obtain ⟨-, hup⟩ := hfree.resolve_left (Option.some_ne_none conn)
    exact ⟨h.here, h.asked, h.down, fun _ => hup, h.count⟩

theorem inv_step {s : Central} {e : Event} (h : Inv s) (he : Possible s e) : Inv (step s e) := by
  cases e with
  | startScan err => exact h.startScan err
  | eirFound created =>
    have h' : Inv { s with scanning := false } := ⟨h.here, h.asked, h.down, h.attempt, h.count⟩
    exact h'.connLeCreate he
  | reconnect created => exact h.connLeCreate he
  | connectedCb conn connErr err =>
    have hask : s.asking = false := h.down (h.attempt (by rw [he]; exact Option.some_ne_none conn))
    have hhere : ∃ k < 6, ([] : List Nat) = services.take k := ⟨0, by omega, rfl⟩
    cases connErr with
    | true =>
      have h' : Inv { s with attempt := none, foundHere := [], defaultConn := none } :=
        ⟨hhere, fun ha => absurd ha (by rw [hask]; decide), h.down, fun hne => absurd rfl hne,
          h.count⟩
      exact h'.startScan err
    | false =>
      simp only [step, connectedCb, Bool.false_eq_true, if_false]
      split
      · exact ⟨hhere, fun _ => ⟨0, by omega, rfl, rfl⟩, fun hup => (nomatch hup),
          fun hne => absurd rfl hne, h.count⟩
      · exact ⟨hhere, fun ha => absurd ha (by simp [hask]), fun hup => (nomatch hup),
          fun hne => absurd rfl hne, h.count⟩
  | discoverCb attr err =>
    cases attr with
    | some handle =>
      obtain ⟨k, hk, hhere, huuid⟩ := h.asked he.1
      obtain ⟨hhere', hup, hattempt, hask, hcount, -⟩ :=
        step_found handle err hk hhere huuid
      refine ⟨⟨k + 1, by omega, hhere'⟩, fun ha => ?_, fun hdown => ?_, ?_, ?_⟩
      · obtain ⟨hlast, hnext⟩ := hask ha
        exact ⟨k + 1, by omega, hhere', hnext⟩
      · rw [hup] at hdown
        exact absurd he.1 (by rw [h.down hdown]; decide)
      · rw [hup, hattempt]
        exact h.attempt
      · rw [hcount]
        exact Nat.mod_lt _ (by omega)
    | none =>
      have hcount : 0 < 256 := by omega
      exact ⟨h.here, fun ha => (nomatch ha), fun _ => rfl, h.attempt, hcount⟩
  | disconnectedCb conn err =>
    have hgone : Inv { s with up := none, asking := false, foundHere := [], btState := .down } :=
      ⟨⟨0, by omega, rfl⟩, fun ha => (nomatch ha), fun _ => rfl, fun _ => rfl, h.count⟩
    simp only [step, disconnectedCb]
    split
    · exact hgone
    · exact hgone.dropDefault.startScan err

/-! ## Every run -/

theorem tellsFound_of_not {s : Central} (hstate : s.btState ≠ .foundProtect)
    (hnot : ¬ (s.up ≠ none ∧ ∀ uuid ∈ services, uuid ∈ s.foundHere)) : TellsFound s :=
  ⟨fun h => absurd h hstate, fun h => absurd h hnot⟩

theorem not_all_nil : ¬ ∀ uuid ∈ services, uuid ∈ ([] : List Nat) := by
  decide

theorem TellsFound.startScan {s : Central} (h : TellsFound s) (err : Bool) :
    TellsFound (startScan s err) := by
  unfold Protect.startScan
  split
  · exact h
  · exact h

theorem TellsFound.connLeCreate {s : Central} (h : TellsFound s) (created : Option Conn) :
    TellsFound (connLeCreate s created) := by
  cases created with
  | none => exact h
  | some conn => exact h

theorem found_tellsFound_iff {s : Central} {handle : Nat} {err : Bool} (h : Inv s)
    (he : Possible s (.discoverCb (some handle) err)) (ht : TellsFound s) :
    TellsFound (step s (.discoverCb (some handle) err)) ↔
      (s.discovered = 4 ↔ s.params.uuid = some fitnessMachine) := by
  obtain ⟨k, hk, hhere, huuid⟩ := h.asked he.1
  obtain ⟨hhere', hup, -, -, -, hstate⟩ :=
    step_found handle err hk hhere huuid
  have hconn : s.up ≠ none := fun hdown => absurd he.1 (by rw [h.down hdown]; decide)
  have hnot : s.btState ≠ .foundProtect := by
    intro hfound
    obtain ⟨-, hall⟩ := ht.mp hfound
    rw [hhere, mem_take_iff k (by omega)] at hall
    omega
  have hcount : (s.discovered + 1) % 256 = 5 ↔ s.discovered = 4 := by
    have hlt := h.count
    omega
  unfold TellsFound
  rw [hstate, hup, hhere', mem_take_iff (k + 1) (by omega), huuid, fifth_iff k hk, hcount]
  constructor
  · intro hiff
    constructor
    · intro h4
      have := (hiff.mp (.inl h4)).2
      omega
    · intro hk4
      have hfull : s.up ≠ none ∧ k + 1 = 5 := ⟨hconn, by omega⟩
      exact (hiff.mpr hfull).resolve_right hnot
  · intro hiff
    constructor
    · intro hor
      have hk4 := hiff.mp (hor.resolve_right hnot)
      exact ⟨hconn, by omega⟩
    · rintro ⟨-, hk5⟩
      exact .inl (hiff.mpr (by omega))

theorem tellsFound_step_iff {s : Central} {e : Event} (h : Inv s) (he : Possible s e)
    (ht : TellsFound s) : TellsFound (step s e) ↔ CountsFifth s e := by
  cases e with
  | startScan err => exact ⟨fun _ => trivial, fun _ => ht.startScan err⟩
  | eirFound created =>
    have ht' : TellsFound { s with scanning := false } := ht
    exact ⟨fun _ => trivial, fun _ => ht'.connLeCreate created⟩
  | reconnect created => exact ⟨fun _ => trivial, fun _ => ht.connLeCreate created⟩
  | connectedCb conn connErr err =>
    refine ⟨fun _ => trivial, fun _ => ?_⟩
    have hdown : s.up = none := h.attempt (by rw [he]; exact Option.some_ne_none conn)
    have hstate : s.btState ≠ .foundProtect := fun hfound => (ht.mp hfound).1 hdown
    cases connErr with
    | true =>
      have ht' : TellsFound { s with attempt := none, foundHere := [], defaultConn := none } :=
        tellsFound_of_not hstate fun hall => not_all_nil hall.2
      exact ht'.startScan err
    | false =>
      simp only [step, connectedCb, Bool.false_eq_true, if_false]
      split
      · exact tellsFound_of_not hstate fun hall => not_all_nil hall.2
      · exact tellsFound_of_not hstate fun hall => not_all_nil hall.2
  | discoverCb attr err =>
    cases attr with
    | some handle => exact found_tellsFound_iff h he ht
    | none => exact ⟨fun _ => trivial, fun _ => ht⟩
  | disconnectedCb conn err =>
    refine ⟨fun _ => trivial, fun _ => ?_⟩
    have hdown : BtState.down ≠ .foundProtect := by decide
    simp only [step, disconnectedCb]
    split
    · exact tellsFound_of_not hdown fun hall => hall.1 rfl
    · exact TellsFound.startScan (tellsFound_of_not hdown fun hall => hall.1 rfl) err

/-- Any number of connections, complete or interrupted. -/
theorem tellsFound_iff_countsFifth {es : List Event} (he : Along step Possible init es) :
    Always step TellsFound init es ↔ Along step CountsFifth init es :=
  always_iff_along_of_along step (fun _ _ h he => inv_step h he)
    (fun _ _ h he ht => tellsFound_step_iff h he ht) inv_init tellsFound_init he

/-- A connection that finds nothing, and one that finds a service. -/
theorem tellsFound_short_connections :
    Along step Possible init [.startScan false, .eirFound (some 1), .connectedCb 1 false false,
      .disconnectedCb 1 false, .eirFound (some 1), .connectedCb 1 false false,
      .discoverCb (some 1) false] ∧
    Always step TellsFound init [.startScan false, .eirFound (some 1), .connectedCb 1 false false,
      .disconnectedCb 1 false, .eirFound (some 1), .connectedCb 1 false false,
      .discoverCb (some 1) false] :=
  ⟨by decide, (tellsFound_iff_countsFifth (by decide)).mpr (by decide)⟩

/-- A connection drops after its first service; the next one tells found at its fourth. -/
theorem interrupted_discovery_counts :
    Along step Possible init [.eirFound (some 1), .connectedCb 1 false false,
      .discoverCb (some 1) false, .disconnectedCb 1 false, .eirFound (some 2),
      .connectedCb 2 false false, .discoverCb (some 1) false, .discoverCb (some 9) false,
      .discoverCb (some 14) false, .discoverCb (some 22) false] ∧
    ¬ Always step TellsFound init [.eirFound (some 1), .connectedCb 1 false false,
      .discoverCb (some 1) false, .disconnectedCb 1 false, .eirFound (some 2),
      .connectedCb 2 false false, .discoverCb (some 1) false, .discoverCb (some 9) false,
      .discoverCb (some 14) false, .discoverCb (some 22) false] := by
  refine ⟨by decide, fun h => ?_⟩
  have hlast := h.last
  revert hlast
  decide

end Protect
end ZephyrSamples
