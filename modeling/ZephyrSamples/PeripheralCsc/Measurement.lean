import Mathlib.Algebra.Group.Nat.Defs
import ZephyrSamples.Lib.Runs

/-!
# The measurements of the cycling speed sample

The control point, the simulation tick and the notification it sends.  A block of a notification is
absent when its counter is passed as 0.  At every 64th tick, and at the very first, the event times
start again from 0 behind the notification; between two notifications of a counter there is
otherwise one step of its event time and one of the counter itself. -/

namespace ZephyrSamples
namespace PeripheralCsc

open Runs

abbrev Byte := BitVec 8

/-- The statics of `main.c`, with the `i` of `csc_simulation`. -/
structure State where
  cwr : BitVec 32
  sensorLocation : Byte
  ctrlPointConfigured : Bool
  lwet : BitVec 16
  ccr : BitVec 16
  lcet : BitVec 16
  i : Byte

def State.init : State :=
  { cwr := 0, sensorLocation := 0, ctrlPointConfigured := false, lwet := 0, ccr := 0, lcet := 0
    i := 0 }

/-! ## The control point -/

def cscLocOther : Byte := 0x00
def cscLocFrontWheel : Byte := 0x04
def cscLocLeftCrank : Byte := 0x05
def cscLocRightCrank : Byte := 0x06
def cscLocRearWheel : Byte := 0x0c

/-- `CSC_SUPPORTED_LOCATIONS` -/
def supportedLocations : List Byte :=
  [cscLocOther, cscLocFrontWheel, cscLocRearWheel, cscLocLeftCrank, cscLocRightCrank]

def scCpOpSetCwr : Byte := 0x01
def scCpOpUpdateLoc : Byte := 0x03
def scCpOpReqSuppLoc : Byte := 0x04
def scCpOpResponse : Byte := 0x10

def scCpRspSuccess : Byte := 0x01
def scCpRspOpNotSupp : Byte := 0x02
def scCpRspInvalParam : Byte := 0x03

inductive AttErr where
  | cccConfig
  | invalidAttributeLen
  deriving DecidableEq, Repr

/-- `sys_le32_to_cpu` of four bytes. -/
def le32 (b0 b1 b2 b3 : Byte) : BitVec 32 := b3 ++ b2 ++ b1 ++ b0

def le16 (b0 b1 : Byte) : BitVec 16 := b1 ++ b0

/-- What a write of the control point comes to: its result, the state, and the indication. -/
structure CtrlPointResult where
  ret : Except AttErr Nat
  state : State
  indication : Option (List Byte)

/-- `ctrl_point_ind` -/
def ctrlPointInd (reqOp status : Byte) (data : List Byte) : List Byte :=
  [scCpOpResponse, reqOp, status] ++ data

/-- SC_CP_OP_SET_CWR: the status and the state. -/
def setCwr (s : State) : List Byte → Byte × State
  | [b0, b1, b2, b3] => (scCpRspSuccess, { s with cwr := le32 b0 b1 b2 b3 })
  | _ => (scCpRspInvalParam, s)

/-- SC_CP_OP_UPDATE_LOC: the status and the state. -/
def updateLoc (s : State) : List Byte → Byte × State
  | [location] =>
    if location = s.sensorLocation then (scCpRspSuccess, s)
    else if location ∈ supportedLocations then
      (scCpRspSuccess, { s with sensorLocation := location })
    else (scCpRspInvalParam, s)
  | _ => (scCpRspInvalParam, s)

def writeCtrlPoint (s : State) (buf : List Byte) : CtrlPointResult :=
  if s.ctrlPointConfigured = false then
    { ret := .error .cccConfig, state := s, indication := none }
  else
    match buf with
    | [] => { ret := .error .invalidAttributeLen, state := s, indication := none }
    | op :: rest =>
      if op = scCpOpReqSuppLoc ∧ rest = [] then
        { ret := .ok buf.length, state := s
          indication := some (ctrlPointInd op scCpRspSuccess supportedLocations) }
      else
        let (status, s) :=
          if op = scCpOpSetCwr then setCwr s rest
          else if op = scCpOpUpdateLoc then updateLoc s rest
          else if op = scCpOpReqSuppLoc then (scCpRspInvalParam, s)
          else (scCpRspOpNotSupp, s)
        { ret := .ok buf.length, state := s, indication := some (ctrlPointInd op status []) }

/-! ## The notification -/

def toLe16 (x : BitVec 16) : List Byte := [x.setWidth 8, (x >>> 8).setWidth 8]

def toLe32 (x : BitVec 32) : List Byte :=
  [x.setWidth 8, (x >>> 8).setWidth 8, (x >>> 16).setWidth 8, (x >>> 24).setWidth 8]

/-- CSC_WHEEL_REV_DATA_PRESENT -/
def wheelPresent : Byte := 1#8 <<< 0

/-- CSC_CRANK_REV_DATA_PRESENT -/
def crankPresent : Byte := 1#8 <<< 1

/-- What `measurement_nfy` sends. -/
def measurementNfy (cwr : BitVec 32) (lwet ccr lcet : BitVec 16) : List Byte :=
  let flags := (if cwr ≠ 0 then wheelPresent else 0) ||| (if ccr ≠ 0 then crankPresent else 0)
  [flags] ++ (if cwr ≠ 0 then toLe32 cwr ++ toLe16 lwet else [])
    ++ (if ccr ≠ 0 then toLe16 ccr ++ toLe16 lcet else [])

/-- A counter and its event time. -/
structure Block (w : Nat) where
  revolutions : BitVec w
  eventTime : BitVec 16
  deriving DecidableEq, Repr

/-- The wheel block of a notification, and what follows it. -/
def parseWheel : List Byte → Option (Block 32 × List Byte)
  | b0 :: b1 :: b2 :: b3 :: t0 :: t1 :: rest => some (⟨le32 b0 b1 b2 b3, le16 t0 t1⟩, rest)
  | _ => none

def parseCrank : List Byte → Option (Block 16 × List Byte)
  | b0 :: b1 :: t0 :: t1 :: rest => some (⟨le16 b0 b1, le16 t0 t1⟩, rest)
  | _ => none

/-- A block that is read if its flag is set. -/
def parseIf {α : Type} (present : Bool) (parse : List Byte → Option (α × List Byte))
    (bytes : List Byte) : Option (Option α × List Byte) :=
  if present then (parse bytes).map fun r => (some r.1, r.2) else some (none, bytes)

/-- What the flags announce, if the notification has exactly these bytes. -/
def parseNfy : List Byte → Option (Option (Block 32) × Option (Block 16))
  | [] => none
  | flags :: data =>
    match parseIf (flags &&& wheelPresent ≠ 0) parseWheel data with
    | none => none
    | some (wheel, data) =>
      match parseIf (flags &&& crankPresent ≠ 0) parseCrank data with
      | some (crank, []) => some (wheel, crank)
      | _ => none

/-! ## The simulation -/

/-- A tick updates the wheel. -/
def State.Wheel (s : State) : Prop := s.i % 2 = 0

/-- A tick updates the crank. -/
def State.Crank (s : State) : Prop := s.i % 3 = 0

/-- A tick starts the event times again. -/
def State.Resets (s : State) : Prop := s.i % 64 = 0

instance (s : State) : Decidable s.Wheel := inferInstanceAs (Decidable (_ = _))
instance (s : State) : Decidable s.Crank := inferInstanceAs (Decidable (_ = _))
instance (s : State) : Decidable s.Resets := inferInstanceAs (Decidable (_ = _))

def State.turnWheel (s : State) (rand : BitVec 32) : State :=
  if s.Wheel then { s with lwet := s.lwet + (1050 + rand % 50).setWidth 16, cwr := s.cwr + 2 }
  else s

def State.turnCrank (s : State) (rand : BitVec 32) : State :=
  if s.Crank then { s with lcet := s.lcet + (1000 + rand % 50).setWidth 16, ccr := s.ccr + 1 }
  else s

/-- The counters and times of a tick, as they are when it notifies. -/
def State.updated (s : State) (rand : BitVec 32) : State := (s.turnWheel rand).turnCrank rand

/-- The notification of a tick. -/
def State.notification (s : State) (rand : BitVec 32) : List Byte :=
  let t := s.updated rand
  measurementNfy (if s.Wheel then t.cwr else 0) (if s.Wheel then t.lwet else 0)
    (if s.Crank then t.ccr else 0) (if s.Crank then t.lcet else 0)

/-- The end of a tick. -/
def State.rolled (s : State) : State :=
  let s := if s.Resets then { s with lcet := 0, lwet := 0, i := 0 } else s
  { s with i := s.i + 1 }

def cscSimulation (s : State) (rand : BitVec 32) : State := (s.updated rand).rolled

/-- A write of the control point, a change of its configuration, or a tick. -/
inductive Event where
  | write (buf : List Byte)
  | ccc (indicate : Bool)
  | tick (rand : BitVec 32)

def step (s : State) : Event → State
  | .write buf => (writeCtrlPoint s buf).state
  | .ccc indicate => { s with ctrlPointConfigured := indicate }
  | .tick rand => cscSimulation s rand

/-! ## What a notification says -/

/-- A byte in front of a number. -/
theorem toNat_append_byte {w : Nat} (x : BitVec w) (b : Byte) :
    (x ++ b).toNat = 256 * x.toNat + b.toNat := by
  have hb := b.isLt
  rw [BitVec.toNat_append, ← Nat.shiftLeft_add_eq_or_of_lt hb, Nat.shiftLeft_eq]
  omega

theorem toNat_byteOf {w : Nat} (x : BitVec w) (k : Nat) :
    ((x >>> k).setWidth 8).toNat = x.toNat / 2 ^ k % 256 := by
  rw [BitVec.toNat_setWidth, BitVec.toNat_ushiftRight, Nat.shiftRight_eq_div_pow]

theorem le16_toLe16 (x : BitVec 16) : le16 (x.setWidth 8) ((x >>> 8).setWidth 8) = x := by
  have hx := x.isLt
  apply BitVec.eq_of_toNat_eq
  rw [le16, toNat_append_byte, toNat_byteOf, BitVec.toNat_setWidth]
  omega

theorem le32_toLe32 (x : BitVec 32) :
    le32 (x.setWidth 8) ((x >>> 8).setWidth 8) ((x >>> 16).setWidth 8) ((x >>> 24).setWidth 8)
      = x := by
  have hx := x.isLt
  apply BitVec.eq_of_toNat_eq
  rw [le32, toNat_append_byte, toNat_append_byte, toNat_append_byte, toNat_byteOf, toNat_byteOf,
    toNat_byteOf, BitVec.toNat_setWidth]
  omega

theorem parseWheel_append (cwr : BitVec 32) (lwet : BitVec 16) (rest : List Byte) :
    parseWheel (toLe32 cwr ++ toLe16 lwet ++ rest) = some (⟨cwr, lwet⟩, rest) := by
  show some (Block.mk (le32 _ _ _ _) (le16 _ _), rest) = _
  rw [le32_toLe32, le16_toLe16]

theorem parseCrank_append (ccr lcet : BitVec 16) (rest : List Byte) :
    parseCrank (toLe16 ccr ++ toLe16 lcet ++ rest) = some (⟨ccr, lcet⟩, rest) := by
  show some (Block.mk (le16 _ _) (le16 _ _), rest) = _
  rw [le16_toLe16, le16_toLe16]

/-- A notification is read by its flags to its end, and gives back what was passed with a counter
other than 0. -/
theorem parseNfy_measurementNfy (cwr : BitVec 32) (lwet ccr lcet : BitVec 16) :
    parseNfy (measurementNfy cwr lwet ccr lcet) =
      some (if cwr ≠ 0 then some ⟨cwr, lwet⟩ else none,
        if ccr ≠ 0 then some ⟨ccr, lcet⟩ else none) := by
  have hcrank := parseCrank_append ccr lcet []
  rw [List.append_nil] at hcrank
  by_cases hw : cwr = 0 <;> by_cases hc : ccr = 0 <;>
    simp only [measurementNfy, hw, hc, ne_eq, not_true, not_false_iff, if_true, if_false,
      List.append_nil, List.nil_append, List.cons_append]
  · rfl
  · have hflags : (decide ((0 ||| crankPresent) &&& wheelPresent ≠ 0) = false) ∧
        decide ((0 ||| crankPresent) &&& crankPresent ≠ 0) = true := by decide
    simp only [parseNfy, parseIf, hflags, hcrank, Bool.false_eq_true, if_true, if_false,
      Option.map_some]
  · have hflags : (decide ((wheelPresent ||| 0) &&& wheelPresent ≠ 0) = true) ∧
        decide ((wheelPresent ||| 0) &&& crankPresent ≠ 0) = false := by decide
    have hwheel := parseWheel_append cwr lwet []
    rw [List.append_nil] at hwheel
    simp only [parseNfy, parseIf, hflags, hwheel, Bool.false_eq_true, if_true, if_false,
      Option.map_some]
  · have hflags : (decide ((wheelPresent ||| crankPresent) &&& wheelPresent ≠ 0) = true) ∧
        decide ((wheelPresent ||| crankPresent) &&& crankPresent ≠ 0) = true := by decide
    have hwheel := parseWheel_append cwr lwet (toLe16 ccr ++ toLe16 lcet)
    simp only [parseNfy, parseIf, hflags, hwheel, hcrank, if_true, Option.map_some]

/-! ## From one notification to the next -/

inductive Channel where
  | wheel
  | crank
  deriving DecidableEq, Repr

/-- A tick updates the channel. -/
def State.Updates (s : State) : Channel → Prop
  | .wheel => s.Wheel
  | .crank => s.Crank

instance (s : State) : (c : Channel) → Decidable (s.Updates c)
  | .wheel => inferInstanceAs (Decidable s.Wheel)
  | .crank => inferInstanceAs (Decidable s.Crank)

def State.eventTime (s : State) : Channel → BitVec 16
  | .wheel => s.lwet
  | .crank => s.lcet

/-- The smallest step of an event time. -/
def Channel.base : Channel → BitVec 32
  | .wheel => 1050
  | .crank => 1000

/-- The event is a tick that updates the channel. -/
def UpdateOf (c : Channel) (s : State) : Event → Prop
  | .tick _ => s.Updates c
  | _ => False

instance (c : Channel) (s : State) : (e : Event) → Decidable (UpdateOf c s e)
  | .tick _ => inferInstanceAs (Decidable (s.Updates c))
  | .write _ | .ccc _ => inferInstanceAs (Decidable False)

/-- The event is a tick that starts the event times again. -/
def ResetTick (s : State) : Event → Prop
  | .tick _ => s.Resets
  | _ => False

instance (s : State) : (e : Event) → Decidable (ResetTick s e)
  | .tick _ => inferInstanceAs (Decidable s.Resets)
  | .write _ | .ccc _ => inferInstanceAs (Decidable False)

/-- The event is an accepted Set Cumulative Value. -/
def SetsCwr (s : State) : Event → Prop
  | .write buf => s.ctrlPointConfigured = true ∧ buf.head? = some scCpOpSetCwr ∧ buf.length = 5
  | _ => False

/-- What turning the wheel does. -/
theorem turnWheel_spec (s : State) (rand : BitVec 32) :
    (s.turnWheel rand).lwet = s.lwet + (if s.Wheel then (1050 + rand % 50).setWidth 16 else 0) ∧
      (s.turnWheel rand).cwr = s.cwr + (if s.Wheel then 2 else 0) ∧
      (s.turnWheel rand).lcet = s.lcet ∧ (s.turnWheel rand).ccr = s.ccr ∧
      (s.turnWheel rand).i = s.i := by
  unfold State.turnWheel
  by_cases h : s.Wheel
  · simp only [if_pos h, and_self]
  · simp only [if_neg h, and_true]
    exact ⟨(BitVec.add_zero _).symm, (BitVec.add_zero _).symm⟩

theorem turnCrank_spec (s : State) (rand : BitVec 32) :
    (s.turnCrank rand).lcet = s.lcet + (if s.Crank then (1000 + rand % 50).setWidth 16 else 0) ∧
      (s.turnCrank rand).ccr = s.ccr + (if s.Crank then 1 else 0) ∧
      (s.turnCrank rand).lwet = s.lwet ∧ (s.turnCrank rand).cwr = s.cwr ∧
      (s.turnCrank rand).i = s.i := by
  unfold State.turnCrank
  by_cases h : s.Crank
  · simp only [if_pos h, and_self]
  · simp only [if_neg h, and_true]
    exact ⟨(BitVec.add_zero _).symm, (BitVec.add_zero _).symm⟩

theorem crank_turnWheel (s : State) (rand : BitVec 32) : (s.turnWheel rand).Crank ↔ s.Crank := by
  rw [State.Crank, State.Crank, (turnWheel_spec s rand).2.2.2.2]

/-- What a tick has done when it notifies. -/
theorem updated_spec (s : State) (rand : BitVec 32) :
    (s.updated rand).lwet = s.lwet + (if s.Wheel then (1050 + rand % 50).setWidth 16 else 0) ∧
      (s.updated rand).cwr = s.cwr + (if s.Wheel then 2 else 0) ∧
      (s.updated rand).lcet = s.lcet + (if s.Crank then (1000 + rand % 50).setWidth 16 else 0) ∧
      (s.updated rand).ccr = s.ccr + (if s.Crank then 1 else 0) ∧
      (s.updated rand).i = s.i := by
  obtain ⟨hlwet, hcwr, hlcet, hccr, hi⟩ := turnWheel_spec s rand
  obtain ⟨hlcet', hccr', hlwet', hcwr', hi'⟩ := turnCrank_spec (s.turnWheel rand) rand
  simp only [crank_turnWheel] at hlcet' hccr'
  unfold State.updated
  rw [hlwet', hcwr', hlcet', hccr', hi', hlwet, hcwr, hlcet, hccr, hi]
  exact ⟨rfl, rfl, rfl, rfl, rfl⟩

theorem updated_eventTime (s : State) (c : Channel) (rand : BitVec 32) :
    (s.updated rand).eventTime c
      = s.eventTime c + if s.Updates c then (c.base + rand % 50).setWidth 16 else 0 := by
  cases c with
  | wheel => exact (updated_spec s rand).1
  | crank => exact (updated_spec s rand).2.2.1

/-- A step of an event time, as a number. -/
theorem toNat_eventStep (c : Channel) (rand : BitVec 32) :
    ((c.base + rand % 50).setWidth 16).toNat = c.base.toNat + rand.toNat % 50 := by
  have hrand : (rand % 50).toNat = rand.toNat % 50 := BitVec.toNat_umod
  have hbase : c.base.toNat ≤ 1050 := by cases c <;> decide
  rw [BitVec.toNat_setWidth, BitVec.toNat_add, hrand]
  omega

/-- The event times behind a tick. -/
theorem cscSimulation_eventTime (s : State) (c : Channel) (rand : BitVec 32) :
    (cscSimulation s rand).eventTime c
      = if s.Resets then 0 else (s.updated rand).eventTime c := by
  have hresets : (s.updated rand).Resets ↔ s.Resets := by
    rw [State.Resets, State.Resets, (updated_spec s rand).2.2.2.2]
  unfold cscSimulation State.rolled
  by_cases h : s.Resets
  · rw [if_pos h, if_pos (hresets.mpr h)]
    cases c <;> rfl
  · rw [if_neg h, if_neg (mt hresets.mp h)]
    cases c <;> rfl

theorem cscSimulation_counters (s : State) (rand : BitVec 32) :
    (cscSimulation s rand).cwr = (s.updated rand).cwr ∧
      (cscSimulation s rand).ccr = (s.updated rand).ccr := by
  unfold cscSimulation State.rolled
  dsimp only
  split <;> exact ⟨rfl, rfl⟩

theorem setCwr_keeps (s : State) (rest : List Byte) (c : Channel) :
    (setCwr s rest).2.eventTime c = s.eventTime c ∧ (setCwr s rest).2.ccr = s.ccr ∧
      (rest.length ≠ 4 → (setCwr s rest).2.cwr = s.cwr) := by
  unfold setCwr
  split
  · exact ⟨by cases c <;> rfl, rfl, fun h => absurd rfl h⟩
  · exact ⟨rfl, rfl, fun _ => rfl⟩

theorem updateLoc_keeps (s : State) (rest : List Byte) (c : Channel) :
    (updateLoc s rest).2.eventTime c = s.eventTime c ∧ (updateLoc s rest).2.ccr = s.ccr ∧
      (updateLoc s rest).2.cwr = s.cwr := by
  unfold updateLoc
  split
  · split
    · exact ⟨rfl, rfl, rfl⟩
    · split
      · exact ⟨by cases c <;> rfl, rfl, rfl⟩
      · exact ⟨rfl, rfl, rfl⟩
  · exact ⟨rfl, rfl, rfl⟩

/-- What a write of the control point leaves as it is. -/
theorem writeCtrlPoint_keeps (s : State) (buf : List Byte) (c : Channel) :
    (writeCtrlPoint s buf).state.eventTime c = s.eventTime c ∧
      (writeCtrlPoint s buf).state.ccr = s.ccr ∧
      (¬ SetsCwr s (.write buf) → (writeCtrlPoint s buf).state.cwr = s.cwr) := by
  unfold writeCtrlPoint
  by_cases hconf : s.ctrlPointConfigured = false
  · rw [if_pos hconf]
    exact ⟨rfl, rfl, fun _ => rfl⟩
  rw [if_neg hconf]
  cases buf with
  | nil => exact ⟨rfl, rfl, fun _ => rfl⟩
  | cons op rest =>
    dsimp only
    by_cases hsupp : op = scCpOpReqSuppLoc ∧ rest = []
    · rw [if_pos hsupp]
      exact ⟨rfl, rfl, fun _ => rfl⟩
    rw [if_neg hsupp]
    by_cases hset : op = scCpOpSetCwr
    · obtain ⟨htime, hccr, hcwr⟩ := setCwr_keeps s rest c
      rw [if_pos hset]
      refine ⟨htime, hccr, fun hnot => hcwr fun hlen => hnot ?_⟩
      exact ⟨Bool.not_eq_false _ ▸ hconf, by rw [hset]; rfl, by rw [List.length_cons, hlen]⟩
    rw [if_neg hset]
    by_cases hloc : op = scCpOpUpdateLoc
    · obtain ⟨htime, hccr, hcwr⟩ := updateLoc_keeps s rest c
      rw [if_pos hloc]
      exact ⟨htime, hccr, fun _ => hcwr⟩
    · rw [if_neg hloc]
      split <;> exact ⟨rfl, rfl, fun _ => rfl⟩

/-- A step that is no update of the channel keeps its event time or starts it again. -/
theorem step_eventTime {s : State} {c : Channel} {e : Event} (h : ¬ UpdateOf c s e) :
    (step s e).eventTime c = if ResetTick s e then 0 else s.eventTime c := by
  cases e with
  | write buf => exact (writeCtrlPoint_keeps s buf c).1
  | ccc indicate => cases c <;> rfl
  | tick rand =>
    have hupdated : (s.updated rand).eventTime c = s.eventTime c := by
      rw [updated_eventTime, if_neg (show ¬ s.Updates c from h)]
      exact BitVec.add_zero _
    show (cscSimulation s rand).eventTime c = if s.Resets then 0 else _
    rw [cscSimulation_eventTime, hupdated]

theorem step_cwr {s : State} {e : Event} (h : ¬ UpdateOf .wheel s e) (hset : ¬ SetsCwr s e) :
    (step s e).cwr = s.cwr := by
  cases e with
  | write buf => exact (writeCtrlPoint_keeps s buf .wheel).2.2 hset
  | ccc indicate => rfl
  | tick rand =>
    have hno : ¬ s.Wheel := h
    show (cscSimulation s rand).cwr = _
    rw [(cscSimulation_counters s rand).1, (updated_spec s rand).2.1, if_neg hno]
    exact BitVec.add_zero _

theorem step_ccr {s : State} {e : Event} (h : ¬ UpdateOf .crank s e) : (step s e).ccr = s.ccr := by
  cases e with
  | write buf => exact (writeCtrlPoint_keeps s buf .crank).2.1
  | ccc indicate => rfl
  | tick rand =>
    have hno : ¬ s.Crank := h
    show (cscSimulation s rand).ccr = _
    rw [(cscSimulation_counters s rand).2, (updated_spec s rand).2.2.2.1, if_neg hno]
    exact BitVec.add_zero _

/-- The steps hold no update of the channel. -/
def Between (c : Channel) (s : State) (es : List Event) : Prop :=
  Along step (fun s e => ¬ UpdateOf c s e) s es

instance (c : Channel) (s : State) (es : List Event) : Decidable (Between c s es) :=
  inferInstanceAs (Decidable (Along step (fun s e => ¬ UpdateOf c s e) s es))

theorem run_eventTime {s : State} {c : Channel} {es : List Event} (h : Between c s es) :
    (run step s es).eventTime c = if Sometime step ResetTick s es then 0 else s.eventTime c := by
  induction es generalizing s with
  | nil => rfl
  | cons e es ih =>
    rw [run_cons, ih h.2, step_eventTime h.1]
    by_cases hrest : Sometime step ResetTick (step s e) es
    · rw [if_pos hrest, if_pos (show Sometime step ResetTick s (e :: es) from Or.inr hrest)]
    · rw [if_neg hrest]
      by_cases hfirst : ResetTick s e
      · rw [if_pos hfirst, if_pos (show Sometime step ResetTick s (e :: es) from Or.inl hfirst)]
      · have hnone : ¬ Sometime step ResetTick s (e :: es) := by
          rintro (hor | hor)
          · exact hfirst hor
          · exact hrest hor
        rw [if_neg hfirst, if_neg hnone]

theorem run_cwr {s : State} {es : List Event} (h : Between .wheel s es)
    (hset : Along step (fun s e => ¬ SetsCwr s e) s es) : (run step s es).cwr = s.cwr := by
  induction es generalizing s with
  | nil => rfl
  | cons e es ih => exact (ih h.2 hset.2).trans (step_cwr h.1 hset.1)

theorem run_ccr {s : State} {es : List Event} (h : Between .crank s es) :
    (run step s es).ccr = s.ccr := by
  induction es generalizing s with
  | nil => rfl
  | cons e es ih => exact (ih h.2).trans (step_ccr h.1)

/-- A step of 1050 to 1099, or of 1000 to 1049. -/
def InRange (c : Channel) (x : BitVec 16) : Prop :=
  c.base.toNat ≤ x.toNat ∧ x.toNat ≤ c.base.toNat + 49

theorem inRange_eventStep (c : Channel) (rand : BitVec 32) :
    InRange c ((c.base + rand % 50).setWidth 16) := by
  rw [InRange, toNat_eventStep]
  omega

/-- From one update of a channel to the next its event time makes a step, from 0 if it was started
again between them. -/
theorem eventTime_next {s : State} {c : Channel} (rand : BitVec 32) {mid : List Event}
    (hmid : Between c (cscSimulation s rand) mid) (rand' : BitVec 32)
    (ht : (run step (cscSimulation s rand) mid).Updates c) :
    if s.Resets ∨ Sometime step ResetTick (cscSimulation s rand) mid then
      InRange c (((run step (cscSimulation s rand) mid).updated rand').eventTime c)
    else
      InRange c (((run step (cscSimulation s rand) mid).updated rand').eventTime c
        - (s.updated rand).eventTime c) := by
  have hstep := inRange_eventStep c rand'
  rw [updated_eventTime, if_pos ht, run_eventTime hmid, cscSimulation_eventTime]
  by_cases hreset : s.Resets ∨ Sometime step ResetTick (cscSimulation s rand) mid
  · have hzero : (if Sometime step ResetTick (cscSimulation s rand) mid then 0
        else if s.Resets then 0 else (s.updated rand).eventTime c) = 0 := by
      rcases hreset with h | h
      · rw [if_pos h]
        split <;> rfl
      · rw [if_pos h]
    rw [if_pos hreset, hzero]
    show InRange c (0#16 + _)
    rw [BitVec.zero_add]
    exact hstep
  · rw [if_neg hreset, if_neg (fun h => hreset (Or.inr h)), if_neg (fun h => hreset (Or.inl h)),
      BitVec.add_comm, BitVec.add_sub_cancel]
    exact hstep

/-- A tick's notification is well formed.  It has no data of a counter the tick did not update, and
those of one that it did, unless that is 0 then. -/
def Reports (s : State) (rand : BitVec 32) : Prop :=
  ∃ wheel crank, parseNfy (s.notification rand) = some (wheel, crank) ∧
    (¬ s.Wheel → wheel = none) ∧ (¬ s.Crank → crank = none) ∧
    (s.Wheel → (s.updated rand).cwr ≠ 0 →
      wheel = some ⟨(s.updated rand).cwr, (s.updated rand).lwet⟩) ∧
    (s.Crank → (s.updated rand).ccr ≠ 0 →
      crank = some ⟨(s.updated rand).ccr, (s.updated rand).lcet⟩)

theorem reports (s : State) (rand : BitVec 32) : Reports s rand := by
  refine ⟨_, _, parseNfy_measurementNfy _ _ _ _, fun hno => ?_, fun hno => ?_, fun hw hne => ?_,
    fun hc hne => ?_⟩
  · rw [if_neg hno, if_neg (not_not_intro rfl)]
  · rw [if_neg hno, if_neg (not_not_intro rfl)]
  · rw [if_pos hw, if_pos hw, if_pos hne]
  · rw [if_pos hc, if_pos hc, if_pos hne]

/-- After any events, for a tick and the next that updates the same channel: what the first reports,
and the step of the event time and of the counter from one to the other. -/
theorem measurements (es : List Event) (rand : BitVec 32) (mid : List Event) (rand' : BitVec 32) :
    let s := run step .init es
    let t := run step (cscSimulation s rand) mid
    Reports s rand ∧
      (∀ c, s.Updates c → Between c (cscSimulation s rand) mid → t.Updates c →
        if s.Resets ∨ Sometime step ResetTick (cscSimulation s rand) mid then
          InRange c ((t.updated rand').eventTime c)
        else InRange c ((t.updated rand').eventTime c - (s.updated rand).eventTime c)) ∧
      (s.Wheel → Between .wheel (cscSimulation s rand) mid → t.Wheel →
        Along step (fun s e => ¬ SetsCwr s e) (cscSimulation s rand) mid →
        (t.updated rand').cwr = (s.updated rand).cwr + 2) ∧
      (s.Crank → Between .crank (cscSimulation s rand) mid → t.Crank →
        (t.updated rand').ccr = (s.updated rand).ccr + 1) := by
  intro s t
  refine ⟨reports s rand, fun c _ hmid ht => eventTime_next rand hmid rand' ht,
    fun _ hmid ht hset => ?_, fun _ hmid ht => ?_⟩
  · rw [(updated_spec t rand').2.1, if_pos ht, run_cwr hmid hset, (cscSimulation_counters s rand).1]
  · rw [(updated_spec t rand').2.2.2.1, if_pos ht, run_ccr hmid, (cscSimulation_counters s rand).2]

/-- The first two notifications of the wheel: the event time does not move, since the first tick
starts it again. -/
theorem eventTime_starts_again :
    ¬ ∀ (es : List Event) (rand : BitVec 32) (mid : List Event) (rand' : BitVec 32),
      let s := run step .init es
      let t := run step (cscSimulation s rand) mid
      s.Wheel → Between .wheel (cscSimulation s rand) mid → t.Wheel →
        InRange .wheel ((t.updated rand').lwet - (s.updated rand).lwet) := by
  intro h
  have hrange := h [] 0 [.tick 0] 0 (by decide) (by decide) (by decide)
  exact absurd hrange.1 (by decide)

/-- From the third to the fifth tick the wheel turns once. -/
theorem measurements_third_tick :
    InRange .wheel (((run step .init [.tick 0, .tick 0, .tick 7, .tick 0]).updated 9).lwet
        - ((run step .init [.tick 0, .tick 0]).updated 7).lwet) :=
  ((measurements [.tick 0, .tick 0] 7 [.tick 0] 9).2.1 .wheel (by decide) (by decide)
    (by decide) :)

end PeripheralCsc
end ZephyrSamples
