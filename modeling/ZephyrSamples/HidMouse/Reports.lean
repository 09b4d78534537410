import Mathlib.Logic.Function.Basic
import Mathlib.Algebra.Group.Nat.Defs
import Mathlib.Algebra.BigOperators.Group.List.Defs
import Mathlib.Algebra.Ring.Int.Defs
import Mathlib.Data.Int.Order.Basic
import ZephyrSamples.Lib.Runs

/-!
# The reports of the mouse sample

The handlers of the four inputs change `status[]` and wake `main`, which copies it to a report in
five statements.  A handler runs as a whole between any two of them.  The movement of an axis is
copied in one statement and cleared in the next, and is a signed number to the host; the deficit of
an axis is what these two lose, and it never falls. -/

namespace ZephyrSamples
namespace HidMouse

open Runs

abbrev Byte := BitVec 8

inductive Axis where
  | x
  | y
  deriving DecidableEq, Repr

inductive Button where
  | left
  | right
  deriving DecidableEq, Repr

inductive Input where
  | button (b : Button)
  | axis (a : Axis)
  deriving DecidableEq, Repr

/-- `status[]`, or a report, without the wheel that nothing writes. -/
structure Bytes where
  btn : Byte
  move : Axis → Byte

/-- The next access of `main` to `status[]`, or the call it is in. -/
inductive Pc where
  | take
  | copyBtn
  | copy (a : Axis)
  | clear (a : Axis)
  | write
  deriving DecidableEq, Repr

/-- `CONFIG_USB_DEVICE_REMOTE_WAKEUP`, and the levels the inputs had when they were configured. -/
structure Config where
  remoteWakeup : Bool
  defVal : Input → Byte

/-- `pressed`, `presses` and `waiting` are not part of the program: the inputs as they are, the
presses of each axis, and those of them that are in `status[]` for a copy to take. -/
structure State where
  pc : Pc
  sem : Bool
  suspended : Bool
  status : Bytes
  report : Bytes
  sent : List Bytes
  pressed : Button → Bool
  presses : Axis → Nat
  waiting : Axis → Nat

def Bytes.zero : Bytes := { btn := 0, move := fun _ => 0 }

/-- `main` in front of its loop, with every input at the level it was configured with. -/
def State.init : State :=
  { pc := .take, sem := false, suspended := false, status := .zero, report := .zero, sent := []
    pressed := fun _ => false, presses := fun _ => 0, waiting := fun _ => 0 }

/-! ## The handlers -/

/-- `MOUSE_BTN_LEFT` and `MOUSE_BTN_RIGHT` -/
def Button.bit : Button → Nat
  | .left => 0
  | .right => 1

def Button.mask (b : Button) : Byte := 1 <<< b.bit

/-- `k_sem_give` -/
def State.give (s : State) : State := { s with sem := true }

/-- The end of a button's handler: a change is stored and wakes `main`. -/
def State.storeBtn (s : State) (state : Byte) : State :=
  if s.status.btn ≠ state then { s with status := { s.status with btn := state } }.give else s

/-- The handler of a button, for what `gpio_pin_get` returns. -/
def buttonHandler (cfg : Config) (b : Button) (ret : Int) (s : State) : State :=
  if cfg.remoteWakeup = true ∧ s.suspended = true then s
  else if ret < 0 then s
  else
    s.storeBtn
      (if cfg.defVal (.button b) ≠ BitVec.ofInt 8 ret then s.status.btn ||| b.mask
       else s.status.btn &&& ~~~b.mask)

def leftButton (cfg : Config) : Int → State → State := buttonHandler cfg .left

def rightButton (cfg : Config) : Int → State → State := buttonHandler cfg .right

/-- The handler of an axis, for what `gpio_pin_get` returns. -/
def moveHandler (cfg : Config) (a : Axis) (ret : Int) (s : State) : State :=
  if ret < 0 then s
  else
    let state :=
      if cfg.defVal (.axis a) ≠ BitVec.ofInt 8 ret then s.status.move a + 10 else s.status.move a
    if s.status.move a ≠ state then
      { s with status := { s.status with move := Function.update s.status.move a state } }.give
    else s

def xMove (cfg : Config) : Int → State → State := moveHandler cfg .x

def yMove (cfg : Config) : Int → State → State := moveHandler cfg .y

def handler (cfg : Config) : Input → Int → State → State
  | .button .left => leftButton cfg
  | .button .right => rightButton cfg
  | .axis .x => xMove cfg
  | .axis .y => yMove cfg

/-! ## Steps -/

/-- What follows the clear of an axis. -/
def afterClear : Axis → Pc
  | .x => .copy .y
  | .y => .write

/-- One statement of `main`. -/
def mainStep (s : State) : State :=
  match s.pc with
  | .take => if s.sem = true then { s with sem := false, pc := .copyBtn } else s
  | .copyBtn => { s with report := { s.report with btn := s.status.btn }, pc := .copy .x }
  | .copy a =>
    { s with
      report := { s.report with move := Function.update s.report.move a (s.status.move a) }
      waiting := Function.update s.waiting a 0
      pc := .clear a }
  | .clear a =>
    { s with
      status := { s.status with move := Function.update s.status.move a 0 }
      pc := afterClear a }
  | .write => { s with sent := s.report :: s.sent, pc := .take }

/-- What `gpio_pin_get` returns: the level, or an error. -/
def gpioPinGet (level : Byte) : Option Nat → Int
  | none => level.toNat
  | some errno => -(errno + 1 : Nat)

/-- A statement of `main`, a change of the bus, or an edge at an input: its new level, and the error
if it cannot be read. -/
inductive Event where
  | main
  | bus (suspended : Bool)
  | edge (i : Input) (level : Byte) (error : Option Nat)

/-- The account of an edge, before its handler runs.  A press waits for a copy if the handler can
read the level and `main` is not about to clear the axis. -/
def account (cfg : Config) (s : State) (level : Byte) (error : Option Nat) : Input → State
  | .button b =>
    { s with pressed := Function.update s.pressed b (decide (cfg.defVal (.button b) ≠ level)) }
  | .axis a =>
    if cfg.defVal (.axis a) ≠ level then
      { s with
        presses := Function.update s.presses a (s.presses a + 1)
        waiting := if error = none ∧ s.pc ≠ .clear a then
            Function.update s.waiting a (s.waiting a + 1)
          else s.waiting }
    else s

def step (cfg : Config) (s : State) : Event → State
  | .main => mainStep s
  | .bus suspended => { s with suspended }
  | .edge i level error => handler cfg i (gpioPinGet level error) (account cfg s level error i)

/-! ### What a handler does -/

theorem ofInt_gpioPinGet (level : Byte) : BitVec.ofInt 8 (gpioPinGet level none) = level := by
  rw [gpioPinGet, BitVec.ofInt_natCast, BitVec.ofNat_toNat, BitVec.setWidth_eq]

theorem gpioPinGet_nonneg (level : Byte) : ¬ gpioPinGet level none < 0 :=
  Int.not_lt.mpr (Int.natCast_nonneg _)

theorem gpioPinGet_some_neg (level : Byte) (errno : Nat) : gpioPinGet level (some errno) < 0 := by
  rw [gpioPinGet]
  omega

theorem State.storeBtn_cases (s : State) (state : Byte) :
    s.storeBtn state = s ∨
      s.storeBtn state = { s with status := { s.status with btn := state }, sem := true } := by
  unfold storeBtn
  split
  · exact Or.inr rfl
  · exact Or.inl rfl

theorem State.storeBtn_btn (s : State) (state : Byte) : (s.storeBtn state).status.btn = state := by
  unfold storeBtn
  split
  · rfl
  · exact Classical.not_not.mp ‹_›

/-- The handler of a button leaves the state alone, or stores the buttons and wakes `main`. -/
theorem buttonHandler_cases (cfg : Config) (b : Button) (ret : Int) (s : State) :
    buttonHandler cfg b ret s = s ∨
      ∃ btn, buttonHandler cfg b ret s
        = { s with status := { s.status with btn }, sem := true } := by
  unfold buttonHandler
  split
  · exact Or.inl rfl
  · split
    · exact Or.inl rfl
    · exact (s.storeBtn_cases _).imp id (fun h => ⟨_, h⟩)

/-- What a handler that gets through stores. -/
theorem buttonHandler_btn {cfg : Config} {b : Button} {level : Byte} {s : State}
    (h : ¬ (cfg.remoteWakeup = true ∧ s.suspended = true)) :
    (buttonHandler cfg b (gpioPinGet level none) s).status.btn
      = if cfg.defVal (.button b) ≠ level then s.status.btn ||| b.mask
        else s.status.btn &&& ~~~b.mask := by
  rw [buttonHandler, if_neg h, if_neg (gpioPinGet_nonneg level), ofInt_gpioPinGet,
    State.storeBtn_btn]

theorem moveHandler_error (cfg : Config) (a : Axis) (level : Byte) (errno : Nat) (s : State) :
    moveHandler cfg a (gpioPinGet level (some errno)) s = s := by
  rw [moveHandler, if_pos (gpioPinGet_some_neg level errno)]

/-- A press always changes the accumulator. -/
theorem moveHandler_press {cfg : Config} {a : Axis} {level : Byte} (s : State)
    (h : cfg.defVal (.axis a) ≠ level) :
    moveHandler cfg a (gpioPinGet level none) s
      = { s with
          status := { s.status with
            move := Function.update s.status.move a (s.status.move a + 10) }
          sem := true } := by
  have hne : s.status.move a ≠ s.status.move a + 10 := by
    intro heq
    have hnat := congrArg BitVec.toNat heq
    have hlt := (s.status.move a).isLt
    rw [BitVec.toNat_add, show (10 : Byte).toNat = 10 from rfl] at hnat
    omega
  rw [moveHandler, if_neg (gpioPinGet_nonneg level), ofInt_gpioPinGet]
  dsimp only
  rw [if_pos h, if_pos hne]
  rfl

theorem moveHandler_release {cfg : Config} {a : Axis} {level : Byte} (s : State)
    (h : ¬ cfg.defVal (.axis a) ≠ level) : moveHandler cfg a (gpioPinGet level none) s = s := by
  rw [moveHandler, if_neg (gpioPinGet_nonneg level), ofInt_gpioPinGet]
  dsimp only
  rw [if_neg h, if_neg (not_not_intro rfl)]

/-- The edges of an axis: a press that waits, a press that is lost, and a release. -/
theorem step_axis (cfg : Config) (s : State) (a : Axis) (level : Byte) (error : Option Nat) :
    step cfg s (.edge (.axis a) level error) =
      if cfg.defVal (.axis a) ≠ level then
        match error with
        | none =>
          { s with
            status := { s.status with
              move := Function.update s.status.move a (s.status.move a + 10) }
            sem := true
            presses := Function.update s.presses a (s.presses a + 1)
            waiting := if s.pc ≠ .clear a then Function.update s.waiting a (s.waiting a + 1)
              else s.waiting }
        | some _ => { s with presses := Function.update s.presses a (s.presses a + 1) }
      else s := by
  have hhandler : ∀ t, handler cfg (.axis a) (gpioPinGet level error) t
      = moveHandler cfg a (gpioPinGet level error) t := by
    intro t
    cases a <;> rfl
  rw [step, hhandler, account]
  by_cases h : cfg.defVal (.axis a) ≠ level
  · rw [if_pos h, if_pos h]
    cases error with
    | none =>
      rw [moveHandler_press _ h]
      simp only [true_and]
    | some errno =>
      rw [moveHandler_error]
      simp only [reduceCtorEq, false_and, if_false]
  · rw [if_neg h, if_neg h]
    cases error with
    | none => exact moveHandler_release s h
    | some errno => exact moveHandler_error cfg a level errno s

/-- The edges of a button: the account, then a handler that keeps all but the buttons. -/
theorem step_button (cfg : Config) (s : State) (b : Button) (level : Byte) (error : Option Nat) :
    step cfg s (.edge (.button b) level error)
      = buttonHandler cfg b (gpioPinGet level error)
        { s with
          pressed := Function.update s.pressed b (decide (cfg.defVal (.button b) ≠ level)) } := by
  cases b <;> rfl

/-! ## The account of an axis -/

/-- The movement of the reports sent, as the host adds it up. -/
def State.reported (s : State) (a : Axis) : Int := (s.sent.map fun r => (r.move a).toInt).sum

/-- The movement has been copied and not been sent. -/
def inFlight : Pc → Axis → Bool
  | .clear .x, a | .copy .y, a => decide (a = .x)
  | .clear .y, _ | .write, _ => true
  | .take, _ | .copyBtn, _ | .copy .x, _ => false

/-- What the presses of an axis come to beyond what was sent, is being sent or waits for a copy. -/
def State.deficit (s : State) (a : Axis) : Int :=
  10 * s.presses a - s.reported a - (if inFlight s.pc a then (s.report.move a).toInt else 0)
    - 10 * s.waiting a

/-- What is in `status[]` is what waits for a copy; between the copy and the clear nothing does. -/
def Held (s : State) (a : Axis) : Prop :=
  if s.pc = .clear a then s.waiting a = 0
  else s.status.move a = BitVec.ofNat 8 (10 * s.waiting a)

/-- A press of the axis is read and does not come between the copy and the clear, and a copy takes
twelve presses at most. -/
def CarefulFor (cfg : Config) (a : Axis) (s : State) : Event → Prop
  | .main => s.pc = .copy a → s.waiting a ≤ 12
  | .edge (.axis b) level error =>
    b = a → cfg.defVal (.axis a) ≠ level → error = none ∧ s.pc ≠ .clear a
  | .edge (.button _) _ _ | .bus _ => True

instance instDecidableCarefulFor (cfg : Config) (a : Axis) (s : State) :
    ∀ e, Decidable (CarefulFor cfg a s e)
  | .main => inferInstanceAs (Decidable (s.pc = .copy a → s.waiting a ≤ 12))
  | .edge (.axis b) level error =>
    inferInstanceAs (Decidable
      (b = a → cfg.defVal (.axis a) ≠ level → error = none ∧ s.pc ≠ .clear a))
  | .edge (.button _) _ _ | .bus _ => inferInstanceAs (Decidable True)

/-- A byte of movement says at most what it was made of, and that up to twelve presses. -/
theorem toInt_ofNat_le (k : Nat) :
    (BitVec.ofNat 8 (10 * k)).toInt ≤ 10 * k ∧
      ((BitVec.ofNat 8 (10 * k)).toInt = 10 * k ↔ k ≤ 12) := by
  rw [BitVec.toInt_eq_toNat_cond, BitVec.toNat_ofNat]
  split <;> omega

/-- A state with the same account of an axis. -/
theorem account_congr {s t : State} {a : Axis} (hpc : s.pc = .clear a ↔ t.pc = .clear a)
    (hflight : inFlight s.pc a = inFlight t.pc a) (hstatus : s.status.move a = t.status.move a)
    (hreport : s.report.move a = t.report.move a) (hsent : s.sent = t.sent)
    (hpresses : s.presses a = t.presses a) (hwaiting : s.waiting a = t.waiting a) :
    (Held s a → Held t a) ∧ t.deficit a = s.deficit a := by
  constructor
  · intro h
    unfold Held at h ⊢
    by_cases hclear : s.pc = .clear a
    · rw [if_pos hclear] at h
      rw [if_pos (hpc.mp hclear), ← hwaiting, h]
    · rw [if_neg hclear] at h
      rw [if_neg (mt hpc.mpr hclear), ← hstatus, ← hwaiting, h]
  · rw [State.deficit, State.deficit, State.reported, State.reported, hflight, hreport, hsent,
      hpresses, hwaiting]

/-- A statement of `main` other than the copy of the axis keeps its account. -/
theorem mainStep_other {s : State} {a : Axis} (h : Held s a) (hcopy : s.pc ≠ .copy a) :
    Held (mainStep s) a ∧ (mainStep s).deficit a = s.deficit a := by
  have hkeep : ∀ {t : State}, (Held s a → Held t a) ∧ t.deficit a = s.deficit a →
      Held t a ∧ t.deficit a = s.deficit a := fun ht => ⟨ht.1 h, ht.2⟩
  unfold mainStep
  cases hpc : s.pc with
  | take =>
    dsimp only
    split
    · apply hkeep
      apply account_congr <;> simp [hpc, inFlight]
    · exact ⟨h, rfl⟩
  | copyBtn =>
    apply hkeep
    apply account_congr <;> simp [hpc, inFlight]
  | copy b =>
    have hab : a ≠ b := fun hab => hcopy (hab ▸ hpc)
    apply hkeep
    apply account_congr
    · simp [hpc, hab.symm]
    · cases a <;> cases b <;> simp_all [inFlight]
    · rfl
    · exact (Function.update_of_ne hab _ _).symm
    · rfl
    · rfl
    · exact (Function.update_of_ne hab _ _).symm
  | clear b =>
    have hflight : inFlight (.clear b) a = inFlight (afterClear b) a := by
      cases a <;> cases b <;> rfl
    have hnext : afterClear b ≠ .clear a := by
      cases b <;> nofun
    by_cases hab : a = b
    · subst hab
      rw [Held, if_pos hpc] at h
      constructor
      · rw [Held]
        dsimp only
        rw [if_neg hnext, Function.update_self, h]
        rfl
      · rw [State.deficit, State.deficit, State.reported, State.reported, hpc, hflight]
    · apply hkeep
      apply account_congr
      · simp [hpc, Ne.symm hab, hnext]
      · rw [hpc]
        exact hflight
      · exact (Function.update_of_ne hab _ _).symm
      · rfl
      · rfl
      · rfl
      · rfl
  | write =>
    rw [Held, if_neg (by rw [hpc]; nofun)] at h
    refine ⟨h, ?_⟩
    rw [State.deficit, State.deficit, hpc, State.reported, State.reported, List.map_cons,
      List.sum_cons]
    simp only [inFlight, if_true, Bool.false_eq_true, if_false]
    omega

/-- The copy of an axis takes what waits, and loses what a signed byte does not hold. -/
theorem mainStep_copy {s : State} {a : Axis} (h : Held s a) (hpc : s.pc = .copy a) :
    Held (mainStep s) a ∧ (mainStep s).deficit a
      = s.deficit a + (10 * s.waiting a - (BitVec.ofNat 8 (10 * s.waiting a)).toInt) := by
  rw [Held, if_neg (by rw [hpc]; nofun)] at h
  have hbefore : inFlight (.copy a) a = false := by cases a <;> rfl
  have hafter : inFlight (.clear a) a = true := by cases a <;> rfl
  unfold mainStep
  rw [hpc]
  constructor
  · rw [Held, if_pos rfl]
    exact Function.update_self _ _ _
  · rw [State.deficit, State.deficit, State.reported, State.reported, hpc, hbefore]
    dsimp only
    rw [hafter, Function.update_self, Function.update_self, h, if_pos rfl]
    simp only [Bool.false_eq_true, if_false]
    omega

theorem mainStep_axis {s : State} {a : Axis} (h : Held s a) :
    Held (mainStep s) a ∧ s.deficit a ≤ (mainStep s).deficit a ∧
      ((mainStep s).deficit a = s.deficit a ↔ (s.pc = .copy a → s.waiting a ≤ 12)) := by
  by_cases hcopy : s.pc = .copy a
  · obtain ⟨hheld, hdeficit⟩ := mainStep_copy h hcopy
    obtain ⟨hle, hiff⟩ := toInt_ofNat_le (s.waiting a)
    refine ⟨hheld, by omega, ?_⟩
    rw [hdeficit, forall_prop_of_true hcopy, ← hiff]
    omega
  · obtain ⟨hheld, hdeficit⟩ := mainStep_other h hcopy
    exact ⟨hheld, Int.le_of_eq hdeficit.symm, ⟨fun _ hpc => absurd hpc hcopy, fun _ => hdeficit⟩⟩

/-- A press of the axis that `main` will see. -/
theorem press_waits {s t : State} {a : Axis} (h : Held s a) (hclear : s.pc ≠ .clear a)
    (hpc : t.pc = s.pc) (hstatus : t.status.move a = s.status.move a + 10)
    (hreport : t.report = s.report) (hsent : t.sent = s.sent)
    (hpresses : t.presses a = s.presses a + 1) (hwaiting : t.waiting a = s.waiting a + 1) :
    Held t a ∧ t.deficit a = s.deficit a := by
  rw [Held, if_neg hclear] at h
  constructor
  · have hsum : 10 * (s.waiting a + 1) = 10 * s.waiting a + 10 := by omega
    rw [Held, hpc, if_neg hclear, hstatus, hwaiting, h, hsum, BitVec.ofNat_add]
    rfl
  · rw [State.deficit, State.deficit, State.reported, State.reported, hpc, hreport, hsent, hpresses,
      hwaiting]
    omega

/-- A press of the axis that gets lost. -/
theorem press_lost {s t : State} {a : Axis} (h : Held s a) (hpc : t.pc = s.pc)
    (hstatus : s.pc = .clear a ∨ t.status.move a = s.status.move a) (hreport : t.report = s.report)
    (hsent : t.sent = s.sent) (hpresses : t.presses a = s.presses a + 1)
    (hwaiting : t.waiting a = s.waiting a) : Held t a ∧ t.deficit a = s.deficit a + 10 := by
  constructor
  · unfold Held at h ⊢
    rw [hpc, hwaiting]
    by_cases hclear : s.pc = .clear a
    · rw [if_pos hclear] at h ⊢
      exact h
    · rw [if_neg hclear] at h ⊢
      rw [hstatus.resolve_left hclear, h]
  · rw [State.deficit, State.deficit, State.reported, State.reported, hpc, hreport, hsent, hpresses,
      hwaiting]
    omega

/-- The edge is a press that cannot be read, or that `main` is about to clear. -/
def Lost (cfg : Config) (a : Axis) (s : State) (level : Byte) (error : Option Nat) : Prop :=
  cfg.defVal (.axis a) ≠ level ∧ ¬ (error = none ∧ s.pc ≠ .clear a)

theorem edge_lost {cfg : Config} {s : State} {a : Axis} (h : Held s a) {level : Byte}
    {error : Option Nat} (hlost : Lost cfg a s level error) :
    Held (step cfg s (.edge (.axis a) level error)) a ∧
      (step cfg s (.edge (.axis a) level error)).deficit a = s.deficit a + 10 := by
  rw [step_axis, if_pos hlost.1]
  cases error with
  | none =>
    have hclear : s.pc = .clear a := Classical.not_not.mp fun hne => hlost.2 ⟨rfl, hne⟩
    refine press_lost h rfl (Or.inl hclear) rfl rfl (Function.update_self _ _ _) ?_
    dsimp only
    rw [if_neg (not_not_intro hclear)]
  | some errno => exact press_lost h rfl (Or.inr rfl) rfl rfl (Function.update_self _ _ _) rfl

theorem edge_kept {cfg : Config} {s : State} {a : Axis} (h : Held s a) {level : Byte}
    {error : Option Nat} (hkept : ¬ Lost cfg a s level error) :
    Held (step cfg s (.edge (.axis a) level error)) a ∧
      (step cfg s (.edge (.axis a) level error)).deficit a = s.deficit a := by
  rw [step_axis]
  by_cases hlevel : cfg.defVal (.axis a) ≠ level
  · obtain ⟨rfl, hclear⟩ := Classical.not_not.mp fun hne => hkept ⟨hlevel, hne⟩
    rw [if_pos hlevel]
    refine press_waits h hclear rfl (Function.update_self _ _ _) rfl rfl
      (Function.update_self _ _ _) ?_
    dsimp only
    rw [if_pos hclear, Function.update_self]
  · rw [if_neg hlevel]
    exact ⟨h, rfl⟩

/-- An edge of the other axis. -/
theorem edge_other (cfg : Config) {s : State} {a b : Axis} (h : Held s a) (hab : a ≠ b)
    (level : Byte) (error : Option Nat) :
    Held (step cfg s (.edge (.axis b) level error)) a ∧
      (step cfg s (.edge (.axis b) level error)).deficit a = s.deficit a := by
  rw [step_axis]
  split
  · cases error with
    | none =>
      have hkeep := account_congr (s := s) (a := a) (t := { s with
          status := { s.status with
            move := Function.update s.status.move b (s.status.move b + 10) }
          sem := true
          presses := Function.update s.presses b (s.presses b + 1)
          waiting := if s.pc ≠ .clear b then Function.update s.waiting b (s.waiting b + 1)
            else s.waiting })
        Iff.rfl rfl (Function.update_of_ne hab _ _).symm rfl rfl
        (Function.update_of_ne hab _ _).symm (by
          dsimp only
          split
          · exact (Function.update_of_ne hab _ _).symm
          · rfl)
      exact ⟨hkeep.1 h, hkeep.2⟩
    | some errno =>
      have hkeep := account_congr (s := s) (a := a)
        (t := { s with presses := Function.update s.presses b (s.presses b + 1) })
        Iff.rfl rfl rfl rfl rfl (Function.update_of_ne hab _ _).symm rfl
      exact ⟨hkeep.1 h, hkeep.2⟩
  · exact ⟨h, rfl⟩

/-- What a step does to the account of an axis: the deficit never falls, and stays the same exactly
when the step is careful. -/
theorem step_account (cfg : Config) {s : State} {a : Axis} (h : Held s a) (e : Event) :
    Held (step cfg s e) a ∧ s.deficit a ≤ (step cfg s e).deficit a ∧
      ((step cfg s e).deficit a = s.deficit a ↔ CarefulFor cfg a s e) := by
  have hsame : ∀ {t : State}, Held t a ∧ t.deficit a = s.deficit a → Held t a ∧
      s.deficit a ≤ t.deficit a ∧ (t.deficit a = s.deficit a ↔ True) :=
    fun ht => ⟨ht.1, Int.le_of_eq ht.2.symm, iff_true_intro ht.2⟩
  cases e with
  | main => exact mainStep_axis h
  | bus suspended => exact hsame ⟨h, rfl⟩
  | edge i level error =>
    cases i with
    | button b =>
      rw [step_button]
      rcases buttonHandler_cases cfg b (gpioPinGet level error) { s with
        pressed := Function.update s.pressed b (decide (cfg.defVal (.button b) ≠ level)) } with
        heq | ⟨btn, heq⟩
      · rw [heq]
        exact hsame ⟨h, rfl⟩
      · rw [heq]
        exact hsame ⟨h, rfl⟩
    | axis b =>
      by_cases hab : b = a
      · subst hab
        have hcareful : CarefulFor cfg b s (.edge (.axis b) level error) ↔
            ¬ Lost cfg b s level error := by
          rw [CarefulFor, forall_prop_of_true rfl, Lost, not_and, Classical.not_not]
        rw [hcareful]
        by_cases hlost : Lost cfg b s level error
        · obtain ⟨hheld, hdeficit⟩ := edge_lost h hlost
          exact ⟨hheld, by omega, ⟨fun heq => by omega, fun hkept => absurd hlost hkept⟩⟩
        · obtain ⟨hheld, hdeficit⟩ := edge_kept h hlost
          exact ⟨hheld, Int.le_of_eq hdeficit.symm, ⟨fun _ => hlost, fun _ => hdeficit⟩⟩
      · have hcareful : CarefulFor cfg a s (.edge (.axis b) level error) ↔ True :=
          iff_true_intro fun h => absurd h hab
        rw [hcareful]
        exact hsame (edge_other cfg h (Ne.symm hab) level error)

/-! ## Runs -/

def Careful (cfg : Config) (s : State) (e : Event) : Prop := ∀ a, CarefulFor cfg a s e

/-- A button's handler is not asked to wake the bus instead, and can read the level. -/
def Heard (cfg : Config) (s : State) : Event → Prop
  | .edge (.button _) _ error =>
    ¬ (cfg.remoteWakeup = true ∧ s.suspended = true) ∧ error = none
  | _ => True

instance instDecidableCareful (cfg : Config) (s : State) (e : Event) :
    Decidable (Careful cfg s e) :=
  decidable_of_iff (CarefulFor cfg .x s e ∧ CarefulFor cfg .y s e)
    ⟨fun h a => match a with | .x => h.1 | .y => h.2, fun h => ⟨h .x, h .y⟩⟩

instance instDecidableHeard (cfg : Config) (s : State) : ∀ e, Decidable (Heard cfg s e)
  | .edge (.button _) _ error =>
    inferInstanceAs (Decidable
      (¬ (cfg.remoteWakeup = true ∧ s.suspended = true) ∧ error = none))
  | .edge (.axis _) _ _ | .main | .bus _ => inferInstanceAs (Decidable True)

/-- `main` waits in `k_sem_take` and nothing has woken it. -/
def State.Blocked (s : State) : Prop := s.pc = .take ∧ s.sem = false

/-- The buttons of the last report. -/
def State.lastButtons (s : State) : Byte := (s.sent.head?.map Bytes.btn).getD 0

/-- The host has ten for each press, and the buttons as they are. -/
def State.Sound (s : State) : Prop :=
  (∀ a, s.reported a = 10 * s.presses a) ∧
    ∀ b : Button, s.lastButtons.getLsbD b.bit = s.pressed b

/-- A run ends with the deficit it started with exactly when its steps are careful. -/
theorem run_deficit (cfg : Config) {s : State} {a : Axis} (h : Held s a) (es : List Event) :
    (run (step cfg) s es).deficit a = s.deficit a ↔ Along (step cfg) (CarefulFor cfg a) s es :=
  (run_eq_iff_along (step cfg) (I := fun t => Held t a) (f := fun t => t.deficit a)
    (fun _ e hs => (step_account cfg hs e).1) (fun _ e hs => (step_account cfg hs e).2.1)
    (fun _ e hs => (step_account cfg hs e).2.2) h es).2

/-! ### What a wait of `main` shows -/

/-- The movement in `status[]` at the last wake is copied. -/
def taken : Pc → Axis → Bool
  | .take, _ => true
  | pc, a => inFlight pc a

/-- While nothing has woken `main` again, what it has copied is what is there, and in front of the
copies the report is the one sent last. -/
structure Settled (s : State) : Prop where
  btn : s.sem = false → s.pc ≠ .copyBtn → s.report.btn = s.status.btn
  waiting : s.sem = false → ∀ a, taken s.pc a = true → s.waiting a = 0
  last : s.pc = .take ∨ s.pc = .copyBtn → s.lastButtons = s.report.btn

theorem settled_init : Settled .init where
  btn _ _ := rfl
  waiting _ _ _ := rfl
  last _ := rfl

theorem settled_mainStep {s : State} (h : Settled s) : Settled (mainStep s) := by
  unfold mainStep
  cases hpc : s.pc with
  | take =>
    dsimp only
    split
    · refine ⟨fun _ hne => absurd rfl hne, fun _ a ha => ?_, fun _ => h.last (Or.inl hpc)⟩
      exact absurd ha Bool.false_ne_true
    · exact h
  | copyBtn =>
    dsimp only
    refine ⟨fun _ _ => rfl, fun _ a ha => absurd ha Bool.false_ne_true, fun hor => ?_⟩
    rcases hor with hor | hor <;> exact absurd hor nofun
  | copy b =>
    dsimp only
    refine ⟨fun hsem _ => h.btn hsem (by rw [hpc]; nofun), fun hsem a ha => ?_, fun hor => ?_⟩
    · by_cases hab : a = b
      · subst hab
        exact Function.update_self _ _ _
      · have hbefore : taken s.pc a = true := by
          rw [hpc]
          cases a <;> cases b <;> first | exact ha | exact absurd rfl hab
        exact (Function.update_of_ne hab _ _).trans (h.waiting hsem a hbefore)
    · rcases hor with hor | hor <;> exact absurd hor nofun
  | clear b =>
    dsimp only
    refine ⟨fun hsem _ => h.btn hsem (by rw [hpc]; nofun), fun hsem a ha => ?_, fun hor => ?_⟩
    · refine h.waiting hsem a ?_
      rw [hpc]
      cases a <;> cases b <;> exact ha
    · cases b <;> rcases hor with hor | hor <;> exact absurd hor nofun
  | write =>
    dsimp only
    refine ⟨fun hsem _ => h.btn hsem (by rw [hpc]; nofun), fun hsem a _ => ?_, fun _ => rfl⟩
    refine h.waiting hsem a ?_
    rw [hpc]
    cases a <;> rfl

/-- A handler that stores something wakes `main`, and what `main` has sent it leaves alone. -/
theorem settled_of_woken {s t : State} (h : Settled s) (hsem : t.sem = true) (hpc : t.pc = s.pc)
    (hreport : t.report = s.report) (hsent : t.sent = s.sent) : Settled t := by
  refine ⟨fun hno => ?_, fun hno => ?_, fun hor => ?_⟩
  · rw [hsem] at hno
    exact absurd hno nofun
  · rw [hsem] at hno
    exact absurd hno nofun
  · rw [hpc] at hor
    have hlast := h.last hor
    rw [State.lastButtons] at hlast ⊢
    rw [hsent, hreport]
    exact hlast

theorem settled_step (cfg : Config) {s : State} (h : Settled s) (e : Event) :
    Settled (step cfg s e) := by
  cases e with
  | main => exact settled_mainStep h
  | bus suspended => exact ⟨h.btn, h.waiting, h.last⟩
  | edge i level error =>
    cases i with
    | button b =>
      rw [step_button]
      rcases buttonHandler_cases cfg b (gpioPinGet level error) { s with
        pressed := Function.update s.pressed b (decide (cfg.defVal (.button b) ≠ level)) } with
        heq | ⟨btn, heq⟩
      · rw [heq]
        exact ⟨h.btn, h.waiting, h.last⟩
      · rw [heq]
        exact settled_of_woken h rfl rfl rfl rfl
    | axis a =>
      rw [step_axis]
      split
      · cases error with
        | none => exact settled_of_woken h rfl rfl rfl rfl
        | some errno => exact ⟨h.btn, h.waiting, h.last⟩
      · exact h

/-- What is in flight or waits in front of `k_sem_take` when nothing has woken `main`: nothing. -/
theorem deficit_of_blocked {s : State} (h : Settled s) (hb : s.Blocked) (a : Axis) :
    s.deficit a = 10 * s.presses a - s.reported a := by
  have hwaiting : s.waiting a = 0 := h.waiting hb.2 a (by rw [hb.1]; rfl)
  rw [State.deficit, hwaiting, hb.1]
  simp only [inFlight, Bool.false_eq_true, if_false]
  omega

/-! ### The buttons -/

def Shown (s : State) : Prop := ∀ b : Button, s.status.btn.getLsbD b.bit = s.pressed b

/-- A handler sets or clears the bit of its button, and leaves the other's. -/
theorem getLsbD_store (btn : Byte) (b c : Button) (p : Prop) [Decidable p] :
    (if p then btn ||| b.mask else btn &&& ~~~b.mask).getLsbD c.bit
      = if c = b then decide p else btn.getLsbD c.bit := by
  have hmask : b.mask.getLsbD c.bit = decide (c = b) := by cases b <;> cases c <;> rfl
  have hwidth : c.bit < 8 := by cases c <;> decide
  by_cases hp : p
  · rw [if_pos hp, BitVec.getLsbD_or, hmask]
    by_cases hc : c = b <;> simp [hc, hp]
  · rw [if_neg hp, BitVec.getLsbD_and, BitVec.getLsbD_not, hmask]
    by_cases hc : c = b <;> simp [hc, hp, hwidth]

theorem shown_step {cfg : Config} {s : State} {e : Event} (h : Shown s) (hheard : Heard cfg s e) :
    Shown (step cfg s e) := by
  cases e with
  | main =>
    intro b
    show (mainStep s).status.btn.getLsbD b.bit = (mainStep s).pressed b
    unfold mainStep
    cases s.pc with
    | take =>
      dsimp only
      split <;> exact h b
    | copyBtn => exact h b
    | copy a => exact h b
    | clear a => exact h b
    | write => exact h b
  | bus suspended => exact h
  | edge i level error =>
    cases i with
    | button b =>
      obtain ⟨hawake, rfl⟩ := hheard
      intro c
      have hpressed : (step cfg s (.edge (.button b) level none)).pressed
          = Function.update s.pressed b (decide (cfg.defVal (.button b) ≠ level)) := by
        rw [step_button]
        rcases buttonHandler_cases cfg b (gpioPinGet level none) _ with heq | ⟨btn, heq⟩ <;>
          rw [heq]
      rw [hpressed, step_button, buttonHandler_btn (by exact hawake), getLsbD_store]
      by_cases hc : c = b
      · rw [if_pos hc, hc, Function.update_self]
      · rw [if_neg hc, Function.update_of_ne hc]
        exact h c
    | axis a =>
      rw [step_axis]
      split
      · cases error <;> exact h
      · exact h

/-- In front of `k_sem_take`, with the buttons heard, the host has what it should exactly when no
axis has a deficit. -/
theorem sound_iff_of_blocked {s : State} (hsettled : Settled s) (hshown : Shown s)
    (hb : s.Blocked) : s.Sound ↔ ∀ a, s.deficit a = 0 := by
  have hbuttons : s.lastButtons = s.status.btn := by
    rw [hsettled.last (Or.inl hb.1)]
    exact hsettled.btn hb.2 (by rw [hb.1]; nofun)
  rw [State.Sound, hbuttons]
  refine ⟨fun h a => ?_, fun h => ⟨fun a => ?_, hshown⟩⟩
  · rw [deficit_of_blocked hsettled hb, h.1 a]
    omega
  · have hzero := h a
    rw [deficit_of_blocked hsettled hb] at hzero
    omega

theorem held_init (a : Axis) : Held .init a := by
  rw [Held, if_neg nofun]
  rfl

theorem deficit_init (a : Axis) : State.init.deficit a = 0 := rfl

theorem along_careful (cfg : Config) (s : State) (es : List Event) :
    Along (step cfg) (Careful cfg) s es ↔ ∀ a, Along (step cfg) (CarefulFor cfg a) s es := by
  induction es generalizing s with
  | nil => exact ⟨fun _ _ => trivial, fun _ => trivial⟩
  | cons e es ih =>
    constructor
    · exact fun h a => ⟨h.1 a, (ih _).mp h.2 a⟩
    · exact fun h => ⟨fun a => (h a).1, (ih _).mpr fun a => (h a).2⟩

/-- A run with the buttons heard that ends in front of `k_sem_take`. -/
theorem run_sound_iff_careful (cfg : Config) {es : List Event}
    (hheard : Along (step cfg) (Heard cfg) .init es) (hb : (run (step cfg) .init es).Blocked) :
    (run (step cfg) .init es).Sound ↔ Along (step cfg) (Careful cfg) .init es := by
  have hsettled : Settled (run (step cfg) .init es) :=
    run_invariant (step cfg) (I := Settled) (fun _ e h => settled_step cfg h e) settled_init es
  have hshown : Shown (run (step cfg) .init es) :=
    Along.invariant (step cfg) (I := Shown) (fun _ _ h hh => shown_step h hh)
      (fun b => by cases b <;> rfl) hheard
  rw [sound_iff_of_blocked hsettled hshown hb, along_careful]
  refine forall_congr' fun a => ?_
  rw [← run_deficit cfg (held_init a), deficit_init]

/-- In a run whose steps are careful and heard the host has what it should whenever `main` waits.
With the buttons heard, that is so at the end of a run only if its steps are careful. -/
theorem no_movement_lost (cfg : Config) (es : List Event) :
    (Along (step cfg) (fun s e => Careful cfg s e ∧ Heard cfg s e) .init es →
      Always (step cfg) (fun s => s.Blocked → s.Sound) .init es) ∧
    (Along (step cfg) (Heard cfg) .init es → (run (step cfg) .init es).Blocked →
      ((run (step cfg) .init es).Sound ↔ Along (step cfg) (Careful cfg) .init es)) := by
  refine ⟨fun h => ?_, fun hheard hb => run_sound_iff_careful cfg hheard hb⟩
  refine Along.always_of_invariant (step cfg)
    (I := fun s => (∀ a, Held s a ∧ s.deficit a = 0) ∧ Settled s ∧ Shown s) ?_ ?_ ?_ h
  · rintro s e ⟨haccount, hsettled, hshown⟩ ⟨hcareful, hheard⟩
    refine ⟨fun a => ?_, settled_step cfg hsettled e, shown_step hshown hheard⟩
    obtain ⟨hheld, -, hiff⟩ := step_account cfg (haccount a).1 e
    exact ⟨hheld, (hiff.mpr (hcareful a)).trans (haccount a).2⟩
  · rintro s ⟨haccount, hsettled, hshown⟩ hb
    exact (sound_iff_of_blocked hsettled hshown hb).mpr fun a => (haccount a).2
  · exact ⟨fun a => ⟨held_init a, deficit_init a⟩, settled_init, fun b => by cases b <;> rfl⟩

/-! ### Runs that lose movement -/

def plain : Config := { remoteWakeup := false, defVal := fun _ => 0 }

def pressX : Event := .edge (.axis .x) 1 none

def releaseX : Event := .edge (.axis .x) 0 none

/-- The statements of `main` from one wait to the next. -/
def round : List Event := List.replicate 7 .main

/-- X and the left button are pressed; while `main` goes round, X is pressed once more behind its
clear, Y is pressed, and the button is let go. -/
def pressesInRound : List Event :=
  [pressX, .edge (.button .left) 1 none] ++ List.replicate 4 .main ++
    [releaseX, pressX, .edge (.axis .y) 1 none, .edge (.button .left) 0 none] ++
    List.replicate 3 .main ++ round

theorem no_movement_lost_pressesInRound :
    Always (step plain) (fun s => s.Blocked → s.Sound) .init pressesInRound :=
  (no_movement_lost plain pressesInRound).1 (by decide +kernel)

/-- Two presses, the second between the copy and the clear of the first; and thirteen at once. -/
theorem movement_lost :
    ¬ Always (step plain) (fun s => s.Blocked → s.Sound) .init
        (pressX :: List.replicate 3 .main ++
          [releaseX, pressX] ++ List.replicate 4 .main ++ round) ∧
      ¬ Always (step plain) (fun s => s.Blocked → s.Sound) .init
        (List.replicate 13 pressX ++ round) := by
  constructor
  · intro h
    have hsum := (Always.last _ h ⟨rfl, rfl⟩).1 .x
    exact absurd hsum (by decide)
  · intro h
    have hsum := (Always.last _ h ⟨by decide +kernel, by decide +kernel⟩).1 .x
    exact absurd hsum (by decide +kernel)

end HidMouse
end ZephyrSamples
