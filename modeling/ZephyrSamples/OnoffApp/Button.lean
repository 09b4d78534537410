import Mathlib.Algebra.Group.Nat.Defs
import ZephyrSamples.Lib.Runs

/-!
# The buttons of the mesh onoff sample

`button_pressed` and `button_cnt_timer`, over the milliseconds of the device.  The debouncer adds
its delay to the wrapped time of the edge before, and compares the sum with the wrapped time of this
one. -/

namespace ZephyrSamples
namespace OnoffApp

open Runs

/-- `BUTTON_DEBOUNCE_DELAY_MS` -/
def debounceDelay : Nat := 250

/-- `K_SECONDS(1)`, in milliseconds. -/
def countDelay : Nat := 1000

/-- `k_uptime_get_32` at a true time. -/
def uptime32 (t : Nat) : Nat := t % 2 ^ 32

/-- The GPIO pins of the four buttons. -/
structure Pins where
  sw0 : Nat
  sw1 : Nat
  sw2 : Nat
  sw3 : Nat

def Pins.pinToSw (pins : Pins) (pinPos : Nat) : Nat :=
  if pinPos = 2 ^ pins.sw0 then 0
  else if pinPos = 2 ^ pins.sw1 then 1
  else if pinPos = 2 ^ pins.sw2 then 2
  else if pinPos = 2 ^ pins.sw3 then 3
  else 0

/-- The statics, with the true time at which the timer expires and the states that `button_work` was
submitted with, the last first. -/
structure Device where
  time : Nat
  lastTime : Nat
  buttonPressCnt : Nat
  swNum : Nat
  onoffState : Nat
  timer : Option Nat
  submitted : List Nat

/-- The debouncer lets an edge pass. -/
def Device.counts (s : Device) (t : Nat) : Bool :=
  !decide (uptime32 t < (s.lastTime + debounceDelay) % 2 ^ 32)

/-- `button_pressed` at the true time `t`. -/
def Device.buttonPressed (pins : Pins) (s : Device) (t pinPos : Nat) : Device :=
  if s.counts t then
    { s with time := uptime32 t
             timer := if s.buttonPressCnt = 0 then some (t + countDelay) else s.timer
             buttonPressCnt := (s.buttonPressCnt + 1) % 256
             swNum := pins.pinToSw pinPos
             lastTime := uptime32 t }
  else { s with time := uptime32 t, lastTime := uptime32 t }

/-- `button_cnt_timer` -/
def Device.buttonCntTimer (s : Device) : Device :=
  let state := if s.buttonPressCnt = 1 then 1 else 0
  { s with onoffState := state, buttonPressCnt := 0, timer := none,
           submitted := state :: s.submitted }

/-- What is to be: the edges and whether they were counted, the last first, the window that is open
with its beginning and the edges counted in it, and the numbers of those that were closed. -/
structure Account where
  edges : List (Nat × Bool)
  window : Option (Nat × Nat)
  closed : List Nat

/-- A counted edge opens a window if none is open. -/
def Account.edge (a : Account) (t : Nat) (counted : Bool) : Account :=
  { a with edges := (t, counted) :: a.edges
           window :=
             if counted then
               match a.window with
               | none => some (t, 1)
               | some (opened, n) => some (opened, n + 1)
             else a.window }

/-- A window is closed after a second. -/
def Account.close (a : Account) (now : Nat) : Account :=
  match a.window with
  | some (opened, n) =>
    if opened + countDelay = now then { a with window := none, closed := n :: a.closed } else a
  | none => a

/-- The sample at the beginning of the millisecond `now`. -/
structure State where
  dev : Device
  account : Account
  now : Nat

/-- `main` has set `last_time` at the true time `init`. -/
def start (init : Nat) : State :=
  ⟨⟨0, uptime32 init, 0, 0, 0, none, []⟩, ⟨[], none, []⟩, init⟩

/-- A millisecond: with or without an edge, and where the timer expires in it too, before or after
the edge. -/
inductive Slot where
  | quiet
  | edge (timerFirst : Bool) (pinPos : Nat)

def State.expire (s : State) : State :=
  { s with dev := if s.dev.timer = some s.now then s.dev.buttonCntTimer else s.dev
           account := s.account.close s.now }

def State.press (pins : Pins) (s : State) (pinPos : Nat) : State :=
  { s with dev := s.dev.buttonPressed pins s.now pinPos
           account := s.account.edge s.now (s.dev.counts s.now) }

def State.next (s : State) : State := { s with now := s.now + 1 }

def step (pins : Pins) (s : State) : Slot → State
  | .quiet => s.expire.next
  | .edge true pinPos => (s.expire.press pins pinPos).next
  | .edge false pinPos => (s.press pins pinPos).expire.next

/-- The time of the last edge, or of the initialisation if there was none. -/
def previous (init : Nat) : List (Nat × Bool) → Nat
  | [] => init
  | (t, _) :: _ => t

/-- Every edge was counted exactly if it came 250 ms or more after the one before. -/
def Debounced (init : Nat) : List (Nat × Bool) → Prop
  | [] => True
  | (t, counted) :: edges =>
    (counted = true ↔ previous init edges + debounceDelay ≤ t) ∧ Debounced init edges

/-- What a window of `n` counted edges submits. -/
def windowState (n : Nat) : Nat := if n = 1 then 1 else 0

/-- The edges are judged right, every closed window has submitted its state once, and the timer runs
for the one that is open. -/
structure Sound (init : Nat) (s : State) : Prop where
  debounced : Debounced init s.account.edges
  submitted : s.dev.submitted = s.account.closed.map windowState
  pending : s.dev.timer = s.account.window.map fun w => w.1 + countDelay

/-- An edge at `t` after one at `l`: if it comes too early, the clock does not wrap behind it within
the delay, and else its wrapped time is not before the wrapped end of the delay. -/
def Unwrapped (l t : Nat) : Prop :=
  if t < l + debounceDelay then
    ¬ (l % 2 ^ 32 + (t - l) < 2 ^ 32 ∧ 2 ^ 32 ≤ l % 2 ^ 32 + debounceDelay)
  else (l + debounceDelay) % 2 ^ 32 ≤ t % 2 ^ 32

def Careful (init : Nat) (s : State) : Slot → Prop
  | .quiet => True
  | .edge _ _ => Unwrapped (previous init s.account.edges) s.now

/-- What holds between the milliseconds. -/
structure Inv (init : Nat) (s : State) : Prop extends Sound init s where
  reference : s.dev.lastTime = uptime32 (previous init s.account.edges)
  past : previous init s.account.edges ≤ s.now
  counted : s.dev.buttonPressCnt = (s.account.window.map Prod.snd).getD 0
  window : ∀ opened n, s.account.window = some (opened, n) → 0 < n ∧
    opened + debounceDelay * (n - 1) ≤ previous init s.account.edges ∧ s.now ≤ opened + countDelay

variable {init : Nat} {s : State} {pins : Pins}

/-- The debouncer is right exactly on the edges that are not wrapped. -/
theorem counts_iff {l t : Nat} (hlt : l ≤ t) (h : s.dev.lastTime = uptime32 l) :
    (s.dev.counts t = true ↔ l + debounceDelay ≤ t) ↔ Unwrapped l t := by
  have hcounts : s.dev.counts t = true ↔ (l % 2 ^ 32 + 250) % 2 ^ 32 ≤ t % 2 ^ 32 := by
    rw [Device.counts, h, Bool.not_eq_true', decide_eq_false_iff_not, Nat.not_lt]
    rfl
  rw [hcounts, Unwrapped, debounceDelay]
  split
  case isTrue hearly => omega
  case isFalse hlate => omega

/-- The window is to be closed later. -/
def Settled (s : State) : Prop :=
  ∀ opened n, s.account.window = some (opened, n) → s.now < opened + countDelay

theorem close_edges (a : Account) (now : Nat) : (a.close now).edges = a.edges := by
  rw [Account.close]
  split
  · split
    · rfl
    · rfl
  · rfl

theorem expire_counts (s : State) : s.expire.dev.counts s.now = s.dev.counts s.now := by
  have hlast : s.expire.dev.lastTime = s.dev.lastTime := by
    rw [State.expire]
    show (if s.dev.timer = some s.now then s.dev.buttonCntTimer else s.dev).lastTime = _
    split
    · rfl
    · rfl
  rw [Device.counts, Device.counts, hlast]

theorem step_edge (b : Bool) (pinPos : Nat) : (step pins s (.edge b pinPos)).account.edges =
    (s.now, s.dev.counts s.now) :: s.account.edges := by
  cases b with
  | true =>
    show (s.now, s.expire.dev.counts s.now) :: (s.account.close s.now).edges = _
    rw [expire_counts, close_edges]
  | false => exact close_edges _ _

/-- A window that is not due leaves the timer alone. -/
theorem Inv.expire_of_ne (hI : Inv init s)
    (hdue : ∀ opened n, s.account.window = some (opened, n) → opened + countDelay ≠ s.now) :
    s.expire = s := by
  obtain ⟨dev, ⟨edges, window, closed⟩, now⟩ := s
  have htimer : dev.timer = window.map fun w => w.1 + countDelay := hI.pending
  cases window with
  | none =>
    rw [State.expire, htimer, Option.map_none, if_neg (Option.some_ne_none now).symm]
    rfl
  | some w =>
    have hne : w.1 + countDelay ≠ now := hdue w.1 w.2 rfl
    rw [State.expire, htimer, Option.map_some, if_neg fun h => hne (Option.some.inj h),
      Account.close]
    exact congrArg (fun a => State.mk dev a now) (if_neg hne)

theorem Inv.expire_of_eq (hI : Inv init s) {opened n : Nat}
    (hwindow : s.account.window = some (opened, n)) (hdue : opened + countDelay = s.now) :
    s.expire = ⟨s.dev.buttonCntTimer, ⟨s.account.edges, none, n :: s.account.closed⟩, s.now⟩ := by
  obtain ⟨dev, ⟨edges, window, closed⟩, now⟩ := s
  obtain rfl : window = some (opened, n) := hwindow
  have htimer : dev.timer = some (opened + countDelay) := hI.pending
  rw [State.expire, htimer, if_pos (congrArg some hdue), Account.close]
  exact congrArg (fun a => State.mk dev.buttonCntTimer a now) (if_pos hdue)

/-- With or without a window, the timer is handled when it is closed. -/
theorem Inv.expire (hI : Inv init s) : Inv init s.expire ∧ Settled s.expire := by
  by_cases hdue : ∃ opened n, s.account.window = some (opened, n) ∧ opened + countDelay = s.now
  · obtain ⟨opened, n, hwindow, hnow⟩ := hdue
    have hcount : s.dev.buttonPressCnt = n := by rw [hI.counted, hwindow]; rfl
    rw [hI.expire_of_eq hwindow hnow]
    refine ⟨⟨⟨hI.debounced, ?_, rfl⟩, hI.reference, hI.past, rfl, ?_⟩, ?_⟩
    · show windowState s.dev.buttonPressCnt :: s.dev.submitted =
        windowState n :: s.account.closed.map windowState
      rw [hcount, hI.submitted]
    · exact fun opened n h => absurd h.symm (Option.some_ne_none _)
    · exact fun opened n h => absurd h.symm (Option.some_ne_none _)
  · have hne : ∀ opened n, s.account.window = some (opened, n) → opened + countDelay ≠ s.now :=
      fun opened n hwindow hnow => hdue ⟨opened, n, hwindow, hnow⟩
    rw [hI.expire_of_ne hne]
    refine ⟨hI, fun opened n hwindow => ?_⟩
    exact Nat.lt_of_le_of_ne (hI.window opened n hwindow).2.2 (hne opened n hwindow).symm

/-- An edge that does not count is only noted. -/
theorem press_ignored (pins : Pins) (hcounts : s.dev.counts s.now = false) (pinPos : Nat) :
    s.press pins pinPos =
      ⟨{ s.dev with time := uptime32 s.now, lastTime := uptime32 s.now },
        { s.account with edges := (s.now, false) :: s.account.edges }, s.now⟩ := by
  rw [State.press, Device.buttonPressed, hcounts]
  rfl

theorem press_counted (pins : Pins) (hcounts : s.dev.counts s.now = true) (pinPos : Nat) :
    s.press pins pinPos =
      ⟨{ s.dev with time := uptime32 s.now
                    timer := if s.dev.buttonPressCnt = 0 then some (s.now + countDelay)
                      else s.dev.timer
                    buttonPressCnt := (s.dev.buttonPressCnt + 1) % 256
                    swNum := pins.pinToSw pinPos
                    lastTime := uptime32 s.now },
        s.account.edge s.now true, s.now⟩ := by
  rw [State.press, Device.buttonPressed, hcounts]
  rfl

/-- The first edge that counts opens a window. -/
theorem Inv.press_first (pins : Pins) (hI : Inv init s) (hwindow : s.account.window = none)
    (hcounts : s.dev.counts s.now = true)
    (hdebounced : Debounced init ((s.now, true) :: s.account.edges)) (pinPos : Nat) :
    Inv init (s.press pins pinPos) ∧ Settled (s.press pins pinPos) := by
  rw [press_counted pins hcounts]
  obtain ⟨dev, ⟨edges, window, closed⟩, now⟩ := s
  obtain rfl : window = none := hwindow
  have hzero : dev.buttonPressCnt = 0 := hI.counted
  rw [hzero, if_pos rfl]
  refine ⟨⟨⟨hdebounced, hI.submitted, rfl⟩, rfl, Nat.le_refl _, rfl, ?_⟩, ?_⟩
  · intro opened n hw
    obtain ⟨rfl, rfl⟩ := Prod.mk.inj (Option.some.inj hw)
    exact ⟨Nat.one_pos, Nat.le_refl _, Nat.le_add_right _ _⟩
  · intro opened n hw
    obtain ⟨rfl, rfl⟩ := Prod.mk.inj (Option.some.inj hw)
    exact Nat.lt_add_of_pos_right (by decide)

/-- A later one is counted in it. -/
theorem Inv.press_again (pins : Pins) (hI : Inv init s) {opened n : Nat}
    (hwindow : s.account.window = some (opened, n)) (hcounts : s.dev.counts s.now = true)
    (hgap : previous init s.account.edges + debounceDelay ≤ s.now)
    (hdebounced : Debounced init ((s.now, true) :: s.account.edges)) (pinPos : Nat) :
    Inv init (s.press pins pinPos) ∧ (Settled s → Settled (s.press pins pinPos)) := by
  rw [press_counted pins hcounts]
  obtain ⟨dev, ⟨edges, window, closed⟩, now⟩ := s
  obtain rfl : window = some (opened, n) := hwindow
  have hcount : dev.buttonPressCnt = n := hI.counted
  obtain ⟨hpos, hgaps, hnow⟩ := hI.window opened n rfl
  have hgaps' : opened + 250 * (n - 1) ≤ previous init edges := hgaps
  have hgap' : previous init edges + 250 ≤ now := hgap
  have hnow' : now ≤ opened + 1000 := hnow
  -- a window has room for five edges, so that the counter does not wrap
  have hmod : (n + 1) % 256 = n + 1 := Nat.mod_eq_of_lt (by omega)
  rw [hcount, if_neg (by omega), hmod]
  refine ⟨⟨⟨hdebounced, hI.submitted, hI.pending⟩, rfl, Nat.le_refl _, rfl, ?_⟩, ?_⟩
  · intro opened' n' hw
    obtain ⟨rfl, rfl⟩ := Prod.mk.inj (Option.some.inj hw)
    refine ⟨Nat.succ_pos n, ?_, hnow⟩
    show opened + 250 * (n + 1 - 1) ≤ now
    omega
  · intro hsettled opened' n' hw
    obtain ⟨rfl, rfl⟩ := Prod.mk.inj (Option.some.inj hw)
    exact hsettled opened n rfl

/-- An edge that is judged right is counted in the window that is open, or opens one. -/
theorem Inv.press (pins : Pins) (hI : Inv init s)
    (h : Unwrapped (previous init s.account.edges) s.now) (pinPos : Nat) :
    Inv init (s.press pins pinPos) ∧ (Settled s → Settled (s.press pins pinPos)) := by
  have hright := (counts_iff hI.past hI.reference).mpr h
  have hdebounced : Debounced init ((s.now, s.dev.counts s.now) :: s.account.edges) :=
    ⟨hright, hI.debounced⟩
  cases hcounts : s.dev.counts s.now with
  | false =>
    rw [hcounts] at hdebounced
    rw [press_ignored pins hcounts]
    refine ⟨⟨⟨hdebounced, hI.submitted, hI.pending⟩, rfl, Nat.le_refl _, hI.counted, ?_⟩, id⟩
    intro opened n hw
    obtain ⟨hpos, hgaps, hnow⟩ := hI.window opened n hw
    exact ⟨hpos, Nat.le_trans hgaps hI.past, hnow⟩
  | true =>
    rw [hcounts] at hdebounced
    cases hwindow : s.account.window with
    | none =>
      obtain ⟨hpress, hsettled⟩ := hI.press_first pins hwindow hcounts hdebounced pinPos
      exact ⟨hpress, fun _ => hsettled⟩
    | some w => exact hI.press_again pins hwindow hcounts (hright.mp hcounts) hdebounced pinPos

theorem Inv.next (hI : Inv init s) (hsettled : Settled s) : Inv init s.next := by
  refine ⟨⟨hI.debounced, hI.submitted, hI.pending⟩, hI.reference, Nat.le_succ_of_le hI.past,
    hI.counted, ?_⟩
  intro opened n hw
  obtain ⟨hpos, hgaps, _⟩ := hI.window opened n hw
  exact ⟨hpos, hgaps, hsettled opened n hw⟩

theorem step_inv {e : Slot} (hI : Inv init s) (h : Careful init s e) :
    Inv init (step pins s e) := by
  obtain ⟨hexpire, hsettled⟩ := hI.expire
  cases e with
  | quiet => exact hexpire.next hsettled
  | edge timerFirst pinPos =>
    cases timerFirst with
    | true =>
      have hedges : s.expire.account.edges = s.account.edges := close_edges _ _
      have h' : Unwrapped (previous init s.expire.account.edges) s.expire.now := hedges ▸ h
      obtain ⟨hpress, hkeep⟩ := hexpire.press pins h' pinPos
      exact hpress.next (hkeep hsettled)
    | false =>
      obtain ⟨hexpire', hsettled'⟩ := (hI.press pins h pinPos).1.expire
      exact hexpire'.next hsettled'

/-- An edge whose time is wrapped in the wrong place is judged wrong. -/
theorem careful_of_sound {e : Slot} (hI : Inv init s) (h : Sound init (step pins s e)) :
    Careful init s e := by
  cases e with
  | quiet => trivial
  | edge timerFirst pinPos =>
    have hdebounced := h.debounced
    rw [step_edge] at hdebounced
    exact (counts_iff hI.past hI.reference).mp hdebounced.1

theorem start_inv (init : Nat) : Inv init (start init) :=
  ⟨⟨trivial, rfl, rfl⟩, rfl, Nat.le_refl _, rfl, fun _ _ h => absurd h.symm (Option.some_ne_none _)⟩

/-- From any time on and for any edges, the buttons are decoded right exactly if no edge is wrapped
in the wrong place. -/
theorem button_sound_iff (pins : Pins) (init : Nat) (slots : List Slot) :
    Always (step pins) (Sound init) (start init) slots ↔
      Along (step pins) (Careful init) (start init) slots :=
  always_iff_along_kept (step pins) (fun _ _ hI h => step_inv hI h)
    (fun _ _ hI => ⟨careful_of_sound hI, fun h => (step_inv hI h).toSound⟩)
    (start_inv init) (start_inv init).toSound slots

theorem run_quiet (pins : Pins) (init n : Nat) :
    run (step pins) (start init) (List.replicate n .quiet) =
      { start init with now := init + n } := by
  induction n with
  | zero => rfl
  | succ n ih =>
    rw [List.replicate_succ', run_append, ih]
    rfl

theorem press_lastTime (s : State) (pinPos : Nat) :
    (s.press pins pinPos).next.dev.lastTime = uptime32 s.now := by
  show (s.dev.buttonPressed pins s.now pinPos).lastTime = _
  rw [Device.buttonPressed]
  split
  · rfl
  · rfl

/-- Two edges in the last 100 ms before the clock wraps are both counted. -/
theorem edges_before_wrap_not_sound : ¬ ∀ (pins : Pins) (init : Nat) (slots : List Slot),
    Always (step pins) (Sound init) (start init) slots := by
  intro h
  obtain ⟨n, hn⟩ : ∃ n, n = 2 ^ 32 - 100 := ⟨_, rfl⟩
  have hlast := (h ⟨0, 1, 2, 3⟩ 0
    (List.replicate n .quiet ++ [.edge true 1, .edge true 1])).last.debounced
  rw [run_append, run_quiet, run_cons, run_cons, run_nil, step_edge, step_edge] at hlast
  have hsecond := hlast.1
  rw [Device.counts, step, press_lastTime] at hsecond
  have hcounted : (!decide (uptime32 (0 + n + 1) < (uptime32 (0 + n) + debounceDelay) % 2 ^ 32)) =
      true := by
    subst hn
    decide
  have hgap : 0 + n + debounceDelay ≤ 0 + n + 1 := hsecond.mp hcounted
  exact absurd hgap (by simp [debounceDelay])

end OnoffApp
end ZephyrSamples
