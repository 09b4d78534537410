import Mathlib.Data.List.SplitBy
import ZephyrSamples.Lib.Runs

/-!
# The button of the mesh badge

`button_interrupt` and `long_press` of `reel_board.c`.  The handler of the long press runs in the
work queue, and the interrupt can come between any two of its statements.  A short press on the main
screen says hello, unless it is one of a burst: of those only every sixth calls the user a bad
one. -/

namespace ZephyrSamples
namespace MeshBadge

open Runs

/-- `enum screen_ids` -/
inductive Screen where
  | main
  | sensors
  | stats
  deriving DecidableEq

/-- `(screen_id + 1) % SCREEN_LAST` -/
def Screen.next : Screen → Screen
  | .main => .sensors
  | .sensors => .stats
  | .stats => .main

/-- `mesh_send_hello` and `mesh_send_baduser` -/
inductive Call where
  | hello
  | baduser
  deriving DecidableEq

/-- How far the handler of `long_press_work` is: its first statement is next, or its second. -/
inductive LongPress where
  | idle
  | entered
  | released
  deriving DecidableEq

/-- The statics of `reel_board.c` and of `button_interrupt`, with `long_press_work`, delayed and in
its handler. -/
structure Button where
  pressed : Bool := false
  screenId : Screen := .main
  badCount : Nat := 0
  pressTs : Nat := 0
  delayed : Bool := false
  longPress : LongPress := .idle
  deriving DecidableEq

/-- `k_uptime_get_32` at a true time. -/
def uptime32 (t : Nat) : Nat := t % UInt32.size

/-- `uptime - press_ts < 500` -/
def Button.rapid (b : Button) (uptime : Nat) : Bool :=
  decide ((uptime + UInt32.size - b.pressTs) % UInt32.size < 500)

/-- The end of a short press on the main screen. -/
def Button.shortPress (b : Button) (uptime : Nat) : Button × Option Call :=
  let badCount := if b.rapid uptime then b.badCount + 1 else 0
  let b := { b with badCount := badCount, pressTs := uptime }
  if badCount ≠ 0 then
    if 5 < badCount then ({ b with badCount := 0 }, some .baduser) else (b, none)
  else (b, some .hello)

/-- `button_interrupt`: `level` is that of the pin, `bit` tells whether the pin is among `pins`, and
`initialized` is what `mesh_is_initialized` returns. -/
def Button.buttonInterrupt (b : Button) (level bit initialized : Bool) (uptime : Nat) :
    Button × Option Call :=
  if level = b.pressed then (b, none)
  else if !b.pressed then ({ b with pressed := true, delayed := true }, none)
  else
    -- `k_delayed_work_cancel` does not stop a handler that has been entered
    let b := { b with pressed := false, delayed := false }
    if !initialized then (b, none)
    else
      match b.screenId with
      | .sensors => (b, none)
      | .stats => (b, none)
      | .main => if bit then b.shortPress uptime else (b, none)

/-- The next statement of `long_press`, or its entry when the timeout has expired. -/
def Button.longPressStep (b : Button) : Button :=
  match b.longPress with
  | .idle => if b.delayed then { b with delayed := false, longPress := .entered } else b
  | .entered => { b with pressed := false, longPress := .released }
  | .released => { b with screenId := b.screenId.next, longPress := .idle }

/-- The release of a short press on the main screen. -/
def Button.releases (b : Button) (level bit initialized : Bool) : Bool :=
  b.pressed && !level && initialized && decide (b.screenId = .main) && bit

/-- The button with the true time, and with the times of those releases and the calls made, the
first first. -/
structure Pressed where
  button : Button := {}
  now : Nat := 0
  releases : List Nat := []
  calls : List Call := []

inductive Touch where
  | tick (ms : Nat)
  | edge (level bit initialized : Bool)
  | longPress
  deriving DecidableEq

def Pressed.step (s : Pressed) : Touch → Pressed
  | .tick ms => { s with now := s.now + ms }
  | .edge level bit initialized =>
    let r := s.button.buttonInterrupt level bit initialized (uptime32 s.now)
    { s with
      button := r.1
      releases :=
        if s.button.releases level bit initialized then s.releases ++ [s.now] else s.releases
      calls := s.calls ++ r.2.toList }
  | .longPress => { s with button := s.button.longPressStep }

/-- Two releases belong to one burst. -/
def sameBurst (t t' : Nat) : Bool := decide ((t' - t) % UInt32.size < 500)

/-- What the releases of a burst come to: a hello, and a bad user for every six after the first. -/
def ofBurst (burst : List Nat) : List Call :=
  .hello :: List.replicate ((burst.length - 1) / 6) .baduser

/-! ## Bursts -/

section

variable {α : Type*} {r : α → α → Bool} {l init : List α} {done : List (List α)} {t x : α}

/-- An element that goes with the last one joins its group. -/
theorem splitBy_snoc_join (h : l.splitBy r = done ++ [init ++ [t]]) (hx : r t x = true) :
    (l ++ [x]).splitBy r = done ++ [init ++ [t] ++ [x]] := by
  obtain ⟨hflatten, hnil, hchain, hapart⟩ := List.splitBy_eq_iff.mp h
  refine List.splitBy_eq_iff.mpr ⟨?_, ?_, ?_, ?_⟩
  · rw [hflatten]
    simp only [List.flatten_append, List.flatten_cons, List.flatten_nil, List.append_nil,
      List.append_assoc]
  · intro hmem
    rcases List.mem_append.mp hmem with hdone | hlast
    · exact hnil (List.mem_append_left _ hdone)
    · have hne := List.append_ne_nil_of_right_ne_nil (init ++ [t]) (List.cons_ne_nil x [])
      exact absurd (List.mem_singleton.mp hlast).symm hne
  · intro m hm
    rcases List.mem_append.mp hm with hdone | hlast
    · exact hchain m (List.mem_append_left _ hdone)
    · rw [List.mem_singleton.mp hlast]
      have hgroup := hchain (init ++ [t]) (List.mem_append_right done List.mem_cons_self)
      refine List.isChain_append.mpr ⟨hgroup, List.isChain_singleton x, fun y hy z hz => ?_⟩
      rw [List.getLast?_concat] at hy
      obtain rfl := Option.some.inj hy
      obtain rfl := Option.some.inj hz
      exact hx
  · obtain ⟨hdone, -, hnext⟩ := List.isChain_append.mp hapart
    refine List.isChain_append.mpr ⟨hdone, List.isChain_singleton _, fun y hy z hz => ?_⟩
    obtain rfl := Option.some.inj hz
    obtain ⟨hy', hz', hfalse⟩ := hnext y hy _ rfl
    refine ⟨hy', List.append_ne_nil_of_left_ne_nil hz' _, ?_⟩
    rw [List.head_append_of_ne_nil hz']
    exact hfalse

/-- Another one begins a group of its own. -/
theorem splitBy_snoc_begin (h : l.splitBy r = done ++ [init ++ [t]]) (hx : r t x = false) :
    (l ++ [x]).splitBy r = done ++ [init ++ [t]] ++ [[x]] := by
  have hl : l = (done ++ [init ++ [t]]).flatten := h ▸ (List.flatten_splitBy r l).symm
  rw [List.splitBy_append_cons, h]
  · rfl
  · intro y hy
    rw [hl, List.flatten_append, List.flatten_singleton, ← List.append_assoc,
      List.getLast?_concat] at hy
    obtain rfl := Option.some.inj hy
    exact hx

end

/-- One more release is one more call exactly if it makes the number of those after the first a
multiple of six. -/
theorem ofBurst_snoc (init : List Nat) (t t' : Nat) : ofBurst (init ++ [t] ++ [t']) =
    ofBurst (init ++ [t]) ++ if (init.length + 1) % 6 = 0 then [.baduser] else [] := by
  have hlen : (init ++ [t] ++ [t']).length - 1 = init.length + 1 := by
    simp only [List.length_append, List.length_singleton, Nat.add_sub_cancel]
  have hlen' : (init ++ [t]).length - 1 = init.length := by
    rw [List.length_append, List.length_singleton, Nat.add_sub_cancel]
  rw [ofBurst, ofBurst, hlen, hlen', List.cons_append]
  congr 1
  split
  case isTrue h =>
    have hsucc : (init.length + 1) / 6 = init.length / 6 + 1 := by omega
    rw [hsucc, List.replicate_succ']
  case isFalse h =>
    have hsame : (init.length + 1) / 6 = init.length / 6 := by omega
    rw [hsame, List.append_nil]

theorem ofBurst_singleton (t : Nat) : ofBurst [t] = [.hello] := by
  rw [ofBurst, List.length_singleton, Nat.sub_self, Nat.zero_div, List.replicate_zero]

/-! ## The invariant -/

variable {b : Button} {s : Pressed} {done : List (List Nat)} {init : List Nat} {t uptime : Nat}
  {level bit initialized : Bool}

/-- The releases, with the boot before them, fall into bursts of which `init ++ [t]` is the last:
`bad_count` is where the device is in it, and the calls are those of all of them. -/
structure Bursts (s : Pressed) (done : List (List Nat)) (init : List Nat) (t : Nat) : Prop where
  splits : (0 :: s.releases).splitBy sameBurst = done ++ [init ++ [t]]
  last : s.button.pressTs = uptime32 t
  past : t ≤ s.now
  badCount : s.button.badCount = init.length % 6
  calls : .hello :: s.calls = (done ++ [init ++ [t]]).flatMap ofBurst

theorem bursts_boot : Bursts {} [] [] 0 := ⟨rfl, rfl, Nat.le_refl 0, rfl, rfl⟩

/-- The wrapped times are as far apart as the true ones. -/
theorem rapid_eq (hlast : b.pressTs = uptime32 t) {now : Nat} (hpast : t ≤ now) :
    b.rapid (uptime32 now) = sameBurst t now := by
  have hsub :
      (uptime32 now + UInt32.size - uptime32 t) % UInt32.size = (now - t) % UInt32.size := by
    show (now % UInt32.size + UInt32.size - t % UInt32.size) % UInt32.size = _
    rw [show UInt32.size = 4294967296 from rfl]
    omega
  rw [Button.rapid, sameBurst, hlast, hsub]

theorem shortPress_rapid (hrapid : b.rapid uptime = true) (hcount : b.badCount < 6) :
    b.shortPress uptime =
      ({ b with badCount := (b.badCount + 1) % 6, pressTs := uptime },
        if (b.badCount + 1) % 6 = 0 then some .baduser else none) := by
  rw [Button.shortPress]
  simp only [hrapid, if_true]
  rw [if_pos (Nat.succ_ne_zero _)]
  by_cases hfull : 5 < b.badCount + 1
  · have hsix : b.badCount + 1 = 6 := by omega
    rw [if_pos hfull, hsix]
    rfl
  · have hmod : (b.badCount + 1) % 6 = b.badCount + 1 := Nat.mod_eq_of_lt (by omega)
    rw [if_neg hfull, hmod, if_neg (Nat.succ_ne_zero _)]

theorem shortPress_not_rapid (hrapid : b.rapid uptime = false) :
    b.shortPress uptime = ({ b with badCount := 0, pressTs := uptime }, some .hello) := by
  rw [Button.shortPress]
  simp only [hrapid]
  rfl

/-- Anything but the release of a short press on the main screen leaves the counting alone. -/
theorem buttonInterrupt_other (h : b.releases level bit initialized = false) (uptime : Nat) :
    (b.buttonInterrupt level bit initialized uptime).2 = none ∧
      (b.buttonInterrupt level bit initialized uptime).1.badCount = b.badCount ∧
      (b.buttonInterrupt level bit initialized uptime).1.pressTs = b.pressTs := by
  rw [Button.buttonInterrupt]
  split
  case isTrue => exact ⟨rfl, rfl, rfl⟩
  case isFalse hlevel =>
    split
    case isTrue => exact ⟨rfl, rfl, rfl⟩
    case isFalse hpressed =>
      have hpressed' : b.pressed = true := by simpa using hpressed
      have hlevel' : level = false := by simpa [hpressed'] using hlevel
      dsimp only
      split
      case isTrue => exact ⟨rfl, rfl, rfl⟩
      case isFalse hinitialized =>
        split
        case h_1 => exact ⟨rfl, rfl, rfl⟩
        case h_2 => exact ⟨rfl, rfl, rfl⟩
        case h_3 hmain =>
          cases bit with
          | false => exact ⟨rfl, rfl, rfl⟩
          | true =>
            have hinit : initialized = true := by simpa using hinitialized
            simp [Button.releases, hpressed', hlevel', hinit, hmain] at h

theorem buttonInterrupt_release (h : b.releases level bit initialized = true) (uptime : Nat) :
    b.buttonInterrupt level bit initialized uptime =
      { b with pressed := false, delayed := false }.shortPress uptime := by
  simp only [Button.releases, Bool.and_eq_true, Bool.not_eq_true', decide_eq_true_iff] at h
  obtain ⟨⟨⟨⟨hpressed, rfl⟩, rfl⟩, hmain⟩, rfl⟩ := h
  rw [Button.buttonInterrupt, if_neg (by rw [hpressed]; decide), hpressed, if_neg (by decide)]
  simp only [hmain, Bool.not_true, Bool.false_eq_true, if_false, if_true]

theorem longPressStep_frame (b : Button) :
    b.longPressStep.badCount = b.badCount ∧ b.longPressStep.pressTs = b.pressTs := by
  rw [Button.longPressStep]
  split
  case h_1 =>
    split
    case isTrue => exact ⟨rfl, rfl⟩
    case isFalse => exact ⟨rfl, rfl⟩
  case h_2 => exact ⟨rfl, rfl⟩
  case h_3 => exact ⟨rfl, rfl⟩

/-- A release within half a second of the last one goes on with its burst. -/
theorem Bursts.join (h : Bursts s done init t) (hsame : sameBurst t s.now = true)
    (hrelease : s.button.releases level bit initialized = true) :
    Bursts (s.step (.edge level bit initialized)) done (init ++ [t]) s.now := by
  have hrapid := (rapid_eq (b := { s.button with pressed := false, delayed := false })
    h.last h.past).trans hsame
  have hcount : s.button.badCount < 6 := h.badCount ▸ Nat.mod_lt _ (by decide)
  have hcall := (buttonInterrupt_release hrelease (uptime32 s.now)).trans
    (shortPress_rapid hrapid hcount)
  have hmod : (s.button.badCount + 1) % 6 = (init.length + 1) % 6 := by
    rw [h.badCount, Nat.mod_add_mod]
  dsimp only at hcall
  rw [hmod] at hcall
  constructor
  case splits =>
    show (0 :: if s.button.releases level bit initialized then _ else _).splitBy _ = _
    rw [if_pos hrelease, ← List.cons_append, splitBy_snoc_join h.splits hsame, List.append_assoc]
  case last =>
    show (s.button.buttonInterrupt level bit initialized _).1.pressTs = _
    rw [hcall]
  case past => exact Nat.le_refl _
  case badCount =>
    show (s.button.buttonInterrupt level bit initialized _).1.badCount = _
    rw [hcall, List.length_append, List.length_singleton]
  case calls =>
    show Call.hello :: (s.calls ++ (s.button.buttonInterrupt level bit initialized _).2.toList) = _
    rw [hcall, ← List.cons_append, h.calls, List.flatMap_append, List.flatMap_append,
      List.flatMap_singleton, List.flatMap_singleton, ofBurst_snoc, ← List.append_assoc]
    congr 1
    split <;> rfl

/-- A later one begins a burst. -/
theorem Bursts.begin (h : Bursts s done init t) (hsame : sameBurst t s.now = false)
    (hrelease : s.button.releases level bit initialized = true) :
    Bursts (s.step (.edge level bit initialized)) (done ++ [init ++ [t]]) [] s.now := by
  have hrapid := (rapid_eq (b := { s.button with pressed := false, delayed := false })
    h.last h.past).trans hsame
  have hcall := (buttonInterrupt_release hrelease (uptime32 s.now)).trans
    (shortPress_not_rapid hrapid)
  constructor
  case splits =>
    show (0 :: if s.button.releases level bit initialized then _ else _).splitBy _ = _
    rw [if_pos hrelease, ← List.cons_append, splitBy_snoc_begin h.splits hsame, List.nil_append]
  case last =>
    show (s.button.buttonInterrupt level bit initialized _).1.pressTs = _
    rw [hcall]
  case past => exact Nat.le_refl _
  case badCount =>
    show (s.button.buttonInterrupt level bit initialized _).1.badCount = _
    rw [hcall]
    rfl
  case calls =>
    show Call.hello :: (s.calls ++ (s.button.buttonInterrupt level bit initialized _).2.toList) = _
    rw [hcall, ← List.cons_append, h.calls, @List.flatMap_append _ _ _ [[] ++ [s.now]] ofBurst,
      List.flatMap_singleton, List.nil_append, ofBurst_singleton, Option.toList_some]

theorem Bursts.step (h : Bursts s done init t) (e : Touch) :
    ∃ done init t, Bursts (s.step e) done init t := by
  cases e with
  | tick ms =>
    have hpast : t ≤ s.now + ms := Nat.le_add_right_of_le h.past
    exact ⟨done, init, t, h.splits, h.last, hpast, h.badCount, h.calls⟩
  | longPress =>
    obtain ⟨hcount, hlast⟩ := longPressStep_frame s.button
    exact ⟨done, init, t, h.splits, hlast.trans h.last, h.past, hcount.trans h.badCount, h.calls⟩
  | edge level bit initialized =>
    cases hrelease : s.button.releases level bit initialized with
    | true =>
      cases hsame : sameBurst t s.now with
      | true => exact ⟨_, _, _, h.join hsame hrelease⟩
      | false => exact ⟨_, _, _, h.begin hsame hrelease⟩
    | false =>
      obtain ⟨hnone, hcount, hlast⟩ := buttonInterrupt_other hrelease (uptime32 s.now)
      refine ⟨done, init, t, ?_⟩
      constructor
      case splits =>
        show (0 :: if s.button.releases level bit initialized then _ else s.releases).splitBy _ = _
        rw [hrelease]
        exact h.splits
      case last => exact hlast.trans h.last
      case past => exact h.past
      case badCount => exact hcount.trans h.badCount
      case calls =>
        show Call.hello ::
          (s.calls ++ (s.button.buttonInterrupt level bit initialized _).2.toList) = _
        rw [hnone, Option.toList_none, List.append_nil]
        exact h.calls

theorem exists_bursts (es : List Touch) :
    ∃ done init t, Bursts (run Pressed.step {} es) done init t :=
  run_invariant Pressed.step (I := fun s => ∃ done init t, Bursts s done init t)
    (fun _ e ⟨_, _, _, h⟩ => h.step e) ⟨_, _, _, bursts_boot⟩ es

/-- Whatever is pressed when, the calls are a hello for every burst of short presses on the main
screen and a bad user for every six of its presses after the first, where the boot counts as a press
that has had its hello. -/
theorem calls_of_bursts (es : List Touch) :
    .hello :: (run Pressed.step {} es).calls =
      ((0 :: (run Pressed.step {} es).releases).splitBy sameBurst).flatMap ofBurst := by
  obtain ⟨done, init, t, h⟩ := exists_bursts es
  rw [h.splits, h.calls]

end MeshBadge
end ZephyrSamples
