import ZephyrSamples.Lib.Runs

/-!
# The usage counts of the dummy device and of its parent

`dummy_open` takes a reference to the parent and one to the device, then waits until the device
has been resumed.  `dummy_close` gives both back.  An exit of `dummy_open` after the first
reference keeps what it has taken. -/

namespace ZephyrSamples
namespace DevicePm

open Runs

/-- What `k_poll_signal_check` reports. -/
structure Check where
  signaled : Bool
  result : Int
  deriving DecidableEq, Repr

/-- The checks of the loop in `dummy_open`, which ends with the first that is signaled. -/
structure Wait where
  checks : List Check
  signaled : (checks.find? (·.signaled)).isSome

def Wait.result (w : Wait) : Int := ((w.checks.find? (·.signaled)).get w.signaled).result

/-- How an open goes: what the two `device_pm_get` calls return and what the wait reports. -/
structure Open where
  getParent : Int
  getDev : Int
  wait : Wait

inductive Call where
  | dummyOpen (o : Open)
  /-- with what `device_pm_put_sync` returns -/
  | dummyClose (putDev : Int)

/-- The usage counts, and the opens that returned 0 and have not been closed. -/
structure State where
  parent : Int
  dev : Int
  opened : Nat
  deriving DecidableEq, Repr

/-- The state after `dummy_init`. -/
def init : State := { parent := 0, dev := 0, opened := 0 }

/-- What `device_pm_get` leaves of a usage count if it returns `ret`. -/
def get (count ret : Int) : Int := if ret < 0 then count else count + 1

def put (count : Int) : Int := count - 1

variable (active : Int)

/-- `dummy_open`, where `active` is `DEVICE_PM_ACTIVE_STATE`. -/
def dummyOpen (s : State) (o : Open) : Int × State :=
  let s := { s with parent := get s.parent o.getParent }
  if o.getParent < 0 then (o.getParent, s)
  else
    let s := { s with dev := get s.dev o.getDev }
    if o.getDev < 0 then (o.getDev, s)
    else if o.wait.result = active then (0, s)
    else (-1, s)

/-- `dummy_close`; `dummy_init` has found the parent. -/
def dummyClose (s : State) (putDev : Int) : Int × State :=
  (putDev, { s with dev := put s.dev, parent := put s.parent })

def step (s : State) : Call → State
  | .dummyOpen o =>
    let (ret, s) := dummyOpen active s o
    if ret = 0 then { s with opened := s.opened + 1 } else s
  | .dummyClose putDev =>
    let (_, s) := dummyClose s putDev
    { s with opened := s.opened - 1 }

/-- A close belongs to an open that returned 0. -/
def Paired (s : State) : Call → Prop
  | .dummyOpen _ => True
  | .dummyClose _ => 0 < s.opened

instance (s : State) (c : Call) : Decidable (Paired s c) := by
  cases c <;> unfold Paired <;> infer_instance

/-- Both usage counts are the number of opens that are not closed. -/
def Balanced (s : State) : Prop := s.parent = s.opened ∧ s.dev = s.opened

/-- An open that has resumed the parent gets the device and sees it resumed. -/
def Clean (_ : State) : Call → Prop
  | .dummyOpen o => 0 ≤ o.getParent → 0 ≤ o.getDev ∧ o.wait.result = active
  | .dummyClose _ => True

/-! ## What one call does -/

theorem get_of_neg {count ret : Int} (h : ret < 0) : get count ret = count := if_pos h

theorem get_of_nonneg {count ret : Int} (h : 0 ≤ ret) : get count ret = count + 1 :=
  if_neg (Int.not_lt.mpr h)

theorem dummyOpen_of_parent {s : State} {o : Open} (h : o.getParent < 0) :
    dummyOpen active s o = (o.getParent, s) := by
  simp only [dummyOpen, get_of_neg h, h, if_true]

theorem dummyOpen_of_dev {s : State} {o : Open} (hp : 0 ≤ o.getParent) (hd : o.getDev < 0) :
    dummyOpen active s o = (o.getDev, { s with parent := s.parent + 1 }) := by
  have hnp : ¬ o.getParent < 0 := Int.not_lt.mpr hp
  simp only [dummyOpen, get_of_nonneg hp, get_of_neg hd, hnp, hd, if_true, if_false]

theorem dummyOpen_of_resume {s : State} {o : Open} (hp : 0 ≤ o.getParent) (hd : 0 ≤ o.getDev) :
    dummyOpen active s o = (if o.wait.result = active then 0 else -1,
      { s with parent := s.parent + 1, dev := s.dev + 1 }) := by
  have hnp : ¬ o.getParent < 0 := Int.not_lt.mpr hp
  have hnd : ¬ o.getDev < 0 := Int.not_lt.mpr hd
  simp only [dummyOpen, get_of_nonneg hp, get_of_nonneg hd, hnp, hnd, if_false]
  split <;> rfl

theorem balanced_open {s : State} {o : Open} (hs : Balanced s) :
    Balanced (step active s (.dummyOpen o)) ↔ Clean active s (.dummyOpen o) := by
  obtain ⟨hparent, hdev⟩ := hs
  by_cases hp : o.getParent < 0
  · have hret : o.getParent ≠ 0 := by omega
    simp only [step, dummyOpen_of_parent active hp, if_neg hret, Clean]
    exact ⟨fun _ h => absurd h (Int.not_le.mpr hp), fun _ => ⟨hparent, hdev⟩⟩
  · have hp := Int.not_lt.mp hp
    by_cases hd : o.getDev < 0
    · have hret : o.getDev ≠ 0 := by omega
      simp only [step, dummyOpen_of_dev active hp hd, if_neg hret, Clean, Balanced]
      constructor
      · intro h
        omega
      · intro h
        have hget := (h hp).1
        omega
    · have hd := Int.not_lt.mp hd
      by_cases hr : o.wait.result = active
      · simp only [step, dummyOpen_of_resume active hp hd, if_pos hr, if_true, Clean, Balanced]
        refine ⟨fun _ _ => ⟨hd, hr⟩, fun _ => ?_⟩
        omega
      · have hret : (-1 : Int) ≠ 0 := by decide
        simp only [step, dummyOpen_of_resume active hp hd, if_neg hr, if_neg hret, Clean, Balanced]
        constructor
        · intro h
          omega
        · exact fun h => absurd (h hp).2 hr

theorem balanced_close {s : State} {putDev : Int} (hpaired : 0 < s.opened) (hs : Balanced s) :
    Balanced (step active s (.dummyClose putDev)) := by
  obtain ⟨hparent, hdev⟩ := hs
  simp only [step, dummyClose, put, Balanced]
  omega

/-! ## What a run does -/

theorem balanced_step {s : State} {c : Call} (hpaired : Paired s c) (hs : Balanced s) :
    Balanced (step active s c) ↔ Clean active s c := by
  cases c with
  | dummyOpen o => exact balanced_open active hs
  | dummyClose putDev =>
    exact ⟨fun _ => trivial, fun _ => balanced_close active hpaired hs⟩

theorem balanced_init : Balanced init := ⟨rfl, rfl⟩

/-- The usage counts stay balanced exactly as long as no open fails that has resumed the parent. -/
theorem balanced_iff_clean (cs : List Call) (h : Along (step active) Paired init cs) :
    Always (step active) Balanced init cs ↔ Along (step active) (Clean active) init cs :=
  always_iff_along_of_along (step active) (I := fun _ => True) (fun _ _ _ _ => trivial)
    (fun _ _ _ hpaired hs => balanced_step active hpaired hs) trivial balanced_init h

/-- A wait that is signaled at once. -/
def signaledAt (result : Int) : Wait := { checks := [⟨true, result⟩], signaled := rfl }

theorem balanced_iff_clean_open_close :
    Along (step 1) Paired init [.dummyOpen ⟨0, 0, signaledAt 1⟩, .dummyClose 0] ∧
      (Always (step 1) Balanced init [.dummyOpen ⟨0, 0, signaledAt 1⟩, .dummyClose 0] ↔
        Along (step 1) (Clean 1) init [.dummyOpen ⟨0, 0, signaledAt 1⟩, .dummyClose 0]) := by
  have hpaired : Along (step 1) Paired init
      [.dummyOpen ⟨0, 0, signaledAt 1⟩, .dummyClose 0] := by decide
  exact ⟨hpaired, balanced_iff_clean 1 _ hpaired⟩

/-- An open whose `device_pm_get` of the device fails keeps its reference to the parent. -/
theorem open_leaks_parent :
    ¬ ∀ (active : Int) (cs : List Call), Along (step active) Paired init cs →
        Always (step active) Balanced init cs := by
  intro h
  have hlast := (h 1 [.dummyOpen ⟨0, -5, signaledAt 1⟩] ⟨trivial, trivial⟩).last
  have hparent : (1 : Int) = 0 := hlast.1
  exact absurd hparent (by decide)

end DevicePm
end ZephyrSamples
