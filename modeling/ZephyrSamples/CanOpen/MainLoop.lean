import Mathlib.Algebra.Group.Nat.Defs
import ZephyrSamples.Lib.Runs

/-!
# The main loop of the CANopen sample

One communication session: the passes of the inner loop, each of which hands the stack the
milliseconds since the pass before.  The durations of a pass are arbitrary, and the clock stands
still between the end of a pass and the time stamp of the next.  A pass that sleeps measures its
length and stores it in 32 bits, of which the stack gets 16, and a pass that does not sleep
measures nothing. -/

namespace ZephyrSamples
namespace CanOpen

open Runs

/-- `CO_NMT_reset_cmd_t` -/
inductive ResetCmd where
  | not
  | comm
  | app
  | quit
  deriving DecidableEq, Repr

/-- What the outside does in a pass: the durations in milliseconds, and what `CO_process` returns
and stores. -/
structure Pass where
  process : Nat
  reset : ResetCmd
  timeout : BitVec 16
  save : Nat
  sleep : Nat

/-- The inner loop in front of a pass.  `start` is the time stamp of the first pass and `passed` the
sum of what the calls of `CO_process` were given so far. -/
structure Loop where
  now : Nat
  elapsed : BitVec 32
  reset : ResetCmd
  start : Nat
  passed : Nat

/-- A session begins with `elapsed` at 0. -/
def Loop.init (now : Nat) : Loop :=
  { now, elapsed := 0, reset := .not, start := now, passed := 0 }

/-- `(uint16_t)elapsed`, the argument of `CO_process`. -/
def Loop.argument (s : Loop) : BitVec 16 := s.elapsed.setWidth 16

/-- `k_uptime_delta`, cast to `u32_t`. -/
def uptimeDelta (timestamp now : Nat) : BitVec 32 := BitVec.ofNat 32 (now - timestamp)

/-- One pass; behind a reset the loop has been left. -/
def step (s : Loop) (p : Pass) : Loop :=
  if s.reset ≠ .not then s
  else
    let timestamp := s.now
    let s := { s with passed := s.passed + s.argument.toNat, now := s.now + p.process }
    if p.reset ≠ .not then { s with reset := p.reset }
    else if 0 < p.timeout then
      let now := s.now + p.save + p.sleep
      { s with now, elapsed := uptimeDelta timestamp now }
    else { s with elapsed := 0 }

/-- What the stack has been told of the time, the call to come included, is the time there was, and
the call gets its value whole. -/
def Loop.Accounted (s : Loop) : Prop :=
  s.passed + s.argument.toNat = s.now - s.start ∧ s.argument.toNat = s.elapsed.toNat

/-- A pass that another call follows sleeps and takes less than `2 ^ 16` milliseconds, or does not
sleep and takes none. -/
def Lossless (s : Loop) (p : Pass) : Prop :=
  s.reset = .not → p.reset = .not →
    if 0 < p.timeout then p.process + p.save + p.sleep < 2 ^ 16 else p.process = 0

/-- What a pass comes to when another call follows it. -/
theorem step_of_not {s : Loop} {p : Pass} (hs : s.reset = .not) (hp : p.reset = .not) :
    (step s p).reset = .not ∧ (step s p).start = s.start ∧
      (step s p).passed = s.passed + s.argument.toNat ∧
      if 0 < p.timeout then
        (step s p).now = s.now + (p.process + p.save + p.sleep) ∧
          (step s p).elapsed = BitVec.ofNat 32 (p.process + p.save + p.sleep)
      else (step s p).now = s.now + p.process ∧ (step s p).elapsed = 0 := by
  unfold step
  rw [if_neg (not_not_intro hs), if_neg (not_not_intro hp)]
  by_cases ht : 0 < p.timeout
  · rw [if_pos ht, if_pos ht]
    have hsum : s.now + p.process + p.save + p.sleep = s.now + (p.process + p.save + p.sleep) := by
      omega
    refine ⟨hs, rfl, rfl, hsum, ?_⟩
    show uptimeDelta s.now (s.now + p.process + p.save + p.sleep) = _
    rw [uptimeDelta, hsum, Nat.add_sub_cancel_left]
  · rw [if_neg ht, if_neg ht]
    exact ⟨hs, rfl, rfl, rfl, rfl⟩

/-- A pass that ends the session, or one behind its end. -/
theorem step_reset {s : Loop} {p : Pass} (h : ¬ (s.reset = .not ∧ p.reset = .not)) :
    (step s p).reset ≠ .not := by
  unfold step
  by_cases hs : s.reset = .not
  · have hp : p.reset ≠ .not := fun hp => h ⟨hs, hp⟩
    rw [if_neg (not_not_intro hs), if_pos hp]
    exact hp
  · rw [if_pos hs]
    exact hs

theorem start_le_step {s : Loop} (h : s.start ≤ s.now) (p : Pass) :
    (step s p).start ≤ (step s p).now := by
  unfold step
  split
  · exact h
  · split
    · exact Nat.le_add_right_of_le h
    · split
      · exact Nat.le_trans h (by dsimp only; omega)
      · exact Nat.le_add_right_of_le h

theorem toNat_argument_ofNat (s : Loop) {n : Nat} (h : s.elapsed = BitVec.ofNat 32 n) :
    s.argument.toNat = n % 2 ^ 16 ∧ s.elapsed.toNat = n % 2 ^ 32 := by
  have helapsed : s.elapsed.toNat = n % 2 ^ 32 := by rw [h, BitVec.toNat_ofNat]
  refine ⟨?_, helapsed⟩
  rw [Loop.argument, BitVec.toNat_setWidth, helapsed]
  omega

/-- A pass after which the account is right is one that loses nothing. -/
theorem accounted_step_iff {s : Loop} (hs : s.start ≤ s.now)
    (h : s.reset = .not → s.Accounted) (p : Pass) :
    ((step s p).reset = .not → (step s p).Accounted) ↔ Lossless s p := by
  by_cases hnot : s.reset = .not ∧ p.reset = .not
  · obtain ⟨hsnot, hpnot⟩ := hnot
    obtain ⟨hreset, hstart, hpassed, htime⟩ := step_of_not hsnot hpnot
    obtain ⟨haccount, -⟩ := h hsnot
    have hlossless : Lossless s p ↔
        if 0 < p.timeout then p.process + p.save + p.sleep < 2 ^ 16 else p.process = 0 :=
      ⟨fun hl => hl hsnot hpnot, fun hl _ _ => hl⟩
    rw [hlossless, Loop.Accounted, hstart, hpassed]
    by_cases ht : 0 < p.timeout
    · rw [if_pos ht] at htime ⊢
      obtain ⟨hnow, helapsed⟩ := htime
      obtain ⟨harg, h32⟩ := toNat_argument_ofNat _ helapsed
      rw [hnow, harg, h32]
      constructor
      · intro hacc
        have := hacc hreset
        omega
      · intro hlt _
        omega
    · rw [if_neg ht] at htime ⊢
      obtain ⟨hnow, helapsed⟩ := htime
      obtain ⟨harg, h32⟩ := toNat_argument_ofNat (n := 0) _ helapsed
      rw [hnow, harg, h32]
      constructor
      · intro hacc
        have := hacc hreset
        omega
      · intro hzero _
        omega
  · refine ⟨fun _ hsnot hpnot => absurd ⟨hsnot, hpnot⟩ hnot, fun _ hreset => ?_⟩
    exact absurd hreset (step_reset hnot)

/-- In front of every call of a session the stack has been told of all the time there was, exactly
when no pass but the last loses any. -/
theorem session_accounted_iff (now : Nat) (passes : List Pass) :
    Always step (fun s => s.reset = .not → s.Accounted) (.init now) passes ↔
      Along step Lossless (.init now) passes := by
  refine always_iff_along step (I := fun s => s.start ≤ s.now) (fun s p h => start_le_step h p)
    (fun s p hI h => accounted_step_iff hI h p) (Nat.le_refl now) (fun _ => ?_) passes
  show 0 + 0 = now - now ∧ 0 = 0
  omega

/-- A millisecond in `CO_process` of a pass that does not sleep is lost, and so are the `2 ^ 16`
of one that sleeps too long. -/
theorem session_loses_time :
    ¬ Always step (fun s => s.reset = .not → s.Accounted) (.init 0)
        [{ process := 1, reset := .not, timeout := 0, save := 0, sleep := 0 }] ∧
      ¬ Always step (fun s => s.reset = .not → s.Accounted) (.init 0)
        [{ process := 1, reset := .not, timeout := 65535, save := 0, sleep := 65535 }] := by
  constructor
  · rintro ⟨-, h⟩
    exact absurd (h rfl).1 (by decide)
  · rintro ⟨-, h⟩
    exact absurd (h rfl).1 (by decide)

end CanOpen
end ZephyrSamples
