import ZephyrSamples.Lighting.Quiescence
import ZephyrSamples.Lighting.StoredStates

/-!
# The remaining time

`calculate_rt` writes the time that is left into a byte of six bits of steps under two of
resolution, in thresholds of its own, and `set_transition_counter` reads such a byte.  The byte
stands for what is left, rounded down to the resolution.
-/

namespace ZephyrSamples
namespace Lighting

open Runs Server

namespace Transition

/-! ## The byte -/

/-- The resolution and the steps `calculate_rt` chooses. -/
def rtFields (remainder : Int) : Int × Int :=
  if remainder > 620000 then (3, remainder / 600000)
  else if remainder > 62000 then (2, remainder / 10000)
  else if remainder > 6200 then (1, remainder / 1000)
  else if remainder > 0 then (0, remainder / 100)
  else (0, 0)

def encode (fields : Int × Int) : UInt8 := (UInt8.ofInt fields.1 <<< 6) ||| UInt8.ofInt fields.2

/-- What is left of the transition at `now`, in milliseconds. -/
def remaining (now : Int) (t : Transition) : Int :=
  if t.justStarted then t.totalDuration.toNat
  else (t.totalDuration.toNat : Int) - (now - t.startTimestamp)

theorem calculateRt_of_justStarted {t : Transition} (now : Int) (htype : t.type ≠ some .move)
    (hfirst : t.justStarted = true) : (t.calculateRt now).rt = t.tt := by
  rw [calculateRt, if_neg htype, if_pos hfirst]

theorem calculateRt_of_not {t : Transition} (now : Int) (htype : t.type ≠ some .move)
    (hfirst : t.justStarted = false) :
    (t.calculateRt now).rt = encode (rtFields (Int.bmod (t.remaining now) (2 ^ 32))) := by
  have hremaining : t.remaining now = (t.totalDuration.toNat : Int) - (now - t.startTimestamp) :=
    if_neg (by simp [hfirst])
  rw [calculateRt, if_neg htype, if_neg (by simp [hfirst]), hremaining]
  rfl

theorem encode_fields {resolution steps : ℕ} (hresolution : resolution < 4) (hsteps : steps < 64) :
    encode (resolution, steps) >>> 6 = UInt8.ofNat resolution ∧
      encode (resolution, steps) &&& 0x3F = UInt8.ofNat steps := by
  have hall : ∀ resolution : Fin 4, ∀ steps : Fin 64,
      encode ((resolution : ℕ), (steps : ℕ)) >>> 6 = UInt8.ofNat resolution ∧
        encode ((resolution : ℕ), (steps : ℕ)) &&& 0x3F = UInt8.ofNat steps := by
    decide +kernel
  exact hall ⟨resolution, hresolution⟩ ⟨steps, hsteps⟩

/-- The byte stands for `remaining` milliseconds, rounded down to its resolution. -/
structure Decodes (remaining : Int) (byte : UInt8) : Prop where
  le : ((duration byte).toNat : Int) ≤ max remaining 0
  lt : max remaining 0 < (duration byte).toNat + (stepResolution (byte >>> 6)).toNat
  known : byte &&& 0x3F ≠ 0x3F

theorem decodes_encode {remaining unit : Int} {resolution steps : ℕ} (hresolution : resolution < 4)
    (hunit : ((stepResolution (UInt8.ofNat resolution)).toNat : Int) = unit) (hsteps : steps < 0x3F)
    (hle : steps * unit ≤ max remaining 0) (hlt : max remaining 0 < steps * unit + unit) :
    Decodes remaining (encode (resolution, steps)) := by
  obtain ⟨hhigh, hlow⟩ := encode_fields hresolution (show steps < 64 by omega)
  have hsmall : (stepResolution (UInt8.ofNat resolution)).toNat ≤ 600000 := by
    obtain ⟨tenths, -, htenths, heq⟩ := stepResolution_eq (UInt8.ofNat resolution)
    omega
  have hbyte : (UInt8.ofNat steps).toNat = steps :=
    UInt8.toNat_ofNat_of_lt (show steps < 256 by omega)
  have hduration : ((duration (encode (resolution, steps))).toNat : Int) = steps * unit := by
    rw [duration, hhigh, hlow, UInt32.toNat_mul, UInt8.toNat_toUInt32, hbyte,
      Nat.mod_eq_of_lt (by nlinarith), Nat.cast_mul, hunit]
  refine ⟨?_, ?_, ?_⟩
  · rw [hduration]
    exact hle
  · rw [hduration, hhigh, hunit]
    exact hlt
  · rw [hlow]
    intro hunknown
    have hno := congrArg UInt8.toNat hunknown
    rw [hbyte] at hno
    exact absurd hno (Nat.ne_of_lt hsteps)

/-- The thresholds keep the steps below the reserved value. -/
theorem rtFields_decodes {remaining : Int} (hle : remaining ≤ 37200000) :
    Decodes remaining (encode (rtFields remaining)) ∧ 0 ≤ (rtFields remaining).2 ∧
      (rtFields remaining).2 < 0x3F := by
  have hencode (resolution : ℕ) (unit : Int) (hfields : rtFields remaining =
      ((resolution : Int), remaining / unit)) (hresolution : resolution < 4)
      (hunit : ((stepResolution (UInt8.ofNat resolution)).toNat : Int) = unit)
      (hpos : 0 < remaining) (hmany : 0 < unit) (hmax : remaining / unit < 0x3F) :
      Decodes remaining (encode (rtFields remaining)) ∧ 0 ≤ (rtFields remaining).2 ∧
        (rtFields remaining).2 < 0x3F := by
    have hquot : 0 ≤ remaining / unit := Int.ediv_nonneg hpos.le hmany.le
    obtain ⟨steps, hsteps⟩ := Int.eq_ofNat_of_zero_le hquot
    have hdiv := Int.mul_ediv_add_emod remaining unit
    have hmod := Int.emod_nonneg remaining hmany.ne'
    have hmod' := Int.emod_lt_of_pos remaining hmany
    rw [hfields]
    refine ⟨?_, hquot, hmax⟩
    rw [hsteps] at hmax hdiv ⊢
    rw [mul_comm] at hdiv
    refine decodes_encode hresolution hunit (by omega) ?_ ?_
    · rw [max_eq_left hpos.le]
      omega
    · rw [max_eq_left hpos.le]
      omega
  unfold rtFields at hencode ⊢
  split_ifs at hencode ⊢ with h₃ h₂ h₁ h₀
  · exact hencode 3 600000 rfl (by decide) rfl (by omega) (by decide) (by omega)
  · exact hencode 2 10000 rfl (by decide) rfl (by omega) (by decide) (by omega)
  · exact hencode 1 1000 rfl (by decide) rfl (by omega) (by decide) (by omega)
  · exact hencode 0 100 rfl (by decide) rfl (by omega) (by decide) (by omega)
  · refine ⟨?_, by decide, by decide⟩
    have hzero : max remaining 0 = 0 := max_eq_right (by omega)
    exact @decodes_encode remaining 100 0 0 (by decide) rfl (by decide) (by rw [hzero]; decide)
      (by rw [hzero]; decide)

/-- A transition time whose steps are known is less than the steps can tell. -/
theorem duration_le {byte : UInt8} (hknown : byte &&& 0x3F ≠ 0x3F) :
    (duration byte).toNat = (byte &&& 0x3F).toNat * (stepResolution (byte >>> 6)).toNat ∧
      (duration byte).toNat ≤ 37200000 := by
  have hmask : (byte &&& 0x3F).toNat ≤ 63 := by
    have heq : (byte &&& 0x3F).toNat = byte.toNat &&& 63 := by simp
    rw [heq]
    exact Nat.and_le_right
  have hsteps : (byte &&& 0x3F).toNat ≤ 62 := by
    have hne : (byte &&& 0x3F).toNat ≠ 63 := fun h63 => hknown (UInt8.toNat_inj.mp h63)
    omega
  obtain ⟨tenths, -, htenths, heq⟩ := stepResolution_eq (byte >>> 6)
  have hduration : (duration byte).toNat =
      (byte &&& 0x3F).toNat * (stepResolution (byte >>> 6)).toNat := by
    rw [duration, UInt32.toNat_mul, UInt8.toNat_toUInt32, Nat.mod_eq_of_lt (by rw [heq]; nlinarith)]
  refine ⟨hduration, ?_⟩
  rw [hduration, heq]
  nlinarith

end Transition

/-! ## The time a transition is set up with -/

/-- The default transition time is a known one, and so is that of a transition under way, whose
duration is what it stands for. -/
structure Known (s : Server) : Prop where
  tt : s.tt &&& 0x3F ≠ 0x3F
  transition : s.transition.counter ≠ 0 → s.transition.tt &&& 0x3F ≠ 0x3F ∧
    s.transition.totalDuration = Transition.duration s.transition.tt

theorem known_of_forgetStatus {s s' : Server} (h : s.forgetStatus = s'.forgetStatus)
    (hknown : Known s') : Known s := by
  have hforget : Known s'.forgetStatus := ⟨hknown.tt, hknown.transition⟩
  rw [← h] at hforget
  exact ⟨hforget.tt, hforget.transition⟩

theorem Server.TakesTime.known {s s' : Server} (h : s.TakesTime s') (htt : s.tt &&& 0x3F ≠ 0x3F) :
    s'.transition.tt &&& 0x3F ≠ 0x3F := by
  obtain ⟨buf, delay, hfields⟩ := h
  unfold optionalFields at hfields
  split at hfields
  · rw [← (Prod.mk.inj (Option.some.inj hfields)).1]
    exact htt
  · split at hfields
    · cases hfields
    · rename_i hknown
      rw [← (Prod.mk.inj (Option.some.inj hfields)).1]
      exact hknown
  · cases hfields

section Messages

variable {linearToActual : UInt16 → UInt16} {m : Message} {s : Server}

theorem receive_known_of_none (h : Known s) (haccept : m.accept linearToActual s = none) :
    Known (receive linearToActual m s) := by
  have htt : (receive linearToActual m s).tt &&& 0x3F ≠ 0x3F := by
    cases hdelta : m.request.isDelta with
    | true =>
      rw [receive_tt_of_delta hdelta haccept]
      exact h.tt
    | false =>
      rcases (receive_keepsDefaults hdelta haccept).tt with heq | hknown
      · rw [heq]
        exact h.tt
      · exact hknown
  refine ⟨htt, ?_⟩
  have htransition :
      ∃ rt, (receive linearToActual m s).transition = { s.transition with rt := rt } := by
    obtain ⟨_, _, _, _, hranges⟩ := m.setRanges_cases s
    obtain ⟨_, _, _, _, _, _, _, rt, _, _, _, _, heq⟩ := receive_of_none haccept
    rw [heq, hranges]
    exact ⟨rt, rfl⟩
  obtain ⟨rt, htransition⟩ := htransition
  rw [htransition]
  exact h.transition

theorem receive_known (h : Known s) : Known (receive linearToActual m s) := by
  cases haccept : m.accept linearToActual s with
  | none => exact receive_known_of_none h haccept
  | some a =>
    have haccepted := Message.accepted_of_accept haccept
    have htime := haccepted.takesTime.known h.tt
    have htt : a.state.tt = s.tt := by
      obtain ⟨_, _, _, _, _, _, _, _, _, _, heq⟩ := haccepted.state_eq
      rw [heq]
    refine known_of_forgetStatus (receive_of_some haccept) ?_
    cases hreturns : a.returns with
    | true =>
      rw [a.finish_of_returns m.ctx haccepted.counter hreturns]
      refine ⟨?_, fun hcounter => absurd haccepted.counter hcounter⟩
      rw [htt]
      exact h.tt
    | false =>
      have hstarted := a.finish_started m.ctx haccepted.counter hreturns
      refine ⟨?_, fun hcounter => ?_⟩
      · rw [hstarted.tt, htt]
        exact h.tt
      · rw [hstarted.totalDuration hcounter, hstarted.transitionTt]
        exact ⟨htime, rfl⟩

end Messages

/-- A work handler does not begin a transition and leaves the duration. -/
structure Transition.Continues (t t' : Transition) : Prop where
  totalDuration : t'.totalDuration = t.totalDuration
  counter : t'.counter ≠ 0 → t.counter ≠ 0

namespace Server

section Expiry

variable {step arrive : Server → Server} {now : Int} {s : Server}

theorem workHandler_continues (hstep : ∀ s : Server, (step s).transition = s.transition)
    (harrive : ∀ s : Server, (arrive s).transition = s.transition) (h : s.transition.Expired) :
    s.transition.Continues (workHandler step arrive now s).transition := by
  by_cases hfirst : s.transition.justStarted = true
  · rw [workHandler_first hfirst]
    by_cases hcounter : s.transition.counter = 0
    · rw [firstExpiry_of_zero hcounter]
      simp only [timerStop, updateLightState_transition]
      exact ⟨rfl, id⟩
    · rw [firstExpiry_of_ne hcounter]
      exact ⟨rfl, id⟩
  · have hfirst : s.transition.justStarted = false := by simpa using hfirst
    have hcounter : s.transition.counter ≠ 0 := h.progress.resolve_left (by simp [hfirst])
    by_cases hlast : s.transition.counter - 1 = 0
    · rw [workHandler_arrive hfirst hlast]
      simp only [timerStop, updateLightState_transition, harrive]
      exact ⟨rfl, fun _ => hcounter⟩
    · rw [workHandler_step hfirst hlast, updateLightState_transition, hstep]
      exact ⟨rfl, fun _ => hcounter⟩

theorem levelMoveLightnessWorkHandler_continues :
    s.transition.Continues s.levelMoveLightnessWorkHandler.transition := by
  rw [levelMoveLightnessWorkHandler_eq]
  split
  · simp only [timerStop, setCounter, updateLightState_transition]
    exact ⟨rfl, fun h => absurd rfl h⟩
  · rw [updateLightState_transition]
    exact ⟨rfl, id⟩

theorem levelMoveTempWorkHandler_continues :
    s.transition.Continues s.levelMoveTempWorkHandler.transition := by
  rw [levelMoveTempWorkHandler_eq]
  split
  · simp only [timerStop, setCounter, updateLightState_transition]
    exact ⟨rfl, fun h => absurd rfl h⟩
  · rw [updateLightState_transition]
    exact ⟨rfl, id⟩

theorem expiryWork_continues (handler : TtHandler) (now : Int) (h : s.transition.Expired) :
    s.transition.Continues (expiryWork handler now s).transition := by
  have hlevel (move step arrive : Server → Server)
      (hmove : s.transition.Continues (move s).transition)
      (hstep : ∀ s : Server, (step s).transition = s.transition)
      (harrive : ∀ s : Server, (arrive s).transition = s.transition) :
      s.transition.Continues (levelWorkHandler move step arrive now s).transition := by
    unfold levelWorkHandler
    split
    · exact hmove
    · exact workHandler_continues hstep harrive h
  cases handler with
  | levelLightness =>
    exact hlevel _ _ _ levelMoveLightnessWorkHandler_continues (fun _ => rfl) fun _ => rfl
  | levelTemp =>
    exact hlevel _ _ _ levelMoveTempWorkHandler_continues (fun _ => rfl) fun _ => rfl
  | _ => exact workHandler_continues (fun _ => rfl) (fun _ => rfl) h

theorem timerExpiry_known (htimed : s.transition.Timed) (h : Known s)
    (hrunning : s.transition.timer.running = true) : Known (s.timerExpiry now) := by
  obtain ⟨handler, hhandler⟩ := Option.isSome_iff_exists.mp (htimed.handler hrunning)
  have hcontinues := expiryWork_continues handler now (expired_expired htimed hrunning)
  rw [timerExpiry_eq now hhandler]
  obtain ⟨_, _, _, _, _, _, _, _, heq⟩ := advances_expiryWork handler now s.expired
  rw [heq] at hcontinues ⊢
  refine ⟨h.tt, fun hcounter => ?_⟩
  obtain ⟨hknown, htotal⟩ := h.transition (hcontinues.counter hcounter)
  exact ⟨hknown, hcontinues.totalDuration.trans htotal⟩

end Expiry

end Server

/-! ## Runs -/

section Runs

variable (linearToActual : UInt16 → UInt16)

theorem step_known (s : Server) (e : Event) (h : s.transition.Timed ∧ Known s) :
    (step linearToActual s e).transition.Timed ∧ Known (step linearToActual s e) := by
  refine ⟨step_timed linearToActual s e h.1, ?_⟩
  cases e with
  | message m => exact receive_known h.2
  | query q now =>
    have hkeeps : ∃ rt, (q.get now s).transition = { s.transition with rt := rt } := by
      obtain ⟨_, _, _, _, _, _, _, rt, _, _, _, _, heq⟩ := q.get_keeps now s
      rw [heq]
      exact ⟨rt, rfl⟩
    obtain ⟨rt, htransition⟩ := hkeeps
    show Known (q.get now s)
    refine ⟨?_, ?_⟩
    · rcases (query_keepsDefaults q now s).tt with heq | hknown
      · rw [heq]
        exact h.2.tt
      · exact hknown
    · rw [htransition]
      exact h.2.transition
  | timerExpiry now =>
    show Known (if s.transition.timer.running then s.timerExpiry now else s)
    split
    · rename_i hrunning
      exact timerExpiry_known h.1 h.2 hrunning
    · exact h.2
  | noTransitionWork =>
    show Known (if s.noTransitionQueued then _ else s)
    split
    · obtain ⟨last, leds, effects, heq⟩ := noTransitionWorkHandler_eq
        { s with noTransitionQueued := false }
      rw [heq]
      exact ⟨h.2.tt, h.2.transition⟩
    · exact h.2

theorem Booted.known {s : Server} (h : Booted s) (htt : s.tt &&& 0x3F ≠ 0x3F) : Known s := by
  obtain ⟨loaded, hloaded, rfl⟩ := h
  obtain ⟨light, temp, duv, heq, _⟩ := lightDefaultStatusInit_eq loaded
  refine ⟨htt, fun hcounter => absurd ?_ hcounter⟩
  rw [heq]
  show loaded.transition.counter = 0
  rw [hloaded.transition]

/-- In every reachable state with a transition under way that is not a Move, the byte a Get writes
stands for what is left.  The time that is stored for the default is one its Set handler let in, and
the time that is left fits in 32 bits. -/
theorem rt_decodes_remaining {s₀ : Server} (hboot : Booted s₀) (htt : s₀.tt &&& 0x3F ≠ 0x3F)
    (es : List Event) {now : Int}
    (htype : (run (step linearToActual) s₀ es).transition.type = some .nonMove)
    (hcounter : (run (step linearToActual) s₀ es).transition.counter ≠ 0)
    (hlater : (run (step linearToActual) s₀ es).transition.startTimestamp ≤ now)
    (hfits : -2 ^ 31 ≤ (run (step linearToActual) s₀ es).transition.remaining now) :
    Transition.Decodes ((run (step linearToActual) s₀ es).transition.remaining now)
        ((run (step linearToActual) s₀ es).transition.calculateRt now).rt ∧
      ((run (step linearToActual) s₀ es).transition.justStarted = false →
        0 ≤ (Transition.rtFields (Int.bmod
          ((run (step linearToActual) s₀ es).transition.remaining now) (2 ^ 32))).2 ∧
        (Transition.rtFields (Int.bmod
          ((run (step linearToActual) s₀ es).transition.remaining now) (2 ^ 32))).2 < 0x3F) := by
  have hinvariant := run_invariant (step linearToActual) (step_known linearToActual)
    ⟨hboot.timed, hboot.known htt⟩ es
  generalize run (step linearToActual) s₀ es = s at *
  obtain ⟨hknown, htotal⟩ := hinvariant.2.transition hcounter
  obtain ⟨hproduct, hmax⟩ := Transition.duration_le hknown
  have hmove : s.transition.type ≠ some .move := by simp [htype]
  cases hfirst : s.transition.justStarted with
  | true =>
    have hremaining : s.transition.remaining now = s.transition.totalDuration.toNat :=
      if_pos hfirst
    rw [Transition.calculateRt_of_justStarted now hmove hfirst, hremaining, htotal]
    obtain ⟨tenths, hone, -, hunit⟩ := Transition.stepResolution_eq (s.transition.tt >>> 6)
    refine ⟨⟨le_max_left _ _, ?_, hknown⟩, fun hno => by cases hno⟩
    rw [max_eq_left (Int.natCast_nonneg _)]
    omega
  | false =>
    have hremaining : s.transition.remaining now =
        (s.transition.totalDuration.toNat : Int) - (now - s.transition.startTimestamp) :=
      if_neg (by simp [hfirst])
    have hle : s.transition.remaining now ≤ 37200000 := by
      rw [hremaining, htotal]
      omega
    rw [Transition.calculateRt_of_not now hmove hfirst,
      Int.bmod_eq_of_le (by omega) (by omega)]
    obtain ⟨hdecodes, hnonneg, hlt⟩ := Transition.rtFields_decodes hle
    exact ⟨hdecodes, fun _ => ⟨hnonneg, hlt⟩⟩

end Runs

/-- Client A fades the light off over a second, and the first expiry has started the clock. -/
def fadingOff : List Event :=
  [.message
      { request := .genOnoff, acked := false,
        ctx := { addr := 0x0100, recvDst := 0x0300, now := 9000 }, buf := [0, 1, 0x0A, 0] },
    .timerExpiry 9000]

/-- Half a second later five steps of a tenth of a second are left. -/
theorem rt_decodes_half :
    Transition.Decodes 500
      ((run (step id) bootState fadingOff).transition.calculateRt 9500).rt := by
  have hdecodes := (@rt_decodes_remaining id bootState booted_bootState (by decide) fadingOff 9500
    (by decide +kernel) (by decide +kernel) (by decide +kernel) (by decide +kernel)).1
  have hremaining : (run (step id) bootState fadingOff).transition.remaining 9500 = 500 := by
    decide +kernel
  rwa [hremaining] at hdecodes

/-- With the timer held up for twenty-five days the time that is left wraps, and a Get reports nine
hours. -/
theorem rt_not_decodes :
    let t := (run (step id) bootState fadingOff).transition
    (Booted bootState ∧ t.type = some .nonMove ∧ t.counter ≠ 0 ∧ t.startTimestamp ≤ 2147493649 ∧
      t.remaining 2147493649 < 0) ∧
      ¬ Transition.Decodes (t.remaining 2147493649) (t.calculateRt 2147493649).rt := by
  refine ⟨⟨booted_bootState, by decide +kernel⟩, fun h => ?_⟩
  exact absurd h.le (by decide +kernel)

end Lighting
end ZephyrSamples
