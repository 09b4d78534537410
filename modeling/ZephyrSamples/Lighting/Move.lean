import ZephyrSamples.Lib.Descent
import ZephyrSamples.Lighting.Convergence
import ZephyrSamples.Lighting.RangeBinding

/-!
# Moves

What the expiries of the timer do after a Generic Move Set.  The level goes on by the delta of the
message until it is at the end of its range, where the timer stops.  It goes the other way only with
the first move: from zero, below which it wraps, and from beyond the end it is to go to, where it is
put.
-/

namespace ZephyrSamples
namespace Lighting

open Descent Runs Server

/-! ## Moves of a word -/

/-- The word an expiry of a Move writes. -/
def moveOn (rangeMin rangeMax : UInt16) (delta : Int) (current : UInt16) : UInt16 :=
  UInt16.ofInt (moveValue current rangeMin rangeMax delta)

/-- The end of the range a delta goes to. -/
def moveEnd (rangeMin rangeMax : UInt16) (delta : Int) : UInt16 :=
  if 0 < delta then rangeMax else rangeMin

section Words

variable {rangeMin rangeMax current : UInt16} {delta : Int}

variable (current delta) in
theorem toNat_moveOn (hrange : rangeMin ≤ rangeMax) :
    ((moveOn rangeMin rangeMax delta current).toNat : ℤ) =
      moveValue current rangeMin rangeMax delta := by
  have hbounds := moveValue_bounds current delta hrange
  have hmax := rangeMax.toNat_lt
  exact toNat_ofInt_uint16 (by omega) (by omega)

theorem natCast_eq_moveValue_iff {target : UInt16} (hrange : rangeMin ≤ rangeMax) :
    (target.toNat : ℤ) = moveValue current rangeMin rangeMax delta ↔
      target = moveOn rangeMin rangeMax delta current := by
  rw [← toNat_moveOn _ _ hrange, ← UInt16.toNat_inj, Int.natCast_inj]

theorem moveOn_mem (hrange : rangeMin ≤ rangeMax) :
    rangeMin ≤ moveOn rangeMin rangeMax delta current ∧
      moveOn rangeMin rangeMax delta current ≤ rangeMax := by
  have hbounds := moveValue_bounds current delta hrange
  have hword := toNat_moveOn current delta hrange
  rw [UInt16.le_iff_toNat_le, UInt16.le_iff_toNat_le]
  omega

variable (current delta) in
/-- Where a move takes a word, in integers. -/
theorem toNat_moveOn_cases (hrange : rangeMin ≤ rangeMax) :
    let next := ((moveOn rangeMin rangeMax delta current).toNat : ℤ)
    (rangeMin.toNat ≤ next ∧ next ≤ rangeMax.toNat) ∧
    (0 < delta → current.toNat < rangeMax.toNat → (current.toNat : ℤ) < next) ∧
    (0 < delta → rangeMax.toNat ≤ current.toNat → next = rangeMax.toNat) ∧
    (delta < 0 → rangeMin.toNat < current.toNat → next < current.toNat) ∧
    (delta < 0 → 0 < current.toNat → current.toNat ≤ rangeMin.toNat →
      next = rangeMin.toNat) := by
  have hle := UInt16.le_iff_toNat_le.mp hrange
  have hzero : current = 0 ↔ current.toNat = 0 := by
    rw [← UInt16.toNat_inj]
    rfl
  dsimp only
  rw [toNat_moveOn _ _ hrange]
  refine ⟨moveValue_bounds _ _ hrange, ?_, ?_, ?_, ?_⟩
  all_goals
    unfold moveValue
    dsimp only
    simp only [ne_eq, hzero]
    intros
    split_ifs <;> omega

/-- How far a word is from the end of its Move. -/
def moveRank (rangeMin rangeMax : UInt16) (delta : Int) (current : UInt16) : ℕ :=
  if 0 < delta then
    if rangeMax < current then 1 else rangeMax.toNat - current.toNat
  else if current = rangeMin then 0
  else if current = 0 then 65536
  else if current < rangeMin then 1
  else current.toNat - rangeMin.toNat

theorem moveRank_lt (hrange : rangeMin ≤ rangeMax) (hdelta : delta ≠ 0)
    (hend : current ≠ moveEnd rangeMin rangeMax delta) :
    moveRank rangeMin rangeMax delta (moveOn rangeMin rangeMax delta current) <
      moveRank rangeMin rangeMax delta current := by
  obtain ⟨hmem, hup, hupEnd, hdown, hdownEnd⟩ :=
    toNat_moveOn_cases current delta hrange
  generalize moveOn rangeMin rangeMax delta current = next at *
  have hmax := rangeMax.toNat_lt
  have hcurrent := current.toNat_lt
  unfold moveEnd at hend
  unfold moveRank
  simp only [UInt16.lt_iff_toNat_lt, ← UInt16.toNat_inj, UInt16.toNat_zero] at hend ⊢
  by_cases hpos : 0 < delta
  · rw [if_pos hpos] at hend
    simp only [if_pos hpos]
    have hend : current.toNat ≠ rangeMax.toNat := fun heq => hend (UInt16.toNat_inj.mp heq)
    split_ifs <;> omega
  · rw [if_neg hpos] at hend
    simp only [if_neg hpos]
    have hend : current.toNat ≠ rangeMin.toNat := fun heq => hend (UInt16.toNat_inj.mp heq)
    split_ifs <;> omega

/-- The moves come to the end of the range. -/
theorem exists_moves (hrange : rangeMin ≤ rangeMax) (hdelta : delta ≠ 0) (current : UInt16) :
    ∃ n, (moveOn rangeMin rangeMax delta)^[n] current = moveEnd rangeMin rangeMax delta ∧
      ∀ k < n, (moveOn rangeMin rangeMax delta)^[k] current ≠ moveEnd rangeMin rangeMax delta :=
  exists_first_iterate (fun word => word = moveEnd rangeMin rangeMax delta)
    (fun _ hend => moveRank_lt hrange hdelta hend) current

end Words

/-! ## The Generic Level servers -/

/-- The two attributes with a Generic Level server. -/
inductive LevelServer where
  | light
  | temp
  deriving DecidableEq

namespace LevelServer

def moveRequest : LevelServer → Request
  | .light => .genMove
  | .temp => .genMoveTemp

def moveHandler : LevelServer → MoveHandler
  | .light => genMove
  | .temp => genMoveTemp

def current : LevelServer → Server → UInt16
  | .light, s => s.light.current
  | .temp, s => s.temp.current

def target : LevelServer → Server → UInt16
  | .light, s => s.light.target
  | .temp, s => s.temp.target

def rangeMin : LevelServer → Server → UInt16
  | .light, s => s.light.rangeMin
  | .temp, s => s.temp.rangeMin

def rangeMax : LevelServer → Server → UInt16
  | .light, s => s.light.rangeMax
  | .temp, s => s.temp.rangeMax

def delta : LevelServer → Server → Int
  | .light, s => s.light.delta
  | .temp, s => s.temp.delta

def moveWorkHandler : LevelServer → Server → Server
  | .light => levelMoveLightnessWorkHandler
  | .temp => levelMoveTempWorkHandler

/-- What a move leaves of the level. -/
structure Same (l : LevelServer) (s s' : Server) : Prop where
  target : l.target s' = l.target s
  rangeMin : l.rangeMin s' = l.rangeMin s
  rangeMax : l.rangeMax s' = l.rangeMax s
  delta : l.delta s' = l.delta s

theorem Same.trans {l : LevelServer} {s s' s'' : Server} (h : l.Same s s') (h' : l.Same s' s'') :
    l.Same s s'' :=
  ⟨h'.target.trans h.target, h'.rangeMin.trans h.rangeMin, h'.rangeMax.trans h.rangeMax,
    h'.delta.trans h.delta⟩

theorem ext_of_eq (l : LevelServer) (s s' : Server) (hlight : s'.light = s.light)
    (htemp : s'.temp = s.temp) : l.current s' = l.current s ∧ l.Same s s' := by
  cases l with
  | light =>
    simp only [current]
    exact ⟨by rw [hlight], by simp only [target, hlight], by simp only [rangeMin, hlight],
      by simp only [rangeMax, hlight], by simp only [delta, hlight]⟩
  | temp =>
    simp only [current]
    exact ⟨by rw [htemp], by simp only [target, htemp], by simp only [rangeMin, htemp],
      by simp only [rangeMax, htemp], by simp only [delta, htemp]⟩

/-- The handler of a Move writes the word and stops the timer if it is the target. -/
theorem moveWorkHandler_eq (l : LevelServer) {s : Server} (hrange : l.rangeMin s ≤ l.rangeMax s) :
    l.current (l.moveWorkHandler s) =
        moveOn (l.rangeMin s) (l.rangeMax s) (l.delta s) (l.current s) ∧
      l.Same s (l.moveWorkHandler s) ∧
      (l.target s = moveOn (l.rangeMin s) (l.rangeMax s) (l.delta s) (l.current s) →
        (l.moveWorkHandler s).transition =
          { s.transition with
            counter := 0, timer := { s.transition.timer with running := false } }) ∧
      (l.target s ≠ moveOn (l.rangeMin s) (l.rangeMax s) (l.delta s) (l.current s) →
        (l.moveWorkHandler s).transition = s.transition) := by
  cases l with
  | light =>
    have hrange : s.light.rangeMin ≤ s.light.rangeMax := hrange
    have heq := s.levelMoveLightnessWorkHandler_eq
    rw [if_congr (natCast_eq_moveValue_iff hrange) rfl rfl] at heq
    simp only [moveWorkHandler, heq]
    split
    · rename_i harrives
      refine ⟨by simp [current, rangeMin, rangeMax, delta, timerStop, setCounter, movedLight,
        moveOn], ?_, fun _ => by simp [timerStop, setCounter, movedLight],
        fun hno => absurd harrives hno⟩
      constructor <;> simp [target, rangeMin, rangeMax, delta, timerStop, setCounter, movedLight]
    · rename_i haway
      refine ⟨by simp [current, rangeMin, rangeMax, delta, movedLight, moveOn], ?_,
        fun hno => absurd hno haway, fun _ => by simp [movedLight]⟩
      constructor <;> simp [target, rangeMin, rangeMax, delta, movedLight]
  | temp =>
    have hrange : s.temp.rangeMin ≤ s.temp.rangeMax := hrange
    have heq := s.levelMoveTempWorkHandler_eq
    rw [if_congr (natCast_eq_moveValue_iff hrange) rfl rfl] at heq
    simp only [moveWorkHandler, heq]
    split
    · rename_i harrives
      refine ⟨by simp [current, rangeMin, rangeMax, delta, timerStop, setCounter, movedTemp,
        moveOn], ?_, fun _ => by simp [timerStop, setCounter, movedTemp],
        fun hno => absurd harrives hno⟩
      constructor <;> simp [target, rangeMin, rangeMax, delta, timerStop, setCounter, movedTemp]
    · rename_i haway
      refine ⟨by simp [current, rangeMin, rangeMax, delta, movedTemp, moveOn], ?_,
        fun hno => absurd hno haway, fun _ => by simp [movedTemp]⟩
      constructor <;> simp [target, rangeMin, rangeMax, delta, movedTemp]

end LevelServer

/-! ## The start -/

/-- The delta of a Generic Move Set. -/
def Message.moveDelta (m : Message) : Int := (toS16 (pullLe16 m.buf).1).toInt

/-- A Move that has somewhere to go goes to an end of the range. -/
theorem moveTarget_of_ne {delta : Int16} {current rangeMin rangeMax : UInt16}
    (h : moveTarget delta current rangeMin rangeMax ≠ current) :
    delta.toInt ≠ 0 ∧
      moveTarget delta current rangeMin rangeMax = moveEnd rangeMin rangeMax delta.toInt := by
  have hneg : delta < 0 ↔ delta.toInt < 0 := Int16.lt_iff_toInt_lt
  have hpos : delta > 0 ↔ 0 < delta.toInt := Int16.lt_iff_toInt_lt
  unfold moveTarget at h ⊢
  unfold moveEnd
  simp only [hneg, hpos] at h ⊢
  split at h
  · rename_i hlt
    exact ⟨hlt.ne, by rw [if_pos hlt, if_neg (by omega)]⟩
  · rename_i hge
    split at h
    · rename_i hgt
      exact ⟨hgt.ne', by rw [if_neg hge, if_pos hgt, if_pos hgt]⟩
    · exact absurd rfl h

/-- A Move that is not at its target and has a transition time starts the timer. -/
theorem Starter.moveUnack_eq (h : Starter) (ctx : MsgCtx) {s : Server}
    (htype : s.transition.type = some .move) (harrived : h.scope.arrived s = false)
    (hsteps : s.transition.tt &&& 0x3F ≠ 0) :
    ∃ (rt : UInt8) (total counter : UInt32) (duration : ℕ) (effects : List Effect)
      (published : List Status), counter ≠ 0 ∧ 0 < total.toNat ∧ h.moveUnack ctx s =
      { s with
        transition := { s.transition with
          justStarted := true, rt := rt, totalDuration := total, counter := counter, quoTt := total
          timer := { handler := some h.timer, running := true, duration := duration,
                     period := total.toNat } }
        effects := effects
        published := published } := by
  obtain ⟨total, counter, hsome, hpos, hone, -, -⟩ := s.transition.setTransitionCounter_ticks hsteps
  have hcounter : counter ≠ 0 := by
    rintro rfl
    exact absurd hone (by decide)
  have hvalues : s.setTransitionValues h.binding =
      { s with transition := { s.transition with
          totalDuration := total, counter := counter, quoTt := total } } := by
    simp only [setTransitionValues, hsome, htype, if_true]
  obtain ⟨rt, duration, published, heq⟩ := startHandler_publish_of_not h.status h.timer ctx
    (s := (s.setTransitionValues h.binding).setJustStarted)
    (by simp [hvalues, setJustStarted, hcounter])
  refine ⟨rt, total, counter, duration, s.effects ++ [.timerStart h.timer duration total.toNat],
    published, hcounter, hpos, ?_⟩
  have hmove : h.moveUnack ctx s =
      (h.status.publish ctx (s.setTransitionValues h.binding).setJustStarted).startHandler
        h.timer := by
    rw [Starter.moveUnack, if_neg (by simp [harrived]), if_neg (by simp [hvalues, hcounter])]
  rw [hmove, heq, hvalues]
  rfl

/-- The state a Move sets its target in. -/
theorem LevelServer.aim_eq (linearToActual : UInt16 → UInt16) (l : LevelServer) (delta : Int16)
    (tid tt delay : UInt8) (ctx : MsgCtx) (s : Server) :
    let s' := l.moveHandler.aim linearToActual delta tid tt delay ctx s
    l.current s' = l.current s ∧ l.rangeMin s' = l.rangeMin s ∧ l.rangeMax s' = l.rangeMax s ∧
      l.delta s' = delta.toInt ∧
      l.target s' = moveTarget delta (l.current s) (l.rangeMin s) (l.rangeMax s) ∧
      s'.transition.type = some .move := by
  cases l with
  | light =>
    obtain ⟨effects, heq⟩ := Scope.setTarget_eq linearToActual
      (.moveLight (moveTarget delta s.light.current s.light.rangeMin s.light.rangeMax))
      (genMove.setDelta delta.toInt (s.beginTransition .move tid tt delay ctx))
    have haim : genMove.aim linearToActual delta tid tt delay ctx s = _ := heq
    simp only [moveHandler, haim]
    exact ⟨rfl, rfl, rfl, rfl, rfl, rfl⟩
  | temp =>
    obtain ⟨effects, heq⟩ := Scope.setTarget_eq linearToActual
      (.moveTemp (moveTarget delta s.temp.current s.temp.rangeMin s.temp.rangeMax))
      (genMoveTemp.setDelta delta.toInt (s.beginTransition .move tid tt delay ctx))
    have haim : genMoveTemp.aim linearToActual delta tid tt delay ctx s = _ := heq
    simp only [moveHandler, haim]
    exact ⟨rfl, rfl, rfl, rfl, rfl, rfl⟩

/-- What a Move by `d` leaves that starts a transition. -/
structure MoveStarted (l : LevelServer) (d : Int) (s s₀ : Server) : Prop where
  current : l.current s₀ = l.current s
  rangeMin : l.rangeMin s₀ = l.rangeMin s
  rangeMax : l.rangeMax s₀ = l.rangeMax s
  delta : l.delta s₀ = d
  ne_zero : d ≠ 0
  target : l.target s₀ = moveEnd (l.rangeMin s) (l.rangeMax s) d
  away : l.current s ≠ moveEnd (l.rangeMin s) (l.rangeMax s) d
  type : s₀.transition.type = some .move
  justStarted : s₀.transition.justStarted = true
  counter : s₀.transition.counter ≠ 0
  handler : s₀.transition.timer.handler = some l.moveHandler.timer
  running : s₀.transition.timer.running = true
  period : s₀.transition.timer.period ≠ 0

theorem MoveStarted.of_forgetStatus {l : LevelServer} {d : Int} {s s₀ s₁ : Server}
    (heq : s₁.forgetStatus = s₀.forgetStatus) (h : MoveStarted l d s s₀) :
    MoveStarted l d s s₁ := by
  have hsame := l.ext_of_eq s₀.forgetStatus s₁.forgetStatus (by rw [heq]) (by rw [heq])
  have hforget₀ := l.ext_of_eq s₀ s₀.forgetStatus rfl rfl
  have hforget₁ := l.ext_of_eq s₁.forgetStatus s₁ rfl rfl
  have hlevel := (hforget₀.2.trans hsame.2).trans hforget₁.2
  have htransition : { s₁.transition with rt := 0 } = { s₀.transition with rt := 0 } :=
    congrArg Server.transition heq
  have htype := congrArg Transition.type htransition
  have hfirst := congrArg Transition.justStarted htransition
  have hcounter := congrArg Transition.counter htransition
  have htimer := congrArg Transition.timer htransition
  simp only at htype hfirst hcounter htimer
  exact {
    current := (hforget₁.1.trans (hsame.1.trans hforget₀.1)).trans h.current
    rangeMin := hlevel.rangeMin.trans h.rangeMin
    rangeMax := hlevel.rangeMax.trans h.rangeMax
    delta := hlevel.delta.trans h.delta
    ne_zero := h.ne_zero
    target := hlevel.target.trans h.target
    away := h.away
    type := htype.trans h.type
    justStarted := hfirst.trans h.justStarted
    counter := by rw [hcounter]; exact h.counter
    handler := by rw [htimer]; exact h.handler
    running := by rw [htimer]; exact h.running
    period := by rw [htimer]; exact h.period }

theorem LevelServer.arrived_iff (l : LevelServer) (s : Server) :
    l.moveHandler.scope.arrived s = true ↔ l.current s = l.target s := by
  cases l <;>
    simp [moveHandler, genMove, genMoveTemp, Scope.arrived, lightArrived, tempArrived, current,
      target]

/-- The message that starts a Move. -/
theorem receive_moveStarted {linearToActual : UInt16 → UInt16} (l : LevelServer) {m : Message}
    {s : Server} {a : Aim} (hrequest : m.request = l.moveRequest)
    (haccept : m.accept linearToActual s = some a) (hstarts : a.returns = false) :
    MoveStarted l m.moveDelta s (receive linearToActual m s) := by
  obtain ⟨tt, delay, haim⟩ : ∃ tt delay, a = ⟨l.moveHandler.toStarter,
      l.moveHandler.aim linearToActual (toS16 (pullLe16 m.buf).1)
        (pullU8 (pullLe16 m.buf).2).1 tt delay
        m.ctx s⟩ := by
    obtain ⟨request, acked, ctx, buf⟩ := m
    unfold Message.accept at haccept
    split at haccept
    · cases haccept
    · subst hrequest
      cases l with
      | light =>
        obtain ⟨-, tt, delay, -, rfl⟩ := MoveHandler.accept_aim haccept
        exact ⟨tt, delay, rfl⟩
      | temp =>
        obtain ⟨-, tt, delay, -, rfl⟩ := MoveHandler.accept_aim haccept
        exact ⟨tt, delay, rfl⟩
  refine .of_forgetStatus (receive_of_some haccept) ?_
  obtain ⟨hcurrent, hmin, hmax, hdelta, htarget, htype⟩ := l.aim_eq linearToActual
    (toS16 (pullLe16 m.buf).1) (pullU8 (pullLe16 m.buf).2).1 tt delay m.ctx s
  have hstate : a.state = l.moveHandler.aim linearToActual (toS16 (pullLe16 m.buf).1)
      (pullU8 (pullLe16 m.buf).2).1 tt delay m.ctx s := by rw [haim]
  have hstarter : a.starter = l.moveHandler.toStarter := by rw [haim]
  rw [← hstate] at hcurrent hmin hmax hdelta htarget htype
  have harrived : a.starter.scope.arrived a.state = false := by
    simp only [Aim.returns, Bool.or_eq_false_iff] at hstarts
    exact hstarts.1
  have hsteps : a.state.transition.tt &&& 0x3F ≠ 0 := by
    simpa [Aim.returns, harrived, htype] using hstarts
  obtain ⟨rt, total, counter, duration, effects, published, hcounter, hpos, heq⟩ :=
    a.starter.moveUnack_eq m.ctx htype harrived hsteps
  have hfinish : a.finish m.ctx = _ := (Aim.finish_of_move htype).trans heq
  have hsame := l.ext_of_eq a.state (a.finish m.ctx) (by rw [hfinish])
    (by rw [hfinish])
  have haway : l.current s ≠ l.target a.state := by
    intro hno
    rw [hstarter, Bool.eq_false_iff, ne_eq, l.arrived_iff, hcurrent] at harrived
    exact harrived hno
  obtain ⟨hdelta₀, hend⟩ := moveTarget_of_ne fun heq => haway (heq.symm.trans htarget.symm)
  rw [← htarget] at hend
  exact {
    current := hsame.1.trans hcurrent
    rangeMin := hsame.2.rangeMin.trans hmin
    rangeMax := hsame.2.rangeMax.trans hmax
    delta := hsame.2.delta.trans hdelta
    ne_zero := hdelta₀
    target := hsame.2.target.trans hend
    away := hend ▸ haway
    type := by rw [hfinish]; exact htype
    justStarted := by rw [hfinish]
    counter := by rw [hfinish]; exact hcounter
    handler := by rw [hfinish, hstarter]
    running := by rw [hfinish]
    period := by rw [hfinish]; exact Nat.ne_of_gt hpos }

/-! ## The expiries -/

section Expiry

variable {linearToActual : UInt16 → UInt16} {l : LevelServer} {s : Server} {now : Int}

theorem LevelServer.expiryWork_first (hfirst : s.transition.justStarted = true) :
    Server.expiryWork l.moveHandler.timer now s = s.firstExpiry now := by
  have hlevel (move step arrive : Server → Server) :
      Server.levelWorkHandler move step arrive now s = s.firstExpiry now := by
    rw [levelWorkHandler, if_neg fun hif => hif.1 hfirst, workHandler_first hfirst]
  cases l with
  | light => exact hlevel _ _ _
  | temp => exact hlevel _ _ _

theorem LevelServer.expiryWork_move (hfirst : s.transition.justStarted = false)
    (htype : s.transition.type = some .move) :
    Server.expiryWork l.moveHandler.timer now s = l.moveWorkHandler s := by
  have hlevel (move step arrive : Server → Server) :
      Server.levelWorkHandler move step arrive now s = move s :=
    if_pos ⟨by simp [hfirst], htype⟩
  cases l with
  | light => exact hlevel _ _ _
  | temp => exact hlevel _ _ _

end Expiry

/-- The word after so many moves. -/
def LevelServer.moved (l : LevelServer) (s₀ : Server) (k : ℕ) : UInt16 :=
  (moveOn (l.rangeMin s₀) (l.rangeMax s₀) (l.delta s₀))^[k] (l.current s₀)

/-- What the timer has done after `k` of its expiries, of which the first starts the clock and the
last is the one after `n` moves. -/
structure MoveUnderway (l : LevelServer) (n : ℕ) (s₀ s : Server) (k : ℕ) : Prop where
  current : l.current s = l.moved s₀ (min (k - 1) n)
  same : l.Same s₀ s
  type : s.transition.type = some .move
  justStarted : s.transition.justStarted = decide (k = 0)
  counter : k ≤ n → s.transition.counter ≠ 0
  handler : s.transition.timer.handler = some l.moveHandler.timer
  running : s.transition.timer.running = decide (k ≤ n)
  period : s.transition.timer.period ≠ 0

theorem MoveStarted.underway {l : LevelServer} {d : Int} {s s₀ : Server} (h : MoveStarted l d s s₀)
    (n : ℕ) : MoveUnderway l n s₀ s₀ 0 where
  current := by
    rw [Nat.zero_sub, Nat.zero_min]
    rfl
  same := ⟨rfl, rfl, rfl, rfl⟩
  type := h.type
  justStarted := h.justStarted
  counter _ := h.counter
  handler := h.handler
  running := by simp [h.running]
  period := h.period

namespace MoveUnderway

variable {linearToActual : UInt16 → UInt16} {l : LevelServer} {n k : ℕ} {s₀ s : Server} {now : Int}

/-- The first expiry starts the clock. -/
theorem step_first (h : MoveUnderway l n s₀ s 0) (hn : 0 < n) :
    MoveUnderway l n s₀ (step linearToActual s (.timerExpiry now)) 1 := by
  have hfirst : s.transition.justStarted = true := h.justStarted
  have hrunning : s.transition.timer.running = true := by simp [h.running]
  rw [step_timerExpiry hrunning h.handler h.period, LevelServer.expiryWork_first hfirst,
    Server.firstExpiry_of_ne (h.counter (Nat.zero_le n))]
  have hsame := l.ext_of_eq s { s with
    transition := { s.transition with justStarted := false, startTimestamp := now } } rfl rfl
  refine ⟨hsame.1.trans h.current, h.same.trans hsame.2, h.type, rfl,
    fun _ => h.counter (Nat.zero_le n), h.handler, ?_, h.period⟩
  simpa [hrunning] using Nat.succ_le_of_lt hn

/-- An expiry after the first is a move. -/
theorem step_eq (h : MoveUnderway l n s₀ s k) (hk : 0 < k) (hle : k ≤ n) :
    step linearToActual s (.timerExpiry now) = l.moveWorkHandler s := by
  have hfirst : s.transition.justStarted = false := by
    simpa [h.justStarted] using Nat.ne_of_gt hk
  have hrunning : s.transition.timer.running = true := by simpa [h.running] using hle
  rw [step_timerExpiry hrunning h.handler h.period, LevelServer.expiryWork_move hfirst h.type]

theorem step_move (h : MoveUnderway l n s₀ s k) (hk : 0 < k) (hle : k ≤ n)
    (hrange : l.rangeMin s₀ ≤ l.rangeMax s₀)
    (harrives : l.moved s₀ n = l.target s₀) (haway : ∀ j < n, l.moved s₀ j ≠ l.target s₀) :
    MoveUnderway l n s₀ (step linearToActual s (.timerExpiry now)) (k + 1) := by
  have hfirst : s.transition.justStarted = false := by
    simpa [h.justStarted] using Nat.ne_of_gt hk
  obtain ⟨hcurrent, hsame, hstop, hgo⟩ := l.moveWorkHandler_eq
    (s := s) (by rw [h.same.rangeMin, h.same.rangeMax]; exact hrange)
  have hnext : moveOn (l.rangeMin s) (l.rangeMax s) (l.delta s) (l.current s) = l.moved s₀ k := by
    obtain ⟨j, rfl⟩ := Nat.exists_eq_add_of_le' hk
    rw [h.same.rangeMin, h.same.rangeMax, h.same.delta, h.current, Nat.add_sub_cancel,
      Nat.min_eq_left (by omega)]
    exact (Function.iterate_succ_apply' _ _ _).symm
  rw [hnext] at hcurrent hstop hgo
  rw [h.same.target] at hstop hgo
  rw [h.step_eq hk hle]
  rcases hle.lt_or_eq with hlt | rfl
  · have htransition := hgo (haway k hlt).symm
    refine ⟨?_, h.same.trans hsame, ?_, ?_, fun _ => ?_, ?_, ?_, ?_⟩
    · rw [hcurrent, Nat.add_sub_cancel, Nat.min_eq_left hle]
    all_goals rw [htransition]
    · exact h.type
    · simpa using hfirst
    · exact h.counter hle
    · exact h.handler
    · simpa [h.running, hle] using Nat.succ_le_of_lt hlt
    · exact h.period
  · have htransition := hstop harrives.symm
    refine ⟨?_, h.same.trans hsame, ?_, ?_, fun hno => absurd hno (by omega), ?_, ?_, ?_⟩
    · rw [hcurrent, Nat.add_sub_cancel, Nat.min_eq_left hle]
    all_goals rw [htransition]
    · exact h.type
    · simpa using hfirst
    · exact h.handler
    · simp
    · exact h.period

/-- A timer that has stopped does not expire. -/
theorem step_stopped (h : MoveUnderway l n s₀ s k) (hk : n < k) :
    MoveUnderway l n s₀ (step linearToActual s (.timerExpiry now)) (k + 1) := by
  have hstopped : s.transition.timer.running = false := by simpa [h.running] using hk
  have hstep : step linearToActual s (.timerExpiry now) = s := if_neg (by simp [hstopped])
  rw [hstep]
  refine ⟨?_, h.same, h.type, ?_, fun hno => absurd hno (by omega), h.handler, ?_, h.period⟩
  · rw [h.current, Nat.min_eq_right (by omega), Nat.min_eq_right (by omega)]
  · rw [h.justStarted]
    simp [Nat.ne_of_gt (Nat.zero_lt_of_lt hk)]
  · rw [hstopped]
    simp
    omega

variable (linearToActual now) in
theorem step (h : MoveUnderway l n s₀ s k) (hn : 0 < n) (hrange : l.rangeMin s₀ ≤ l.rangeMax s₀)
    (harrives : l.moved s₀ n = l.target s₀) (haway : ∀ j < n, l.moved s₀ j ≠ l.target s₀) :
    MoveUnderway l n s₀ (Lighting.step linearToActual s (.timerExpiry now)) (k + 1) := by
  rcases Nat.eq_zero_or_pos k with rfl | hk
  · exact h.step_first hn
  · rcases Nat.lt_or_ge n k with hlt | hle
    · exact h.step_stopped hlt
    · exact h.step_move hk hle hrange harrives haway

end MoveUnderway

/-- After `nows.length` expiries. -/
theorem MoveStarted.underway_run (linearToActual : UInt16 → UInt16) {l : LevelServer} {d : Int}
    {n : ℕ} {s s₀ : Server} (h : MoveStarted l d s s₀) (hn : 0 < n)
    (hrange : l.rangeMin s₀ ≤ l.rangeMax s₀) (harrives : l.moved s₀ n = l.target s₀)
    (haway : ∀ j < n, l.moved s₀ j ≠ l.target s₀) (nows : List Int) :
    MoveUnderway l n s₀ (run (step linearToActual) s₀ (nows.map .timerExpiry)) nows.length := by
  induction nows using List.reverseRecOn with
  | nil => exact h.underway n
  | append_singleton nows now ih =>
    rw [List.map_append, run_append, List.length_append]
    exact ih.step linearToActual now hn hrange harrives haway

/-! ## The direction of a move -/

/-- The word goes the way of the delta. -/
def Onward (delta : Int) (current next : UInt16) : Prop :=
  if 0 < delta then current < next else next < current

/-- The first move goes the other way: from zero it wraps, and from beyond the end it is to go to it
is put there. -/
def TurnsBack (rangeMin rangeMax : UInt16) (delta : Int) (current next : UInt16) : Prop :=
  (delta < 0 ∧ current = 0) ∨
    (next = moveEnd rangeMin rangeMax delta ∧ ¬ (rangeMin ≤ current ∧ current ≤ rangeMax))

section Direction

variable {rangeMin rangeMax current : UInt16} {delta : Int}

theorem onward_or_turnsBack (hrange : rangeMin ≤ rangeMax) (hdelta : delta ≠ 0)
    (hend : current ≠ moveEnd rangeMin rangeMax delta) :
    Onward delta current (moveOn rangeMin rangeMax delta current) ∨
      TurnsBack rangeMin rangeMax delta current (moveOn rangeMin rangeMax delta current) := by
  obtain ⟨hmem, hup, hupEnd, hdown, hdownEnd⟩ :=
    toNat_moveOn_cases current delta hrange
  generalize moveOn rangeMin rangeMax delta current = next at *
  have hzero : current = 0 ↔ current.toNat = 0 := by
    rw [← UInt16.toNat_inj]
    rfl
  unfold Onward TurnsBack
  unfold moveEnd at hend ⊢
  rw [hzero]
  split at hend
  · rename_i hpos
    rw [if_pos hpos, if_pos hpos]
    simp only [ne_eq, UInt16.lt_iff_toNat_lt, UInt16.le_iff_toNat_le, ← UInt16.toNat_inj] at hend ⊢
    omega
  · rename_i hpos
    rw [if_neg hpos, if_neg hpos]
    simp only [ne_eq, UInt16.lt_iff_toNat_lt, UInt16.le_iff_toNat_le, ← UInt16.toNat_inj] at hend ⊢
    omega

/-- Inside the range a move does not turn back. -/
theorem onward_of_mem (hrange : rangeMin ≤ rangeMax) (hdelta : delta ≠ 0)
    (hend : current ≠ moveEnd rangeMin rangeMax delta)
    (hmem : rangeMin ≤ current ∧ current ≤ rangeMax) :
    Onward delta current (moveOn rangeMin rangeMax delta current) := by
  refine (onward_or_turnsBack hrange hdelta hend).resolve_right ?_
  rintro (⟨hneg, rfl⟩ | ⟨-, hout⟩)
  · refine hend ?_
    rw [moveEnd, if_neg (by omega)]
    exact UInt16.le_antisymm (UInt16.le_iff_toNat_le.mpr (Nat.zero_le _)) hmem.1
  · exact hout hmem

theorem moves_mem (hrange : rangeMin ≤ rangeMax) {k : ℕ} (hk : 0 < k) :
    rangeMin ≤ (moveOn rangeMin rangeMax delta)^[k] current ∧
      (moveOn rangeMin rangeMax delta)^[k] current ≤ rangeMax := by
  obtain ⟨j, rfl⟩ := Nat.exists_eq_add_of_le' hk
  rw [Function.iterate_succ_apply']
  exact moveOn_mem hrange

end Direction

/-- The state after `k` expiries of a Move by `d` that takes `n` moves. -/
structure Moving (linearToActual : UInt16 → UInt16) (l : LevelServer) (d : Int) (n : ℕ)
    (s s' : Server) (k : ℕ) : Prop where
  target : l.target s' = moveEnd (l.rangeMin s) (l.rangeMax s) d
  running : s'.transition.timer.running = true ↔ k ≤ n
  arrived : n < k → l.current s' = l.target s'
  written : 0 < k → k ≤ n → ∀ now,
    l.rangeMin s ≤ l.current (step linearToActual s' (.timerExpiry now)) ∧
      l.current (step linearToActual s' (.timerExpiry now)) ≤ l.rangeMax s
  direction : 0 < k → k ≤ n → ∀ now,
    Onward d (l.current s') (l.current (step linearToActual s' (.timerExpiry now))) ∨
      k = 1 ∧ TurnsBack (l.rangeMin s) (l.rangeMax s) d (l.current s')
        (l.current (step linearToActual s' (.timerExpiry now)))

/-- A Move that starts arrives at the end of its range. -/
theorem move_arrives (linearToActual : UInt16 → UInt16) (l : LevelServer) {m : Message} {s : Server}
    {a : Aim} (hrequest : m.request = l.moveRequest) (hrange : l.rangeMin s ≤ l.rangeMax s)
    (haccept : m.accept linearToActual s = some a) (hstarts : a.returns = false) :
    ∃ n, ∀ nows : List Int, Moving linearToActual l m.moveDelta n s
      (run (step linearToActual) (receive linearToActual m s) (nows.map .timerExpiry))
      nows.length := by
  have hstarted := receive_moveStarted l hrequest haccept hstarts
  generalize receive linearToActual m s = s₀ at *
  have hrange₀ : l.rangeMin s₀ ≤ l.rangeMax s₀ := by
    rw [hstarted.rangeMin, hstarted.rangeMax]
    exact hrange
  obtain ⟨n, harrives, haway⟩ := exists_moves hrange hstarted.ne_zero (l.current s)
  have hmoved (j : ℕ) : l.moved s₀ j =
      (moveOn (l.rangeMin s) (l.rangeMax s) m.moveDelta)^[j] (l.current s) := by
    rw [LevelServer.moved, hstarted.rangeMin, hstarted.rangeMax, hstarted.delta, hstarted.current]
  have hn : 0 < n := by
    refine Nat.pos_of_ne_zero fun hzero => hstarted.away ?_
    rw [← harrives, hzero]
    rfl
  have harrives₀ : l.moved s₀ n = l.target s₀ := by rw [hmoved, hstarted.target, harrives]
  have haway₀ (j : ℕ) (hj : j < n) : l.moved s₀ j ≠ l.target s₀ := by
    rw [hmoved, hstarted.target]
    exact haway j hj
  refine ⟨n, fun nows => ?_⟩
  have hunder := hstarted.underway_run linearToActual hn hrange₀ harrives₀
    haway₀ nows
  generalize run (step linearToActual) s₀ (nows.map .timerExpiry) = s' at *
  generalize nows.length = k at *
  have htarget : l.target s' = moveEnd (l.rangeMin s) (l.rangeMax s) m.moveDelta :=
    hunder.same.target.trans hstarted.target
  have hstep (hk : 0 < k) (hle : k ≤ n) (now : Int) :
      l.current s' = (moveOn (l.rangeMin s) (l.rangeMax s) m.moveDelta)^[k - 1] (l.current s) ∧
      l.current (step linearToActual s' (.timerExpiry now)) =
        moveOn (l.rangeMin s) (l.rangeMax s) m.moveDelta (l.current s') := by
    have hnext := (hunder.step linearToActual now hn hrange₀ harrives₀
      haway₀).current
    rw [Nat.add_sub_cancel, Nat.min_eq_left hle, hmoved] at hnext
    have hcurrent := hunder.current
    rw [Nat.min_eq_left (by omega), hmoved] at hcurrent
    obtain ⟨j, rfl⟩ := Nat.exists_eq_add_of_le' hk
    refine ⟨hcurrent, ?_⟩
    rw [hnext, hcurrent]
    exact Function.iterate_succ_apply' _ _ _
  refine ⟨htarget, ?_, fun hk => ?_, fun hk hle now => ?_, fun hk hle now => ?_⟩
  · rw [hunder.running]
    simp
  · rw [hunder.current, Nat.min_eq_right (by omega), harrives₀, hunder.same.target]
  · rw [(hstep hk hle now).2]
    exact moveOn_mem hrange
  · obtain ⟨hcurrent, hnext⟩ := hstep hk hle now
    have hend : l.current s' ≠ moveEnd (l.rangeMin s) (l.rangeMax s) m.moveDelta := by
      rw [hcurrent]
      exact haway _ (by omega)
    rw [hnext]
    rcases Nat.lt_or_ge 1 k with hlt | hge
    · refine .inl (onward_of_mem hrange hstarted.ne_zero hend ?_)
      rw [hcurrent]
      exact moves_mem hrange (by omega)
    · exact (onward_or_turnsBack hrange hstarted.ne_zero hend).imp_right fun hback =>
        ⟨by omega, hback⟩

/-- The full lightness is above the range the message narrows it to. -/
def narrowed : Server := run (step id) bootState [.message narrowRange]

/-- A message of client A that moves the level up by five every half second. -/
def moveUp : Message where
  request := .genMove
  acked := false
  ctx := { addr := 0x0100, recvDst := 0x0300, now := 10000 }
  buf := [5, 0, 1, 0x05, 0]

theorem move_arrives_up :
    ∃ n, ∀ nows : List Int, Moving id .light moveUp.moveDelta n narrowed
      (run (step id) (receive id moveUp narrowed) (nows.map .timerExpiry)) nows.length := by
  have hstarts : (moveUp.accept id narrowed).map Aim.returns = some false := by decide
  obtain ⟨a, haccept, hreturns⟩ := Option.map_eq_some_iff.mp hstarts
  exact move_arrives id .light rfl (by decide) haccept hreturns

/-- The Move up takes the light down to the end of the range. -/
theorem move_not_onward :
    ((moveUp.accept id narrowed).map Aim.returns = some false ∧
      narrowed.light.rangeMin ≤ narrowed.light.rangeMax ∧ 0 < moveUp.moveDelta) ∧
      (run (step id) (receive id moveUp narrowed) [.timerExpiry 10000]).light.current = 65535 ∧
      (run (step id) (receive id moveUp narrowed)
        [.timerExpiry 10000, .timerExpiry 10500]).light.current = 200 := by
  decide +kernel

end Lighting
end ZephyrSamples
