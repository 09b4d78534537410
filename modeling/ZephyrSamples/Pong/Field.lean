import ZephyrSamples.Pong.Board

/-!
# The field and one refresh of the ball

What `main` needs to draw a ball that is visible, and the arithmetic of a refresh that both kinds
of game rest on.  The speeds and the paddle keep their limits whatever happens.  A ball that leaves
the field by less than its width is brought back by the side walls, and one that lands comes back
from the paddle or ends the game.
-/

namespace ZephyrSamples
namespace Pong

/-- `VIRT_TO_REAL`: the division of C. -/
def virtToReal (v : Int) : Int := v.tdiv pixelSize

namespace Board

/-- `main` draws a ball in this state. -/
def Draws (b : Board) : Prop := b.dispUpdate = true ∧ b.ended = 0 ∧ b.BallVisible

instance (b : Board) : Decidable b.Draws := inferInstanceAs (Decidable (_ ∧ _ ∧ _))

/-- The ball and the paddle fit the display of five rows of five bits, and the speeds are within
their limits. -/
structure OnField (b : Board) : Prop where
  x : 0 ≤ b.ballPos.x ∧ b.ballPos.x ≤ 49
  y : 0 ≤ b.ballPos.y ∧ b.ballPos.y ≤ 39
  paddle : 0 ≤ b.paddleX ∧ b.paddleX ≤ 3
  velX : b.ballVel.x.natAbs ≤ 9
  velY : b.ballVel.y.natAbs ≤ 10
  row : 0 ≤ virtToReal b.ballPos.y ∧ virtToReal b.ballPos.y < 5
  ballBit : 0 ≤ virtToReal b.ballPos.x ∧ virtToReal b.ballPos.x ≤ 4
  paddleBits : 0 ≤ b.paddleX ∧ b.paddleX + 1 ≤ 4

def DrawsOnField (b : Board) : Prop := b.Draws → b.OnField

/-- The fields that say how the game stands. -/
def game (b : Board) : Nat × Bool × Option Nat × Int × XY × XY :=
  (b.ended, b.started, b.refresh, b.paddleX, b.ballPos, b.ballVel)

/-- Boards on which the game stands alike. -/
theorem of_game {b b' : Board} (h : b'.game = b.game) :
    b'.ended = b.ended ∧ b'.started = b.started ∧ b'.refresh = b.refresh ∧
      b'.paddleX = b.paddleX ∧ b'.ballPos = b.ballPos ∧ b'.ballVel = b.ballVel := by
  simpa only [game, Prod.mk.injEq] using h

@[simp] theorem stamp_game (b : Board) (isA : Bool) : (b.stamp isA).game = b.game := by
  cases isA <;> rfl

/-- What no handler of the game leaves. -/
structure Limits (b : Board) : Prop where
  paddle : 0 ≤ b.paddleX ∧ b.paddleX ≤ 3
  velX : -9 ≤ b.ballVel.x ∧ b.ballVel.x ≤ 9
  velY : -10 ≤ b.ballVel.y ∧ b.ballVel.y ≤ 10

/-- The ball is within the field. -/
structure Inside (b : Board) : Prop where
  x : 0 ≤ b.ballPos.x ∧ b.ballPos.x ≤ 49
  y : 0 ≤ b.ballPos.y ∧ b.ballPos.y ≤ 39

variable {b b' : Board}

theorem virtToReal_bounds {v : Int} (hlow : 0 ≤ v) (hhigh : v ≤ 49) :
    0 ≤ virtToReal v ∧ virtToReal v ≤ 4 := by
  have hdiv : virtToReal v = v / 10 := Int.tdiv_eq_ediv_of_nonneg hlow
  rw [hdiv]
  omega

theorem Inside.onField (h : b.Inside) (hl : b.Limits) : b.OnField := by
  have hx := h.x
  have hy := h.y
  have hp := hl.paddle
  have hvx := hl.velX
  have hvy := hl.velY
  have hrow := virtToReal_bounds hy.1 (by omega)
  exact
    { x := hx
      y := hy
      paddle := hp
      velX := by omega
      velY := by omega
      row := ⟨hrow.1, by omega⟩
      ballBit := virtToReal_bounds hx.1 hx.2
      paddleBits := ⟨hp.1, by omega⟩ }

/-! ### The paddle's steps -/

/-- The paddle can make the step the button asks for. -/
def HasRoom (b : Board) (isA : Bool) : Prop :=
  if isA then paddleMin < b.paddleX else b.paddleX < paddleMax

instance (b : Board) (isA : Bool) : Decidable (b.HasRoom isA) :=
  inferInstanceAs (Decidable (ite _ _ _))

def stride (isA : Bool) : Int := if isA then -1 else 1

theorem paddle_of_room {isA : Bool} (h : b.HasRoom isA) :
    b.paddle isA = b.movePaddle (stride isA) := by
  cases isA with
  | true => exact if_pos h
  | false => exact if_pos h

theorem paddle_of_no_room {isA : Bool} (h : ¬ b.HasRoom isA) : b.paddle isA = b := by
  cases isA with
  | true => exact if_neg h
  | false => exact if_neg h

theorem paddle_induction {isA : Bool} {P : Board → Prop} (hstay : P b)
    (hmove : b.HasRoom isA → P (b.movePaddle (stride isA))) : P (b.paddle isA) := by
  by_cases hroom : b.HasRoom isA
  · rw [paddle_of_room hroom]
    exact hmove hroom
  · rw [paddle_of_no_room hroom]
    exact hstay

theorem HasRoom.bounds {isA : Bool} (h : b.HasRoom isA) (hp : 0 ≤ b.paddleX ∧ b.paddleX ≤ 3) :
    0 ≤ b.paddleX + stride isA ∧ b.paddleX + stride isA ≤ 3 := by
  cases isA with
  | true =>
    have hroom : 0 < b.paddleX := h
    show 0 ≤ b.paddleX + -1 ∧ b.paddleX + -1 ≤ 3
    omega
  | false =>
    have hroom : b.paddleX < 3 := h
    show 0 ≤ b.paddleX + 1 ∧ b.paddleX + 1 ≤ 3
    omega

theorem movePaddle_started (h : b.started = true) (step : Int) :
    (b.movePaddle step).ballPos = b.ballPos := if_pos h

theorem movePaddle_waiting (h : b.started = false) (step : Int) :
    (b.movePaddle step).ballPos = ⟨b.ballPos.x + 10 * step, b.ballPos.y⟩ := by
  show (if b.started = true then _ else _) = _
  rw [h]
  rfl

theorem stamp_hasRoom (isA : Bool) : (b.stamp isA).HasRoom isA ↔ b.HasRoom isA := by
  unfold HasRoom
  rw [stamp_paddleX]

/-! ### The limits -/

namespace Limits

theorem congr (h : b.Limits) (hpaddle : b'.paddleX = b.paddleX) (hvel : b'.ballVel = b.ballVel) :
    b'.Limits := by
  constructor
  · rw [hpaddle]
    exact h.paddle
  · rw [hvel]
    exact h.velX
  · rw [hvel]
    exact h.velY

theorem gameInit (h : b.Limits) (initiator : Bool) : (b.gameInit initiator).Limits :=
  ⟨show (0 : Int) ≤ 0 ∧ (0 : Int) ≤ 3 by decide, h.velX, h.velY⟩

theorem restart (h : b.Limits) : b.restart.Limits :=
  (h.gameInit (b.state = .single || b.remoteLost)).congr rfl rfl

theorem of_game (h : b.Limits) (hgame : b'.game = b.game) : b'.Limits := by
  obtain ⟨_, _, _, hpaddle, _, hvel⟩ := Board.of_game hgame
  exact h.congr hpaddle hvel

theorem movePaddle (h : b.Limits) {step : Int}
    (hstep : 0 ≤ b.paddleX + step ∧ b.paddleX + step ≤ 3) : (b.movePaddle step).Limits :=
  ⟨hstep, h.velX, h.velY⟩

theorem paddle_step (h : b.Limits) (isA : Bool) : (b.paddle isA).Limits :=
  paddle_induction h fun hroom => h.movePaddle (hroom.bounds h.paddle)

theorem startGame (h : b.Limits) (rnd : Nat) : (b.startGame rnd).Limits := by
  refine ⟨h.paddle, ?_, show (-10 : Int) ≤ -4 ∧ (-4 : Int) ≤ 10 by decide⟩
  show -9 ≤ b.startVelX rnd ∧ b.startVelX rnd ≤ 9
  unfold startVelX
  have hrnd : rnd % 8 < 8 := Nat.mod_lt rnd (by decide)
  split <;> omega

theorem presses (h : b.Limits) {isA : Bool} {rnd : Nat} (hpress : Presses b isA rnd b') :
    b'.Limits := by
  have hstamp := h.of_game (b.stamp_game isA)
  have hcancel : (b.stamp isA).cancel.Limits := hstamp.congr rfl rfl
  cases hpress with
  | tooQuick => exact hstamp
  | restarts => exact hcancel.restart
  | plays => exact hstamp.paddle_step isA
  | starts => exact (hstamp.startGame rnd).paddle_step isA
  | moves => exact hstamp.paddle_step isA

theorem sideWalls (h : b.Limits) : b.sideWalls.Limits := by
  have hx := h.velX
  have hturned : -9 ≤ -b.ballVel.x ∧ -b.ballVel.x ≤ 9 := by omega
  unfold Board.sideWalls
  split
  · exact ⟨h.paddle, hturned, h.velY⟩
  · split
    · exact ⟨h.paddle, hturned, h.velY⟩
    · exact h

theorem bounceTop (h : b.Limits) : b.bounceTop.Limits := by
  have hy := h.velY
  refine ⟨h.paddle, h.velX, ?_⟩
  show -10 ≤ -b.ballVel.y ∧ -b.ballVel.y ≤ 10
  omega

theorem bouncePaddle (h : b.Limits) : b.bouncePaddle.Limits := by
  have hy := h.velY
  refine ⟨h.paddle, h.velX, ?_⟩
  show -10 ≤ -(ite (b.ballVel.y < 10) _ _ : Int) ∧ -(ite (b.ballVel.y < 10) _ _ : Int) ≤ 10
  split <;> omega

theorem lands (h : b.Limits) {r : Board × Option Message} (hland : Lands b r) : r.1.Limits := by
  have hbounced := h.bouncePaddle
  cases hland with
  | missed => exact h.congr rfl rfl
  | returned => exact ⟨hbounced.paddle, hbounced.velX, hbounced.velY⟩
  | flies => exact h.congr rfl rfl

theorem refreshes (h : b.Limits) {r : Board × Option Message} (hrefresh : Refreshes b r) :
    r.1.Limits := by
  have hcancel : b.cancel.Limits := h.congr rfl rfl
  have hmove : b.cancel.move.Limits := h.congr rfl rfl
  cases hrefresh with
  | early => exact h
  | restarts => exact hcancel.restart
  | bounces _ _ _ _ hland => exact hmove.bounceTop.sideWalls.lands hland
  | handsOver => exact hmove.congr rfl rfl
  | keeps _ _ _ hland => exact hmove.sideWalls.lands hland

end Limits

/-! ### The walls and the paddle -/

theorem sideWalls_x (hlow : -49 ≤ b.ballPos.x) (hhigh : b.ballPos.x ≤ 98) :
    0 ≤ b.sideWalls.ballPos.x ∧ b.sideWalls.ballPos.x ≤ 49 := by
  unfold sideWalls
  split
  next hleft =>
    have hneg : b.ballPos.x < 0 := hleft
    show 0 ≤ -b.ballPos.x ∧ -b.ballPos.x ≤ 49
    omega
  next hleft =>
    have hnonneg : ¬ b.ballPos.x < 0 := hleft
    split
    next hright =>
      have hover : 49 < b.ballPos.x := hright
      show 0 ≤ 2 * 49 - b.ballPos.x ∧ 2 * 49 - b.ballPos.x ≤ 49
      omega
    next hright =>
      have hunder : ¬ 49 < b.ballPos.x := hright
      omega

variable (b) in
@[simp] theorem sideWalls_y : b.sideWalls.ballPos.y = b.ballPos.y := by
  unfold sideWalls
  split
  · rfl
  · split <;> rfl

variable (b) in
@[simp] theorem sideWalls_velY : b.sideWalls.ballVel.y = b.ballVel.y := by
  unfold sideWalls
  split
  · rfl
  · split <;> rfl

variable (b) in
@[simp] theorem sideWalls_started : b.sideWalls.started = b.started := by
  unfold sideWalls
  split
  · rfl
  · split <;> rfl

variable (b) in
@[simp] theorem sideWalls_paddleX : b.sideWalls.paddleX = b.paddleX := by
  unfold sideWalls
  split
  · rfl
  · split <;> rfl

/-- The ball goes on after `b` landed as `b'`. -/
structure GoesOn (b b' : Board) : Prop where
  started : b'.started = b.started
  paddleX : b'.paddleX = b.paddleX
  x : b'.ballPos.x = b.ballPos.x
  y_le : b'.ballPos.y ≤ 39
  y_nonneg : 0 ≤ b.ballPos.y → 0 ≤ b'.ballPos.y
  above : b.ballPos.y < 0 → b'.ballPos.y = b.ballPos.y ∧ b'.ballVel.y = b.ballVel.y

/-- A ball that passes the paddle's row downwards ends the game or goes on from the paddle. -/
theorem Lands.goesOn {r : Board × Option Message} (h : Lands b r) (hup : 0 < b.uptime)
    (hy : b.ballPos.y ≤ 49) (hdown : 39 < b.ballPos.y → 0 < b.ballVel.y) (hended : r.1.ended = 0) :
    GoesOn b r.1 := by
  cases h with
  | missed =>
    have hzero : b.uptime = 0 := hended
    omega
  | returned hat =>
    have hbelow : 39 < b.ballPos.y := hat.2
    have hback : 2 * 39 - b.ballPos.y ≤ 39 ∧ 0 ≤ 2 * 39 - b.ballPos.y := by omega
    exact ⟨rfl, rfl, rfl, hback.1, fun _ => hback.2, fun habove => by omega⟩
  | flies hnot =>
    have habove : b.ballPos.y ≤ 39 := by
      by_contra hbelow
      have hbelow' : 39 < b.ballPos.y := by omega
      exact hnot ⟨hdown hbelow', hbelow'⟩
    exact ⟨rfl, rfl, rfl, habove, fun h => h, fun _ => ⟨rfl, rfl⟩⟩

end Board

end Pong
end ZephyrSamples
