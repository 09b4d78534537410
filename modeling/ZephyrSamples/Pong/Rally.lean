import ZephyrSamples.Pong.TwoPlayer

/-!
# The field in a game between two boards

The ball is handed over without the side-wall check and comes in above the field, so a board also
has to bound a ball it does not show.  `pong_ball_received` leaves `started` as it is: on a board
that has not started the game itself the buttons go on moving the ball with the paddle, which is
right before the start and carries a ball in play over the side.  `check_start` in turn launches a
ball the board does not show, wherever the buttons have moved it.
-/

namespace ZephyrSamples
namespace Pong

open Runs Duplex

namespace Board

/-- The press moves the paddle, and the ball with it. -/
def Drags (b : Board) (isA : Bool) : Prop :=
  b.BeforeStart isA ∧ ¬ (b.stamp isA).StartAccepted ∧ b.HasRoom isA

instance (b : Board) (isA : Bool) : Decidable (b.Drags isA) :=
  inferInstanceAs (Decidable (_ ∧ _ ∧ _))

def RoomToDrag (b : Board) (isA : Bool) : Prop :=
  if isA then 10 ≤ b.ballPos.x else b.ballPos.x ≤ 39

instance (b : Board) (isA : Bool) : Decidable (b.RoomToDrag isA) :=
  inferInstanceAs (Decidable (ite _ _ _))

/-- The ball is in the columns of the field, and no further above it than a message can say after
one move at the starting speed. -/
def FitToLaunch (b : Board) : Prop :=
  0 ≤ b.ballPos.x ∧ b.ballPos.x ≤ 49 ∧ -124 ≤ b.ballPos.y

instance (b : Board) : Decidable b.FitToLaunch := inferInstanceAs (Decidable (_ ∧ _ ∧ _))

/-- The press drags a visible ball within the field and launches one that is fit for it. -/
def CarefulPress (b : Board) (isA : Bool) : Prop :=
  (b.Drags isA → b.BallVisible → b.RoomToDrag isA) ∧ (b.Launches isA → b.FitToLaunch)

theorem roomToDrag_of_bounds {b : Board} {isA : Bool}
    (h : 0 ≤ b.ballPos.x + 10 * stride isA ∧ b.ballPos.x + 10 * stride isA ≤ 49) :
    b.RoomToDrag isA := by
  cases isA with
  | true =>
    have hleft : 0 ≤ b.ballPos.x + 10 * -1 := h.1
    show 10 ≤ b.ballPos.x
    omega
  | false =>
    have hright : b.ballPos.x + 10 * 1 ≤ 49 := h.2
    show b.ballPos.x ≤ 39
    omega

theorem RoomToDrag.bounds {b : Board} {isA : Bool} (h : b.RoomToDrag isA)
    (hx : 0 ≤ b.ballPos.x ∧ b.ballPos.x ≤ 49) :
    0 ≤ b.ballPos.x + 10 * stride isA ∧ b.ballPos.x + 10 * stride isA ≤ 49 := by
  cases isA with
  | true =>
    have hleft : 10 ≤ b.ballPos.x := h
    show 0 ≤ b.ballPos.x + 10 * -1 ∧ b.ballPos.x + 10 * -1 ≤ 49
    omega
  | false =>
    have hright : b.ballPos.x ≤ 39 := h
    show 0 ≤ b.ballPos.x + 10 * 1 ∧ b.ballPos.x + 10 * 1 ≤ 49
    omega

/-- A ball that is not shown: above the field, and coming down unless it was launched there. -/
structure Above (b : Board) : Prop where
  y_ge : -128 ≤ b.ballPos.y
  x : -39 ≤ b.ballPos.x ∧ b.ballPos.x ≤ 88
  dragged : b.started = false →
    -39 ≤ b.ballPos.x - 10 * b.paddleX ∧ b.ballPos.x - 10 * b.paddleX ≤ 58
  pending : b.refresh ≠ none → 0 < b.ballVel.y ∨
    b.started = true ∧ b.ballVel.y = -4 ∧ b.FitToLaunch

structure Rally (b : Board) : Prop where
  linked : b.Linked
  limits : b.Limits
  visible : b.ended = 0 → 0 ≤ b.ballPos.y → b.Inside
  above : b.ended = 0 → b.ballPos.y < 0 → b.Above

end Board

/-- A ball on its way: it comes down into the field of the board it is for. -/
def Message.Incoming : Message → Prop
  | .ballInfo xPos yPos xVel yVel =>
    (-9 ≤ xPos ∧ xPos ≤ 58) ∧ (-128 ≤ yPos ∧ yPos ≤ -1) ∧ (-9 ≤ xVel ∧ xVel ≤ 9) ∧
      (1 ≤ yVel ∧ yVel ≤ 10)
  | .lost => True

namespace Board

variable {b b' : Board}

theorem above_of_bounds (hp : 0 ≤ b.paddleX ∧ b.paddleX ≤ 3)
    (hx : -9 ≤ b.ballPos.x ∧ b.ballPos.x ≤ 58) (hy : -128 ≤ b.ballPos.y)
    (hpending : b.refresh ≠ none → 0 < b.ballVel.y) : b.Above where
  y_ge := hy
  x := by omega
  dragged _ := by omega
  pending hsched := .inl (hpending hsched)

theorem Above.of_game (h : b.Above) (hgame : b'.game = b.game) : b'.Above := by
  obtain ⟨_, hstarted, hrefresh, hpaddle, hpos, hvel⟩ := Board.of_game hgame
  constructor
  · rw [hpos]
    exact h.y_ge
  · rw [hpos]
    exact h.x
  · rw [hpos, hpaddle, hstarted]
    exact h.dragged
  · unfold FitToLaunch
    rw [hpos, hvel, hstarted, hrefresh]
    exact h.pending

theorem Above.movePaddle (h : b.Above) {step : Int}
    (hp : 0 ≤ b.paddleX + step ∧ b.paddleX + step ≤ 3) : (b.movePaddle step).Above := by
  cases hstarted : b.started with
  | true =>
    have hpos := movePaddle_started hstarted step
    constructor
    · rw [hpos]
      exact h.y_ge
    · rw [hpos]
      exact h.x
    · exact fun hnot => absurd (hnot.symm.trans hstarted) Bool.false_ne_true
    · unfold FitToLaunch
      rw [hpos]
      exact h.pending
  | false =>
    have hdragged := h.dragged hstarted
    constructor
    · rw [movePaddle_waiting hstarted]
      exact h.y_ge
    · rw [movePaddle_waiting hstarted]
      show -39 ≤ b.ballPos.x + 10 * step ∧ b.ballPos.x + 10 * step ≤ 88
      omega
    · intro _
      rw [movePaddle_waiting hstarted]
      show -39 ≤ b.ballPos.x + 10 * step - 10 * (b.paddleX + step) ∧
        b.ballPos.x + 10 * step - 10 * (b.paddleX + step) ≤ 58
      omega
    · intro hsched
      rcases h.pending hsched with hdown | ⟨hyes, _⟩
      · exact .inl hdown
      · exact absurd (hyes.symm.trans hstarted).symm Bool.false_ne_true

namespace Rally

theorem of_game (h : b.Rally) (hgame : b'.game = b.game) (hlinked : b'.Linked) : b'.Rally := by
  obtain ⟨hended, _, _, _, hpos, _⟩ := Board.of_game hgame
  refine ⟨hlinked, h.limits.of_game hgame, ?_, ?_⟩
  · rw [hended, hpos]
    exact fun hnow hy => (h.visible hnow hy).congr hpos
  · rw [hended, hpos]
    exact fun hnow hy => (h.above hnow hy).of_game hgame

theorem stamp (h : b.Rally) (isA : Bool) : (b.stamp isA).Rally :=
  h.of_game (b.stamp_game isA) (h.linked.of_frame (b.stamp_frame isA))

theorem semGive (h : b.Rally) : b.semGive.Rally := h.of_game rfl (h.linked.of_frame rfl)

theorem wait (h : b.Rally) (dt : Nat) : (b.wait dt).Rally := h.of_game rfl (h.linked.wait dt)

theorem gameInit (h : b.Limits) (hlinked : b.Linked) (hsched : b.refresh = none)
    (initiator : Bool) : (b.gameInit initiator).Rally where
  linked := hlinked.of_frame rfl
  limits := h.gameInit initiator
  visible _ hy := by
    cases initiator with
    | true =>
      exact ⟨show (0 : Int) ≤ 4 ∧ (4 : Int) ≤ 49 by decide,
        show (0 : Int) ≤ 39 ∧ (39 : Int) ≤ 39 by decide⟩
    | false => exact absurd hy (show ¬ (0 : Int) ≤ -1 by decide)
  above _ _ := by
    refine above_of_bounds ?_ ?_ ?_ fun hnot => absurd hsched hnot
    · show 0 ≤ (0 : Int) ∧ (0 : Int) ≤ 3
      decide
    · show -9 ≤ (4 : Int) ∧ (4 : Int) ≤ 58
      decide
    · show -128 ≤ (if initiator = true then 39 else -1 : Int)
      split <;> decide

theorem restart (h : b.Rally) : b.cancel.restart.Rally := by
  have hlimits : b.cancel.Limits := h.limits.congr rfl rfl
  exact (gameInit hlimits (h.linked.of_frame rfl) rfl _).semGive

theorem startGame (h : b.Rally) (hfit : b.ended = 0 → b.FitToLaunch) (rnd : Nat) :
    (b.startGame rnd).Rally where
  linked := h.linked.of_frame rfl
  limits := h.limits.startGame rnd
  visible hended hy := (h.visible hended hy).congr rfl
  above hended hy :=
    have habove := h.above hended hy
    { y_ge := habove.y_ge
      x := habove.x
      dragged := fun hnot => absurd hnot.symm Bool.false_ne_true
      pending := fun _ => .inr ⟨rfl, rfl, hfit hended⟩ }

theorem paddle (h : b.Rally) {isA : Bool}
    (hroom : b.ended = 0 → b.started = false → b.BallVisible → b.HasRoom isA → b.RoomToDrag isA) :
    (b.paddle isA).Rally := by
  refine paddle_induction h fun hstep => ?_
  have hp := hstep.bounds h.limits.paddle
  have hy : (b.movePaddle (stride isA)).ballPos.y = b.ballPos.y := by
    cases hstarted : b.started with
    | true => rw [movePaddle_started hstarted]
    | false => rw [movePaddle_waiting hstarted]
  refine ⟨h.linked.of_frame rfl, h.limits.movePaddle hp, ?_, ?_⟩
  · intro hended hvisible
    rw [hy] at hvisible
    have hinside := h.visible hended hvisible
    cases hstarted : b.started with
    | true => exact hinside.congr (movePaddle_started hstarted (stride isA))
    | false =>
      have hdrag := hroom hended hstarted hvisible hstep
      refine ⟨?_, by rw [hy]; exact hinside.y⟩
      rw [movePaddle_waiting hstarted]
      exact hdrag.bounds hinside.x
  · intro hended hhidden
    rw [hy] at hhidden
    exact (h.above hended hhidden).movePaddle hp

theorem presses (h : b.Rally) {isA : Bool} {rnd : Nat} (hpress : Presses b isA rnd b')
    (hcare : b.CarefulPress isA) : b'.Rally := by
  have hstamp := h.stamp isA
  cases hpress with
  | tooQuick => exact hstamp
  | restarts => exact hstamp.restart
  | plays hstarted =>
    refine hstamp.paddle fun _ hnot => ?_
    rw [stamp_started, hstarted] at hnot
    exact absurd hnot.symm Bool.false_ne_true
  | starts hlaunch =>
    have hfit : (b.stamp isA).ended = 0 → (b.stamp isA).FitToLaunch := by
      intro hended
      unfold FitToLaunch
      rw [stamp_ballPos]
      exact hcare.2 (hlaunch ((b.stamp_ended isA).symm.trans hended))
    refine (hstamp.startGame hfit rnd).paddle fun _ hnot => ?_
    exact absurd hnot.symm Bool.false_ne_true
  | moves hbefore hno _ =>
    refine hstamp.paddle fun hended _ hvisible hroom => ?_
    have hbefore' := hbefore ((b.stamp_ended isA).symm.trans hended)
    cases isA with
    | true => exact hcare.1 ⟨hbefore', hno, hroom⟩ hvisible
    | false => exact hcare.1 ⟨hbefore', hno, hroom⟩ hvisible

/-- A ball with its work item pending is in the field, is coming down from above it, or was
launched above it. -/
theorem pending_cases (h : b.Rally) (hsched : b.refresh ≠ none) (hended : b.ended = 0) :
    b.Inside ∨ b.Above ∧ b.ballPos.y < 0 ∧ 0 < b.ballVel.y ∨
      b.ballPos.y < 0 ∧ b.ballVel.y = -4 ∧ b.FitToLaunch := by
  by_cases hy : 0 ≤ b.ballPos.y
  · exact .inl (h.visible hended hy)
  · have hhidden : b.ballPos.y < 0 := by omega
    have habove := h.above hended hhidden
    rcases habove.pending hsched with hdown | ⟨_, hvel, hfit⟩
    · exact .inr (.inl ⟨habove, hhidden, hdown⟩)
    · exact .inr (.inr ⟨hhidden, hvel, hfit⟩)

/-- What is handed over comes down into the other field. -/
theorem handsOver (h : b.Rally) (hsched : b.refresh ≠ none) (hended : b.ended = 0)
    (hover : b.cancel.move.Over) :
    b.cancel.move.semGive.Rally ∧ b.cancel.move.ballInfo.Incoming := by
  have hvelX := h.limits.velX
  have hvelY := h.limits.velY
  have hover' : b.ballVel.y < 0 ∧ b.ballPos.y + b.ballVel.y < 0 := hover
  have hx : -9 ≤ b.ballPos.x + b.ballVel.x ∧ b.ballPos.x + b.ballVel.x ≤ 58 := by
    rcases h.pending_cases hsched hended with ⟨hx, _⟩ | ⟨_, _, hdown⟩ | ⟨_, _, hfit⟩
    · omega
    · omega
    · have hlow := hfit.1
      have hhigh := hfit.2.1
      omega
  have hy : -128 ≤ b.ballPos.y + b.ballVel.y := by
    rcases h.pending_cases hsched hended with ⟨_, hy⟩ | ⟨_, _, hdown⟩ | ⟨_, _, hfit⟩
    · omega
    · omega
    · have hrow := hfit.2.2
      omega
  constructor
  · refine ⟨h.linked.of_frame rfl, h.limits.congr rfl rfl, ?_, ?_⟩
    · intro _ hvisible
      have hvisible' : 0 ≤ b.ballPos.y + b.ballVel.y := hvisible
      omega
    · intro _ _
      exact above_of_bounds h.limits.paddle hx hy fun hnot => absurd (Eq.refl none) hnot
  · show Message.Incoming (.ballInfo (s8 (49 - (b.ballPos.x + b.ballVel.x)))
      (s8 (b.ballPos.y + b.ballVel.y)) (s8 (-b.ballVel.x)) (s8 (-b.ballVel.y)))
    rw [s8_of_bounds (by omega) (by omega), s8_of_bounds (by omega) (by omega),
      s8_of_bounds (by omega) (by omega), s8_of_bounds (by omega) (by omega)]
    show (-9 ≤ 49 - (b.ballPos.x + b.ballVel.x) ∧ 49 - (b.ballPos.x + b.ballVel.x) ≤ 58) ∧
      (-128 ≤ b.ballPos.y + b.ballVel.y ∧ b.ballPos.y + b.ballVel.y ≤ -1) ∧
      (-9 ≤ -b.ballVel.x ∧ -b.ballVel.x ≤ 9) ∧ (1 ≤ -b.ballVel.y ∧ -b.ballVel.y ≤ 10)
    omega

/-- Where a ball in play moves to; one that is still above the field then was there before and is
coming down. -/
theorem moved_bounds (h : b.Rally) (hsched : b.refresh ≠ none) (hended : b.ended = 0)
    (hnot : ¬ b.cancel.move.Over) :
    (-49 ≤ b.ballPos.x + b.ballVel.x ∧ b.ballPos.x + b.ballVel.x ≤ 98) ∧
      (b.ballPos.y + b.ballVel.y ≤ 49 ∧
        (39 < b.ballPos.y + b.ballVel.y → 0 < b.ballVel.y)) ∧
      (b.ballPos.y + b.ballVel.y < 0 → -128 ≤ b.ballPos.y ∧ 0 < b.ballVel.y) := by
  have hvelX := h.limits.velX
  have hvelY := h.limits.velY
  have hnot' : ¬ (b.ballVel.y < 0 ∧ b.ballPos.y + b.ballVel.y < 0) := hnot
  refine ⟨?_, ?_, ?_⟩
  · rcases h.pending_cases hsched hended with ⟨hx, _⟩ | ⟨habove, _⟩ | ⟨_, _, hfit⟩
    · omega
    · have hx := habove.x
      omega
    · have hlow := hfit.1
      have hhigh := hfit.2.1
      omega
  · rcases h.pending_cases hsched hended with ⟨_, hy⟩ | ⟨_, hhidden, _⟩ | ⟨hhidden, _⟩ <;> omega
  · intro hhidden
    rcases h.pending_cases hsched hended with ⟨_, hy⟩ | ⟨habove, _, hdown⟩ | ⟨_, hvel, _⟩
    · omega
    · exact ⟨habove.y_ge, hdown⟩
    · omega

theorem keeps (h : b.Rally) (hsched : b.refresh ≠ none) (hended : b.ended = 0)
    (hnot : ¬ b.cancel.move.Over) {r : Board × Option Message}
    (hland : Lands b.cancel.move.sideWalls r) : r.1.Rally := by
  have hmove : b.cancel.move.Limits := h.limits.congr rfl rfl
  have hframe : b.cancel.move.sideWalls.frame = b.frame := sideWalls_frame _
  obtain ⟨hx, hy, hcoming⟩ := h.moved_bounds hsched hended hnot
  have hcolumns := sideWalls_x (b := b.cancel.move) hx.1 hx.2
  have hon : r.1.ended = 0 → GoesOn b.cancel.move.sideWalls r.1 := by
    refine hland.goesOn ?_ ?_ ?_
    · rw [uptime_of_frame hframe]
      exact h.linked.uptime_pos
    · rw [sideWalls_y]
      exact hy.1
    · rw [sideWalls_y, sideWalls_velY]
      exact hy.2
  have hlimits := hmove.sideWalls.lands hland
  refine ⟨h.linked.of_frame (hland.frame.trans hframe), hlimits, ?_, ?_⟩
  · intro hgame hvisible
    have hgo := hon hgame
    rw [← hgo.x] at hcolumns
    exact ⟨hcolumns, hvisible, hgo.y_le⟩
  · intro hgame hhidden
    have hgo := hon hgame
    rw [← hgo.x] at hcolumns
    have hbefore : b.cancel.move.sideWalls.ballPos.y < 0 := by
      by_contra hshown
      have hnonneg := hgo.y_nonneg (by omega)
      omega
    obtain ⟨hsame, hsameVel⟩ := hgo.above hbefore
    rw [sideWalls_y] at hsame hbefore
    rw [sideWalls_velY] at hsameVel
    obtain ⟨hrow, hdown⟩ := hcoming hbefore
    have hmoved : b.cancel.move.ballPos.y = b.ballPos.y + b.ballVel.y := rfl
    refine above_of_bounds hlimits.paddle (by omega) (by omega) fun _ => ?_
    rw [hsameVel]
    exact hdown

theorem refreshes (h : b.Rally) {r : Board × Option Message} (hrefresh : Refreshes b r) :
    r.1.Rally ∧ ∀ m ∈ r.2, m.Incoming := by
  cases hrefresh with
  | early => exact ⟨h, fun m hm => absurd hm (Option.not_mem_none m)⟩
  | restarts => exact ⟨h.restart, fun m hm => absurd hm (Option.not_mem_none m)⟩
  | bounces _ _ _ hsingle => exact absurd hsingle h.linked.not_single
  | handsOver hsched hended hover =>
    obtain ⟨hkept, hsent⟩ := h.handsOver hsched hended hover
    refine ⟨hkept, fun m hm => ?_⟩
    rw [Option.mem_some.mp hm] at hsent
    exact hsent
  | keeps hsched hended hnot hland =>
    refine ⟨h.keeps hsched hended hnot hland, fun m hm => ?_⟩
    cases hland with
    | missed =>
      rcases Option.mem_ite_none_right.mp hm with ⟨_, hlost⟩
      rw [← Option.mem_some.mp hlost]
      trivial
    | returned => exact absurd hm (Option.not_mem_none m)
    | flies => exact absurd hm (Option.not_mem_none m)

theorem notifyFunc (h : b.Rally) {m : Message} (hm : m.Incoming) : (b.notifyFunc m).Rally := by
  have hlinked := h.linked.notifyFunc m
  cases m with
  | ballInfo xPos yPos xVel yVel =>
    obtain ⟨hx, hy, hvelX, hvelY⟩ := hm
    refine ⟨hlinked, ⟨h.limits.paddle, hvelX, ?_⟩, ?_, ?_⟩
    · show -10 ≤ yVel ∧ yVel ≤ 10
      omega
    · intro _ hvisible
      have hvisible' : 0 ≤ yPos := hvisible
      omega
    · intro _ _
      refine above_of_bounds h.limits.paddle hx hy.1 fun _ => ?_
      show 0 < yVel
      omega
  | lost =>
    have hover := gameEnded_ended h.linked.uptime_pos true
    exact ⟨hlinked, h.limits.congr rfl rfl, fun hended => absurd hended hover,
      fun hended => absurd hended hover⟩

theorem input (h : b.Rally) {i : Input}
    (hcare : ∀ isA rnd, i = .press isA rnd → b.CarefulPress isA) :
    (b.input i).1.Rally ∧ ∀ m ∈ (b.input i).2, m.Incoming := by
  cases i with
  | press isA rnd =>
    have hpress := buttonPressed_presses h.linked.not_multi h.linked.select_none isA rnd
    exact ⟨h.presses hpress (hcare isA rnd rfl), fun m hm => absurd hm (Option.not_mem_none m)⟩
  | refresh => exact h.refreshes (input_refreshes h.linked.not_init)
  | draw =>
    exact ⟨h.of_game rfl (h.linked.of_frame rfl), fun m hm => absurd hm (Option.not_mem_none m)⟩

theorem drawsOnField (h : b.Rally) : b.DrawsOnField := by
  rintro ⟨_, hended, hvisible⟩
  exact (h.visible hended hvisible).onField h.limits

end Rally

/-- A ball dragged without room is drawn outside the field. -/
theorem roomToDrag_of_drawsOnField {isA : Bool} {rnd : Nat} (h : b.Drags isA)
    (hvisible : b.BallVisible) (hdraws : (b.buttonPressed isA rnd).DrawsOnField) :
    b.RoomToDrag isA := by
  obtain ⟨hbefore, hno, hroom⟩ := h
  have hended := hbefore.2.2.2.1
  have hstarted := hbefore.2.2.2.2
  rw [buttonPressed_beforeStart hbefore, if_neg hno,
    paddle_of_room ((stamp_hasRoom isA).mpr hroom)] at hdraws
  have hpos : ((b.stamp isA).movePaddle (stride isA)).ballPos =
      ⟨b.ballPos.x + 10 * stride isA, b.ballPos.y⟩ := by
    rw [movePaddle_waiting ((b.stamp_started isA).trans hstarted), stamp_ballPos]
  have hshown : ((b.stamp isA).movePaddle (stride isA)).BallVisible := by
    unfold BallVisible
    rw [hpos]
    exact hvisible
  have hfield := hdraws ⟨rfl, (b.stamp_ended isA).trans hended, hshown⟩
  have hx := hfield.x
  rw [hpos] at hx
  exact roomToDrag_of_bounds hx

end Board

namespace Game

/-- Both boards draw their ball on the field. -/
def DrawsOnField (g : Game) : Prop := ∀ s, (g.party s).DrawsOnField

/-- A press that moves a visible ball with the paddle keeps it in the columns of the field. -/
def DragsInside (g : Game) : Event → Prop
  | .input s dt (.press isA _) =>
    ((g.wait dt).party s).Drags isA → ((g.wait dt).party s).BallVisible →
      ((g.wait dt).party s).RoomToDrag isA
  | _ => True

/-- A press that launches a ball finds it fit to be handed over. -/
def LaunchesFit (g : Game) : Event → Prop
  | .input s dt (.press isA _) =>
    ((g.wait dt).party s).Launches isA → ((g.wait dt).party s).FitToLaunch
  | _ => True

def Careful (g : Game) (e : Event) : Prop := g.DragsInside e ∧ g.LaunchesFit e

instance (g : Game) : ∀ e, Decidable (g.DragsInside e)
  | .input _ _ (.press _ _) => inferInstanceAs (Decidable (_ → _ → _))
  | .input _ _ .refresh | .input _ _ .draw | .deliver _ _ => inferInstanceAs (Decidable True)

instance (g : Game) : ∀ e, Decidable (g.LaunchesFit e)
  | .input _ _ (.press _ _) => inferInstanceAs (Decidable (_ → _))
  | .input _ _ .refresh | .input _ _ .draw | .deliver _ _ => inferInstanceAs (Decidable True)

instance (g : Game) (e : Event) : Decidable (g.Careful e) := inferInstanceAs (Decidable (_ ∧ _))

/-- Both boards are in a rally, and every ball in flight comes down into a field. -/
def Rally (g : Game) : Prop := g.Every Board.Rally Message.Incoming

variable {g : Game}

theorem rally_wait (h : g.Rally) (dt : Nat) : (g.wait dt).Rally :=
  h.both fun _ hb => hb.wait dt

theorem rally_step (h : g.Rally) {e : Event} (hcare : g.Careful e) : (g.step e).Rally := by
  cases e with
  | input s dt i =>
    have hwait := rally_wait h dt
    have hinput := (hwait.party s).input (i := i) (by
      rintro isA rnd rfl
      exact hcare)
    refine hwait.speak hinput.1 fun m hm => ?_
    exact hinput.2 m (Option.mem_toList.mp hm)
  | deliver s dt =>
    have hwait := rally_wait h dt
    cases hm : g.inbox s with
    | nil =>
      rw [step_deliver_nil hm]
      exact hwait
    | cons m rest =>
      have hincoming : m.Incoming := h.inbox s m (hm ▸ List.mem_cons_self)
      rw [step_deliver_cons hm]
      exact hwait.hear ((hwait.party s).notifyFunc hincoming)

theorem Rally.drawsOnField (h : g.Rally) : g.DrawsOnField := fun s => (h.party s).drawsOnField

/-- If what the boards draw after a step is on the field, the step dragged no ball out of it. -/
theorem dragsInside_of_step {e : Event} (h : (g.step e).DrawsOnField) : g.DragsInside e := by
  match e with
  | .input s dt (.press isA rnd) =>
    intro hdrags hvisible
    have hparty : (g.step (.input s dt (.press isA rnd))).party s =
        ((g.wait dt).party s).buttonPressed isA rnd := Function.update_self ..
    have hs := h s
    rw [hparty] at hs
    exact Board.roomToDrag_of_drawsOnField hdrags hvisible hs
  | .input _ _ .refresh | .input _ _ .draw | .deliver _ _ => trivial

end Game

theorem Joining.rally (j : Joining) (initiator : Bool) :
    (j.board.pongConnReady initiator).Rally := by
  have hlimits : ({ j.board with state := .connected, paddleX := 0 } : Board).Limits :=
    ⟨show (0 : Int) ≤ 0 ∧ (0 : Int) ≤ 3 by decide, j.velX_bounds, j.velY_bounds⟩
  have hset := Board.Rally.gameInit hlimits ⟨rfl, j.select_none, j.uptime_pos⟩ j.refresh_none
    initiator
  exact hset.semGive

theorem rally_connReady (l r : Joining) : (connReady l r).Rally where
  party
    | .left => l.rally true
    | .right => r.rally false
  inbox _ _ hm := absurd hm List.not_mem_nil

/-- The initiator starts at full speed, the ball goes over after ten refreshes and appears at the
right edge of the other board. -/
def handedOver : List Event :=
  [.input .left 200 (.press true 7), .input .left 50 (.press false 7), .input .left 0 .refresh] ++
    List.replicate 9 (.input .left 100 .refresh) ++
    [.deliver .right 10, .input .right 0 .refresh]

end Pong
end ZephyrSamples
