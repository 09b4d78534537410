import ZephyrSamples.Pong.SinglePlayer

/-!
# How many balls there are

A board has a ball in play while `game_refresh` is scheduled, the ball moves and the game has not
ended; a BALL_INFO notification carries a ball.  No handler multiplies balls except `check_start`,
which looks at `started` and at the two timestamps but not at whether the board has a ball: on the
board that waits for the ball `started` is false as well.  A run of two connected boards keeps to
one ball exactly when each launch finds none on the other side and none in flight.
-/

namespace ZephyrSamples
namespace Pong

open Runs Duplex

namespace Board

variable (b : Board)

/-- A ball is in play on the board. -/
def InPlay : Prop := b.refresh ≠ none ∧ b.ballVel ≠ ⟨0, 0⟩ ∧ b.ended = 0

instance : Decidable b.InPlay := inferInstanceAs (Decidable (_ ∧ _ ∧ _))

def ballsHeld : Nat := if b.InPlay then 1 else 0

end Board

namespace Message

def IsBall : Message → Prop
  | .ballInfo .. => True
  | .lost => False

instance : ∀ m : Message, Decidable m.IsBall
  | .ballInfo .. => inferInstanceAs (Decidable True)
  | .lost => inferInstanceAs (Decidable False)

def balls (m : Message) : Nat := if m.IsBall then 1 else 0

end Message

namespace Game

/-- The balls in play and in flight. -/
def balls (g : Game) : Nat := g.total Board.ballsHeld Message.balls

def OneBall (g : Game) : Prop := g.balls ≤ 1

instance (g : Game) : Decidable g.OneBall := inferInstanceAs (Decidable (_ ≤ _))

/-- No ball in play on the other side of `s` and none in flight. -/
def NoneElsewhere (g : Game) (s : Side) : Prop :=
  ¬ (g.party s.other).InPlay ∧ ∀ t, ∀ m ∈ g.inbox t, ¬ m.IsBall

/-- A press that launches a ball is made while there is none on the other side or in flight. -/
def LaunchesAlone (g : Game) : Event → Prop
  | .input s dt (.press isA _) =>
    ((g.wait dt).party s).Launches isA → g.NoneElsewhere s
  | _ => True

end Game

namespace Board

variable {b : Board}

theorem ballsHeld_le_one : b.ballsHeld ≤ 1 := by
  unfold ballsHeld
  split <;> omega

theorem ballsHeld_of_inPlay (h : b.InPlay) : b.ballsHeld = 1 := if_pos h

theorem ballsHeld_eq_zero : b.ballsHeld = 0 ↔ ¬ b.InPlay := by
  unfold ballsHeld
  split <;> simp_all

theorem ballsHeld_le_of_imp {b' : Board} (h : b'.InPlay → b.InPlay) :
    b'.ballsHeld ≤ b.ballsHeld := by
  by_cases hb : b'.InPlay
  · rw [ballsHeld_of_inPlay (h hb)]
    exact ballsHeld_le_one
  · rw [ballsHeld_eq_zero.mpr hb]
    exact Nat.zero_le _

theorem not_inPlay_of_refresh (h : b.refresh = none) : ¬ b.InPlay := fun hb => hb.1 h

theorem not_inPlay_of_ended (h : b.ended ≠ 0) : ¬ b.InPlay := fun hb => h hb.2.2

theorem gameEnded_ended (hup : 0 < b.uptime) (won : Bool) : (b.gameEnded won).ended ≠ 0 :=
  Nat.ne_of_gt hup

/-! ### The work item -/

theorem sideWalls_still (h : b.ballVel = ⟨0, 0⟩) : b.sideWalls.ballVel = ⟨0, 0⟩ := by
  unfold sideWalls
  split
  · simp [h]
  · split
    · simp [h]
    · exact h

theorem Lands.inPlay {r : Board × Option Message} (h : Lands b r) (hplay : r.1.InPlay) :
    b.ballVel ≠ ⟨0, 0⟩ := by
  intro hstill
  have hat : ¬ b.AtPaddle := by
    rintro ⟨hvel, -⟩
    rw [hstill] at hvel
    exact Int.lt_irrefl 0 hvel
  cases h with
  | missed hat' => exact hat hat'
  | returned hat' => exact hat hat'
  | flies => exact hplay.2.1 hstill

theorem Lands.sends {r : Board × Option Message} (h : Lands b r) :
    load Message.balls r.2.toList = 0 := by
  cases h with
  | missed =>
    show load Message.balls (ite _ _ _ : Option Message).toList = 0
    split <;> rfl
  | returned => rfl
  | flies => rfl

/-- The refresh of a board between two hands the ball over or keeps it. -/
theorem Refreshes.ballsHeld {r : Board × Option Message} (h : Refreshes b r)
    (hstate : b.state ≠ .single) :
    r.1.ballsHeld + load Message.balls r.2.toList ≤ b.ballsHeld := by
  cases h with
  | early => exact Nat.le_refl _
  | restarts =>
    have hheld : b.cancel.restart.ballsHeld = 0 :=
      ballsHeld_eq_zero.mpr (not_inPlay_of_refresh rfl)
    rw [hheld]
    exact Nat.zero_le _
  | bounces _ _ _ hsingle => exact absurd hsingle hstate
  | handsOver hsched hended hover =>
    have hheld : b.cancel.move.semGive.ballsHeld = 0 :=
      ballsHeld_eq_zero.mpr (not_inPlay_of_refresh rfl)
    have hmoves : b.ballVel ≠ ⟨0, 0⟩ := by
      intro hstill
      have hvel : b.ballVel.y < 0 := hover.1
      rw [hstill] at hvel
      exact Int.lt_irrefl 0 hvel
    rw [hheld, ballsHeld_of_inPlay ⟨hsched, hmoves, hended⟩]
    exact Nat.le_refl 1
  | keeps hsched hended _ hland =>
    rw [hland.sends]
    refine ballsHeld_le_of_imp fun hplay => ⟨hsched, ?_, hended⟩
    exact fun hstill => hland.inPlay hplay (sideWalls_still hstill)

/-! ### The buttons -/

theorem paddle_inPlay (isA : Bool) : (b.paddle isA).InPlay ↔ b.InPlay := by
  unfold paddle
  split <;> split <;> rfl

/-- What starts the game puts the ball in play, if there is a game. -/
theorem startGame_inPlay (rnd : Nat) : (b.startGame rnd).InPlay ↔ b.ended = 0 := by
  constructor
  · exact fun hplay => hplay.2.2
  · intro hended
    refine ⟨Option.some_ne_none _, ?_, hended⟩
    intro hstill
    have hy : ballVelYStart = 0 := congrArg XY.y hstill
    exact absurd hy (by decide)

theorem stamp_inPlay (isA : Bool) : (b.stamp isA).InPlay ↔ b.InPlay := by
  unfold InPlay
  rw [stamp_refresh, stamp_ballVel, stamp_ended]

theorem press_launches {isA : Bool} (h : b.Launches isA) (rnd : Nat) :
    (b.buttonPressed isA rnd).InPlay := by
  rw [buttonPressed_launches h, paddle_inPlay, startGame_inPlay, stamp_ended]
  exact h.1.2.2.2.1

theorem Presses.inPlay {isA : Bool} {rnd : Nat} {b' : Board} (h : Presses b isA rnd b')
    (hno : ¬ b.Launches isA) (hplay : b'.InPlay) : b.InPlay := by
  cases h with
  | tooQuick hquick => exact (stamp_inPlay isA).mp hplay
  | restarts hended => exact absurd hplay (not_inPlay_of_refresh rfl)
  | plays hstarted => exact (stamp_inPlay isA).mp ((paddle_inPlay isA).mp hplay)
  | starts hlaunch =>
    rw [paddle_inPlay, startGame_inPlay, stamp_ended] at hplay
    exact absurd (hlaunch hplay) hno
  | moves hbefore hnot hstarted => exact (stamp_inPlay isA).mp ((paddle_inPlay isA).mp hplay)

end Board

namespace Board

/-- A board of a game between two. -/
structure Linked (b : Board) : Prop where
  connected : b.state = .connected
  select_none : b.select = none
  uptime_pos : 0 < b.uptime

namespace Linked

variable {b b' : Board}

theorem not_multi (h : b.Linked) : b.state ≠ .multi := by
  rw [h.connected]
  decide

theorem not_init (h : b.Linked) : b.state ≠ .init := by
  rw [h.connected]
  decide

theorem not_single (h : b.Linked) : b.state ≠ .single := by
  rw [h.connected]
  decide

theorem of_frame (h : b.Linked) (hframe : b'.frame = b.frame) : b'.Linked where
  connected := (state_of_frame hframe).trans h.connected
  select_none := (select_of_frame hframe).trans h.select_none
  uptime_pos := (uptime_of_frame hframe).symm ▸ h.uptime_pos

theorem wait (h : b.Linked) (dt : Nat) : (b.wait dt).Linked :=
  ⟨h.connected, h.select_none, Nat.add_pos_left h.uptime_pos dt⟩

theorem input (h : b.Linked) (i : Input) : (b.input i).1.Linked :=
  h.of_frame (input_frame h.not_init h.not_multi h.select_none i)

theorem notifyFunc (h : b.Linked) (m : Message) : (b.notifyFunc m).Linked :=
  h.of_frame (b.notifyFunc_frame m)

/-- A notification puts a ball in play only by bringing one. -/
theorem notifyFunc_ballsHeld (h : b.Linked) (m : Message) :
    (b.notifyFunc m).ballsHeld ≤ b.ballsHeld + m.balls := by
  cases m with
  | ballInfo xPos yPos xVel yVel => exact Nat.le_trans ballsHeld_le_one (Nat.le_add_left _ _)
  | lost =>
    have hheld : (b.notifyFunc .lost).ballsHeld = 0 :=
      ballsHeld_eq_zero.mpr (not_inPlay_of_ended (gameEnded_ended h.uptime_pos true))
    rw [hheld]
    exact Nat.zero_le _

theorem input_ballsHeld (h : b.Linked) {i : Input}
    (hi : ∀ isA rnd, i = .press isA rnd → ¬ b.Launches isA) :
    (b.input i).1.ballsHeld + load Message.balls (b.input i).2.toList ≤ b.ballsHeld := by
  cases i with
  | press isA rnd =>
    have hpress := buttonPressed_presses h.not_multi h.select_none isA rnd
    exact ballsHeld_le_of_imp (hpress.inPlay (hi isA rnd rfl))
  | refresh => exact (input_refreshes h.not_init).ballsHeld h.not_single
  | draw => exact Nat.le_refl _

end Linked

end Board

namespace Game

variable {g : Game}

/-- Both boards of the game are linked. -/
def Linked (g : Game) : Prop := g.Every Board.Linked fun _ => True

theorem linked_wait (h : g.Linked) (dt : Nat) : (g.wait dt).Linked :=
  h.both fun _ hb => hb.wait dt

theorem linked_step (h : g.Linked) (e : Event) : (g.step e).Linked := by
  cases e with
  | input s dt i =>
    have hwait := linked_wait h dt
    exact hwait.speak ((hwait.party s).input i) fun _ _ => trivial
  | deliver s dt =>
    have hwait := linked_wait h dt
    cases hm : g.inbox s with
    | nil =>
      rw [step_deliver_nil hm]
      exact hwait
    | cons m rest =>
      rw [step_deliver_cons hm]
      exact hwait.hear ((hwait.party s).notifyFunc m)

theorem balls_wait (dt : Nat) : (g.wait dt).balls = g.balls :=
  total_both _ _ fun _ => rfl

theorem noneElsewhere_iff {s : Side} :
    g.NoneElsewhere s ↔ g.elsewhere Board.ballsHeld Message.balls s = 0 := by
  rw [elsewhere_eq_zero]
  refine and_congr Board.ballsHeld_eq_zero.symm ?_
  refine forall_congr' fun t => forall₂_congr fun m _ => ?_
  unfold Message.balls
  split <;> simp_all

theorem balls_step_le (h : g.Linked) {e : Event}
    (he : ∀ s dt isA rnd, e = .input s dt (.press isA rnd) →
      ¬ ((g.wait dt).party s).Launches isA) :
    (g.step e).balls ≤ g.balls := by
  cases e with
  | input s dt i =>
    have hwait := linked_wait h dt
    refine Nat.le_trans (total_speak_le _ _ ?_) (Nat.le_of_eq (balls_wait dt))
    refine (hwait.party s).input_ballsHeld fun isA rnd hi => ?_
    exact he s dt isA rnd (by rw [hi])
  | deliver s dt =>
    have hwait := linked_wait h dt
    refine Nat.le_trans ?_ (Nat.le_of_eq (balls_wait dt))
    cases hm : g.inbox s with
    | nil => exact Nat.le_of_eq (congrArg balls (step_deliver_nil hm dt))
    | cons m rest =>
      rw [step_deliver_cons hm]
      exact total_hear_le _ _ hm ((hwait.party s).notifyFunc_ballsHeld m)

/-- After a launch the ball launched is one, and the others are where they were. -/
theorem balls_step_launch {s : Side} {dt : Nat} {isA : Bool} {rnd : Nat}
    (hlaunch : ((g.wait dt).party s).Launches isA) :
    (g.step (.input s dt (.press isA rnd))).OneBall ↔ g.NoneElsewhere s := by
  have hplay := Board.press_launches hlaunch rnd
  have hparty : (g.step (.input s dt (.press isA rnd))).party s =
      ((g.wait dt).party s).buttonPressed isA rnd := Function.update_self ..
  have helse : (g.step (.input s dt (.press isA rnd))).elsewhere Board.ballsHeld Message.balls s =
      g.elsewhere Board.ballsHeld Message.balls s := elsewhere_speak ..
  unfold OneBall balls
  rw [noneElsewhere_iff, total_eq _ _ _ s, hparty, helse, Board.ballsHeld_of_inPlay hplay]
  omega

theorem oneBall_step (h : g.Linked) (hone : g.OneBall) (e : Event) :
    (g.step e).OneBall ↔ g.LaunchesAlone e := by
  by_cases hlaunch : ∃ s dt isA rnd, e = .input s dt (.press isA rnd) ∧
      ((g.wait dt).party s).Launches isA
  · obtain ⟨s, dt, isA, rnd, rfl, hl⟩ := hlaunch
    rw [balls_step_launch hl]
    exact ⟨fun hnone _ => hnone, fun halone => halone hl⟩
  · have hno : ∀ s dt isA rnd, e = .input s dt (.press isA rnd) →
        ¬ ((g.wait dt).party s).Launches isA := by
      intro s dt isA rnd he hl
      exact hlaunch ⟨s, dt, isA, rnd, he, hl⟩
    refine ⟨fun _ => ?_, fun _ => Nat.le_trans (balls_step_le h hno) hone⟩
    match e with
    | .input s dt (.press isA rnd) => exact fun hl => absurd hl (hno s dt isA rnd rfl)
    | .input _ _ .refresh | .input _ _ .draw | .deliver _ _ => trivial

end Game

theorem linked_connReady (l r : Joining) : (connReady l r).Linked where
  party
    | .left => ⟨rfl, l.select_none, l.uptime_pos⟩
    | .right => ⟨rfl, r.select_none, r.uptime_pos⟩
  inbox _ _ _ := trivial

theorem oneBall_connReady (l r : Joining) : (connReady l r).OneBall := by
  have hleft : ((connReady l r).party .left).ballsHeld = 0 :=
    Board.ballsHeld_eq_zero.mpr (Board.not_inPlay_of_refresh l.refresh_none)
  have hright : ((connReady l r).party .right).ballsHeld = 0 :=
    Board.ballsHeld_eq_zero.mpr (Board.not_inPlay_of_refresh r.refresh_none)
  unfold Game.OneBall Game.balls total
  rw [hleft, hright]
  exact Nat.zero_le 1

/-- Two connected boards have at most one ball between them in every state of a run exactly when
each press of the run that launches a ball finds none on the other side and none in flight. -/
theorem oneBall_iff_launchesAlone (l r : Joining) (es : List Event) :
    Always Game.step Game.OneBall (connReady l r) es ↔
      Along Game.step Game.LaunchesAlone (connReady l r) es :=
  always_iff_along Game.step (I := Game.Linked) (P := Game.OneBall)
    (fun _ e h => Game.linked_step h e)
    (fun _ e h hone => Game.oneBall_step h hone e) (linked_connReady l r) (oneBall_connReady l r) es

/-- A board that was switched on, shown the second entry of the menu and told to take it. -/
def newcomer : Joining :=
  Board.joining [(4000, .press true 0), (1000, .press false 0)] rfl

/-- Both players start the game: the initiator, and then the one who waits for the ball. -/
def bothStart : List Event :=
  [.input .left 200 (.press true 3), .input .left 50 (.press false 3),
    .input .right 300 (.press true 5), .input .right 50 (.press false 5)]

theorem bothStart_not_oneBall :
    ¬ Always Game.step Game.OneBall (connReady newcomer newcomer) bothStart := by
  intro h
  exact absurd h.last (by decide)

end Pong
end ZephyrSamples
