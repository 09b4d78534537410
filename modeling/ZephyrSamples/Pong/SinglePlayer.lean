import ZephyrSamples.Lib.Runs
import ZephyrSamples.Pong.Field

/-!
# A board on its own

The board from its start through the menus and the single-player games, for any presses, expiries
and draws.  While a game waits to be started the ball lies on the paddle and no work is pending, so
that the work item only ever moves a ball that was started; a started ball stays within the field.
-/

namespace ZephyrSamples
namespace Pong

open Runs

namespace Board

/-- The ball lies on the paddle and nothing moves it but the buttons. -/
structure OnPaddle (b : Board) : Prop where
  refresh : b.refresh = none
  x : b.ballPos.x = 4 + 10 * b.paddleX
  y : b.ballPos.y = 39

/-- What holds of a board that no other board is connected to. -/
structure Solo (b : Board) : Prop where
  limits : b.Limits
  not_connected : b.state ≠ .connected
  menu_open : b.state = .init → b.select ≠ none
  menu_closed : b.state ≠ .init → b.select = none
  uptime_pos : b.state ≠ .init → 0 < b.uptime
  no_game : b.state ≠ .single → b.ended = 0 ∧ b.started = false
  waiting : b.ended = 0 → b.started = false → b.OnPaddle
  playing : b.ended = 0 → b.started = true → b.Inside

variable {b b' : Board}

theorem OnPaddle.inside (h : b.OnPaddle) (hl : b.Limits) : b.Inside := by
  have hx := h.x
  have hy := h.y
  have hp := hl.paddle
  exact ⟨by omega, by omega⟩

theorem gameInit_onPaddle (h : b.refresh = none) : (b.gameInit true).OnPaddle :=
  ⟨h, rfl, rfl⟩

theorem OnPaddle.movePaddle (h : b.OnPaddle) (hstarted : b.started = false) (step : Int) :
    (b.movePaddle step).OnPaddle := by
  have hx := h.x
  refine ⟨h.refresh, ?_, ?_⟩
  · rw [movePaddle_waiting hstarted]
    show b.ballPos.x + 10 * step = 4 + 10 * (b.paddleX + step)
    omega
  · rw [movePaddle_waiting hstarted]
    exact h.y

theorem OnPaddle.paddle (h : b.OnPaddle) (hstarted : b.started = false) (isA : Bool) :
    (b.paddle isA).OnPaddle :=
  paddle_induction h fun _ => h.movePaddle hstarted (stride isA)

theorem paddle_ballPos (h : b.started = true) (isA : Bool) :
    (b.paddle isA).ballPos = b.ballPos :=
  paddle_induction (P := fun c => c.ballPos = b.ballPos) rfl fun _ =>
    movePaddle_started h (stride isA)

theorem paddle_started (isA : Bool) : (b.paddle isA).started = b.started :=
  paddle_induction (P := fun c => c.started = b.started) rfl fun _ => rfl

theorem paddle_ended (isA : Bool) : (b.paddle isA).ended = b.ended :=
  paddle_induction (P := fun c => c.ended = b.ended) rfl fun _ => rfl

theorem Inside.congr (h : b.Inside) (hpos : b'.ballPos = b.ballPos) : b'.Inside := by
  constructor
  · rw [hpos]
    exact h.x
  · rw [hpos]
    exact h.y

theorem OnPaddle.of_game (h : b.OnPaddle) (hgame : b'.game = b.game) : b'.OnPaddle := by
  obtain ⟨_, _, hrefresh, hpaddle, hpos, _⟩ := Board.of_game hgame
  refine ⟨hrefresh.trans h.refresh, ?_, ?_⟩
  · rw [hpos, hpaddle]
    exact h.x
  · rw [hpos]
    exact h.y

namespace Solo

theorem of_game (h : b.Solo) (hgame : b'.game = b.game) (hstate : b'.state = b.state)
    (hselect : b'.select = b.select) (hup : b.uptime ≤ b'.uptime) : b'.Solo := by
  obtain ⟨hended, hstarted, _, _, hpos, _⟩ := Board.of_game hgame
  constructor
  · exact h.limits.of_game hgame
  · rw [hstate]
    exact h.not_connected
  · rw [hstate, hselect]
    exact h.menu_open
  · rw [hstate, hselect]
    exact h.menu_closed
  · rw [hstate]
    exact fun hinit => Nat.lt_of_lt_of_le (h.uptime_pos hinit) hup
  · rw [hstate, hended, hstarted]
    exact h.no_game
  · rw [hended, hstarted]
    exact fun hnow hnot => (h.waiting hnow hnot).of_game hgame
  · rw [hended, hstarted]
    exact fun hnow hyes => (h.playing hnow hyes).congr hpos

theorem stamp (h : b.Solo) (isA : Bool) : (b.stamp isA).Solo := by
  have hframe := b.stamp_frame isA
  exact h.of_game (b.stamp_game isA) (state_of_frame hframe) (select_of_frame hframe)
    (Nat.le_of_eq (uptime_of_frame hframe).symm)

theorem wait (h : b.Solo) (dt : Nat) : (b.wait dt).Solo :=
  h.of_game rfl rfl rfl (Nat.le_add_right b.uptime dt)

theorem draw (h : b.Solo) : { b with dispUpdate := false }.Solo :=
  h.of_game rfl rfl rfl (Nat.le_refl b.uptime)

theorem of_frame (h : b.Solo) (hsingle : b.state = .single) (hframe : b'.frame = b.frame)
    (hlimits : b'.Limits) (hwaiting : b'.ended = 0 → b'.started = false → b'.OnPaddle)
    (hplaying : b'.ended = 0 → b'.started = true → b'.Inside) : b'.Solo := by
  have hstate := state_of_frame hframe
  constructor
  · exact hlimits
  · exact hstate.trans_ne h.not_connected
  · rw [hstate, select_of_frame hframe]
    exact h.menu_open
  · rw [hstate, select_of_frame hframe]
    exact h.menu_closed
  · rw [hstate, uptime_of_frame hframe]
    exact h.uptime_pos
  · exact fun hother => absurd (hstate.trans hsingle) hother
  · exact hwaiting
  · exact hplaying

/-- A game set up again in single-player mode waits with the ball on the paddle. -/
theorem restart (h : b.Solo) (hsingle : b.state = .single) (hframe : b'.frame = b.frame)
    (hlimits : b'.Limits) (hsched : b'.refresh = none) : b'.restart.Solo := by
  have hstate : b'.state = .single := (state_of_frame hframe).trans hsingle
  have hball : b'.restart.OnPaddle := by
    have hinit : (decide (b'.state = .single) || b'.remoteLost) = true := by
      rw [hstate]
      rfl
    have hset := gameInit_onPaddle hsched
    unfold Board.restart
    rw [hinit]
    exact ⟨hset.refresh, hset.x, hset.y⟩
  refine h.of_frame hsingle hframe hlimits.restart (fun _ _ => hball) ?_
  intro _ hstarted
  exact absurd hstarted Bool.false_ne_true

theorem presses (h : b.Solo) (hsingle : b.state = .single) {isA : Bool} {rnd : Nat}
    (hpress : Presses b isA rnd b') : b'.Solo := by
  have hframe := hpress.frame
  have hlimits := h.limits.presses hpress
  cases hpress with
  | tooQuick => exact h.stamp isA
  | restarts =>
    have hcancel : (b.stamp isA).cancel.Limits := (h.stamp isA).limits.congr rfl rfl
    exact h.restart hsingle (b.stamp_frame isA) hcancel rfl
  | plays hstarted =>
    have hstarted' : (b.stamp isA).started = true := (b.stamp_started isA).trans hstarted
    refine h.of_frame hsingle hframe hlimits ?_ ?_
    · intro _ hnot
      rw [paddle_started, hstarted'] at hnot
      exact absurd hnot.symm Bool.false_ne_true
    · intro hended _
      rw [paddle_ended] at hended
      exact ((h.stamp isA).playing hended hstarted').congr (paddle_ballPos hstarted' isA)
  | starts hlaunch =>
    refine h.of_frame hsingle hframe hlimits ?_ ?_
    · intro _ hnot
      rw [paddle_started] at hnot
      exact absurd hnot.symm Bool.false_ne_true
    · intro hended _
      rw [paddle_ended] at hended
      have hended' : b.ended = 0 := (b.stamp_ended isA).symm.trans hended
      have hball := h.waiting hended' (hlaunch hended').1.2.2.2.2
      refine (hball.inside h.limits).congr ?_
      rw [paddle_ballPos (Eq.refl true)]
      exact b.stamp_ballPos isA
  | moves _ _ hstarted =>
    have hstarted' : (b.stamp isA).started = false := (b.stamp_started isA).trans hstarted
    refine h.of_frame hsingle hframe hlimits ?_ ?_
    · intro hended _
      rw [paddle_ended] at hended
      exact ((h.stamp isA).waiting hended hstarted').paddle hstarted' isA
    · intro _ hyes
      rw [paddle_started, hstarted'] at hyes
      exact absurd hyes Bool.false_ne_true

theorem started_of_refresh (h : b.Solo) (hsched : b.refresh ≠ none) (hended : b.ended = 0) :
    b.started = true := by
  by_contra hnot
  exact hsched (h.waiting hended (Bool.eq_false_iff.mpr hnot)).refresh

theorem lands (h : b.Solo) (hsingle : b.state = .single) {c : Board} (hframe : c.frame = b.frame)
    (hlimits : c.Limits) (hstarted : c.started = true)
    (hx : -49 ≤ c.ballPos.x ∧ c.ballPos.x ≤ 98) (hy : 0 ≤ c.ballPos.y ∧ c.ballPos.y ≤ 49)
    (hdown : 39 < c.ballPos.y → 0 < c.ballVel.y) {r : Board × Option Message}
    (hland : Lands c.sideWalls r) : r.1.Solo := by
  have hframe' := c.sideWalls_frame.trans hframe
  have hup : 0 < c.sideWalls.uptime := by
    rw [uptime_of_frame hframe']
    exact h.uptime_pos (by rw [hsingle]; decide)
  have hon : r.1.ended = 0 → GoesOn c.sideWalls r.1 := by
    refine hland.goesOn hup ?_ ?_
    · rw [sideWalls_y]
      exact hy.2
    · rw [sideWalls_y, sideWalls_velY]
      exact hdown
  refine h.of_frame hsingle (hland.frame.trans hframe') (hlimits.sideWalls.lands hland) ?_ ?_
  · intro hgame hnot
    rw [(hon hgame).started, sideWalls_started, hstarted] at hnot
    exact absurd hnot.symm Bool.false_ne_true
  · intro hgame _
    have hgo := hon hgame
    constructor
    · rw [hgo.x]
      exact sideWalls_x hx.1 hx.2
    · refine ⟨hgo.y_nonneg ?_, hgo.y_le⟩
      rw [sideWalls_y]
      exact hy.1

theorem refreshes (h : b.Solo) (hsingle : b.state = .single) {r : Board × Option Message}
    (hrefresh : Refreshes b r) : r.1.Solo := by
  have hvelX := h.limits.velX
  have hvelY := h.limits.velY
  have hmove : b.cancel.move.Limits := h.limits.congr rfl rfl
  cases hrefresh with
  | early => exact h
  | restarts => exact h.restart hsingle rfl (h.limits.congr rfl rfl) rfl
  | bounces hsched hended hover _ hland =>
    have hstarted := h.started_of_refresh hsched hended
    obtain ⟨hx, hy⟩ := h.playing hended hstarted
    have hover' : b.ballVel.y < 0 ∧ b.ballPos.y + b.ballVel.y < 0 := hover
    refine h.lands (c := b.cancel.move.bounceTop) hsingle rfl hmove.bounceTop hstarted
      ?_ ?_ ?_ hland
    · show -49 ≤ b.ballPos.x + b.ballVel.x ∧ b.ballPos.x + b.ballVel.x ≤ 98
      omega
    · show 0 ≤ -(b.ballPos.y + b.ballVel.y) ∧ -(b.ballPos.y + b.ballVel.y) ≤ 49
      omega
    · intro _
      show 0 < -b.ballVel.y
      omega
  | handsOver _ _ _ hother => exact absurd hsingle hother
  | keeps hsched hended hnot hland =>
    have hstarted := h.started_of_refresh hsched hended
    obtain ⟨hx, hy⟩ := h.playing hended hstarted
    have hnot' : ¬ (b.ballVel.y < 0 ∧ b.ballPos.y + b.ballVel.y < 0) := hnot
    refine h.lands (c := b.cancel.move) hsingle rfl hmove hstarted ?_ ?_ ?_ hland
    · show -49 ≤ b.ballPos.x + b.ballVel.x ∧ b.ballPos.x + b.ballVel.x ≤ 98
      omega
    · show 0 ≤ b.ballPos.y + b.ballVel.y ∧ b.ballPos.y + b.ballVel.y ≤ 49
      omega
    · show 39 < b.ballPos.y + b.ballVel.y → 0 < b.ballVel.y
      omega

/-! ### The menus -/

/-- In the menus nothing is pending. -/
theorem menu_refresh (h : b.Solo) (hmenu : b.state ≠ .single) : b.refresh = none := by
  obtain ⟨hended, hstarted⟩ := h.no_game hmenu
  exact (h.waiting hended hstarted).refresh

theorem menu (h : b.Solo) (hmenu : b.state ≠ .single) (i : Nat) :
    { b with state := .init, select := some i }.Solo := by
  obtain ⟨hended, hstarted⟩ := h.no_game hmenu
  have hball := h.waiting hended hstarted
  exact
    { limits := h.limits.congr rfl rfl
      not_connected := PongState.noConfusion
      menu_open := fun _ => Option.some_ne_none i
      menu_closed := fun hinit => absurd (Eq.refl _) hinit
      uptime_pos := fun hinit => absurd (Eq.refl _) hinit
      no_game := fun _ => ⟨hended, hstarted⟩
      waiting := fun _ _ => ⟨hball.refresh, hball.x, hball.y⟩
      playing := fun _ hyes => absurd (hyes.symm.trans hstarted).symm Bool.false_ne_true }

theorem multi (h : b.Solo) (hmenu : b.state ≠ .single) (hup : 0 < b.uptime) :
    { b with state := .multi, select := none }.Solo := by
  obtain ⟨hended, hstarted⟩ := h.no_game hmenu
  have hball := h.waiting hended hstarted
  exact
    { limits := h.limits.congr rfl rfl
      not_connected := PongState.noConfusion
      menu_open := PongState.noConfusion
      menu_closed := fun _ => rfl
      uptime_pos := fun _ => hup
      no_game := fun _ => ⟨hended, hstarted⟩
      waiting := fun _ _ => ⟨hball.refresh, hball.x, hball.y⟩
      playing := fun _ hyes => absurd (hyes.symm.trans hstarted).symm Bool.false_ne_true }

theorem single (h : b.Solo) (hmenu : b.state ≠ .single) (hup : 0 < b.uptime) :
    ({ b with select := none }.modeSelected .single).Solo := by
  have hset := gameInit_onPaddle (h.menu_refresh hmenu)
  exact
    { limits := (h.limits.gameInit true).congr rfl rfl
      not_connected := PongState.noConfusion
      menu_open := PongState.noConfusion
      menu_closed := fun _ => rfl
      uptime_pos := fun _ => hup
      no_game := fun hother => absurd (Eq.refl _) hother
      waiting := fun _ _ => ⟨hset.refresh, hset.x, hset.y⟩
      playing := fun _ hyes => absurd hyes Bool.false_ne_true }

theorem pressed_menu (h : b.Solo) (hmenu : b.state ≠ .single) (hup : 0 < b.uptime) (isA : Bool)
    (rnd : Nat) : (b.pressed isA rnd).Solo := by
  have hgame : ¬ b.RestartAllowed := fun hallowed => hallowed.1 (h.no_game hmenu).1
  unfold pressed
  rw [if_neg hgame]
  split
  next hmulti =>
    have hclosed : b.select = none := h.menu_closed (by rw [hmulti]; decide)
    have hopen :
        { b with state := .init }.pongSelect = { b with state := .init, select := some 0 } := by
      simp only [pongSelect, hclosed]
    rw [hopen]
    exact h.menu hmenu 0
  next hmulti =>
    have hinit : b.state = .init := by
      cases hstate : b.state with
      | init => rfl
      | multi => exact absurd hstate hmulti
      | single => exact absurd hstate hmenu
      | connected => exact absurd hstate h.not_connected
    obtain ⟨i, hi⟩ := Option.ne_none_iff_exists'.mp (h.menu_open hinit)
    rw [hi]
    show (if isA = true then b.pongSelectChange i else b.pongSelectComplete i).Solo
    split
    · have hchange :
          b.pongSelectChange i = { b with state := .init, select := some ((i + 1) % 2) } := by
        rw [← hinit]
        rfl
      rw [hchange]
      exact h.menu hmenu ((i + 1) % 2)
    · cases i with
      | zero => exact h.single hmenu hup
      | succ i => exact h.multi hmenu hup

/-! ### Every step -/

theorem buttonPressed (h : b.Solo) (isA : Bool) (rnd : Nat) : (b.buttonPressed isA rnd).Solo := by
  by_cases hsingle : b.state = .single
  · have hmulti : b.state ≠ .multi := by
      rw [hsingle]
      decide
    have hclosed : b.select = none := h.menu_closed (by rw [hsingle]; decide)
    exact h.presses hsingle (buttonPressed_presses hmulti hclosed isA rnd)
  · unfold Board.buttonPressed
    split
    next => exact h.stamp isA
    next hdelta =>
      have hframe := b.stamp_frame isA
      refine (h.stamp isA).pressed_menu ((state_of_frame hframe).trans_ne hsingle) ?_ isA rnd
      rw [uptime_of_frame hframe]
      have hlong : debounce ≤ b.uptimeDelta isA := Nat.le_of_not_lt hdelta
      unfold uptimeDelta at hlong
      have hpos : 0 < debounce := by decide
      omega

theorem input_refresh (h : b.Solo) : (b.input .refresh).1.Solo := by
  by_cases hsingle : b.state = .single
  · exact h.refreshes hsingle (input_refreshes (by rw [hsingle]; decide))
  · have hidle : ¬ b.Due := by
      rintro ⟨due, hdue, -⟩
      rw [h.menu_refresh hsingle] at hdue
      exact absurd hdue (Option.not_mem_none due)
    show (if b.Due then b.cancel.gameRefresh else (b, none)).1.Solo
    rw [if_neg hidle]
    exact h

theorem step (h : b.Solo) (e : Nat × Input) : (b.step e).Solo := by
  obtain ⟨dt, i⟩ := e
  have hwait := h.wait dt
  cases i with
  | press isA rnd => exact hwait.buttonPressed isA rnd
  | refresh => exact hwait.input_refresh
  | draw => exact hwait.draw

theorem drawsOnField (h : b.Solo) : b.DrawsOnField := by
  rintro ⟨_, hended, _⟩
  cases hstarted : b.started with
  | false => exact ((h.waiting hended hstarted).inside h.limits).onField h.limits
  | true => exact (h.playing hended hstarted).onField h.limits

end Solo

theorem boot_solo : boot.Solo where
  limits := ⟨by decide, by decide, by decide⟩
  not_connected := by decide
  menu_open := by decide
  menu_closed := by decide
  uptime_pos := by decide
  no_game := by decide
  waiting _ _ := ⟨rfl, rfl, rfl⟩
  playing _ hstarted := absurd hstarted Bool.false_ne_true

theorem solo_run (es : List (Nat × Input)) : (run step boot es).Solo :=
  run_invariant step (fun _ e h => h.step e) boot_solo es

/-- Whatever is pressed and whenever the work item runs, what a board on its own draws is on the
field. -/
theorem always_drawsOnField (es : List (Nat × Input)) : Always step DrawsOnField boot es :=
  always_of_invariant step (fun _ e h => h.step e) (fun _ h => h.drawsOnField) boot_solo es

/-- A board that looks for another after a run from its start is fit to join. -/
def joining (es : List (Nat × Input)) (h : (run step boot es).state = .multi) : Joining where
  board := run step boot es
  select_none := (solo_run es).menu_closed (by rw [h]; decide)
  refresh_none := (solo_run es).menu_refresh (by rw [h]; decide)
  uptime_pos := (solo_run es).uptime_pos (by rw [h]; decide)
  velX_bounds := (solo_run es).limits.velX
  velY_bounds := (solo_run es).limits.velY

end Board

end Pong
end ZephyrSamples
