import ZephyrSamples.Lib.Duplex
import Mathlib.Algebra.Group.Nat.Defs

/-!
# One board of the pong game

The state of `main.c` and its handlers: the button interrupt, the delayed work `refresh` that moves
the ball, and what the Bluetooth side calls when a notification arrives.  A handler runs to its end
before the next one starts.  `select` is the index shown by an open menu, `refresh` the uptime at
which the work item falls due, and `ended` is zero while a game is on.  Sounds, the texts and images
on the display and the setup and loss of the connection in `ble.c` are left out.
-/

namespace ZephyrSamples
namespace Pong

inductive PongState
  | init
  | multi
  | single
  | connected
deriving DecidableEq

structure XY where
  x : Int
  y : Int
deriving DecidableEq

abbrev pixelSize : Int := 10

abbrev paddleMin : Int := 0
abbrev paddleMax : Int := 3

abbrev ballVelYStart : Int := -4

abbrev ballPosXMin : Int := 0
abbrev ballPosXMax : Int := 49
abbrev ballPosYMin : Int := 0
abbrev ballPosYMax : Int := 39

/-- The animation rate and the thresholds of the buttons, in milliseconds. -/
abbrev gameRefreshRate : Nat := 100
abbrev debounce : Nat := 100
abbrev startThreshold : Nat := 100
abbrev restartThreshold : Nat := 2000

structure Board where
  state : PongState
  select : Option Nat
  remoteLost : Bool
  started : Bool
  ended : Nat
  refresh : Option Nat
  dispUpdate : Bool
  paddleX : Int
  ballPos : XY
  ballVel : XY
  aTimestamp : Nat
  bTimestamp : Nat
  uptime : Nat
deriving DecidableEq

inductive Message
  | ballInfo (xPos yPos xVel yVel : Int)
  | lost
deriving DecidableEq

/-- An `int` passed as `s8_t`. -/
def s8 (v : Int) : Int := (v + 128) % 256 - 128

theorem s8_of_bounds {v : Int} (hlow : -128 ≤ v) (hhigh : v ≤ 127) : s8 v = v := by
  unfold s8
  omega

namespace Board

/-- `main` before its first wait: the mode menu is open. -/
def boot : Board where
  state := .init
  select := some 0
  remoteLost := false
  started := false
  ended := 0
  refresh := none
  dispUpdate := false
  paddleX := paddleMin
  ballPos := ⟨4, ballPosYMax⟩
  ballVel := ⟨0, 0⟩
  aTimestamp := 0
  bTimestamp := 0
  uptime := 0

variable (b : Board)

def wait (dt : Nat) : Board := { b with uptime := b.uptime + dt }

/-- `k_sem_give(&disp_update)`. -/
def semGive : Board := { b with dispUpdate := true }

/-- `k_delayed_work_submit(&refresh, delay)`: an earlier submission is replaced. -/
def submit (delay : Nat) : Board := { b with refresh := some (b.uptime + delay) }

/-- `k_delayed_work_cancel(&refresh)`, and the work item as its handler starts. -/
def cancel : Board := { b with refresh := none }

def gameInit (initiator : Bool) : Board :=
  { b with
    started := false
    ended := 0
    ballPos := ⟨4, if initiator then ballPosYMax else -1⟩
    paddleX := paddleMin
    aTimestamp := 0
    bTimestamp := 0 }

/-- The game is set up again after its end; the side that won gets the ball. -/
def restart : Board :=
  (b.gameInit (b.state = .single || b.remoteLost)).semGive

def pongSelect : Board :=
  match b.select with
  | some _ => b
  | none => { b with select := some 0 }

/-- The values of `mode_choice`. -/
def modeChoice : Nat → PongState
  | 0 => .single
  | _ => .multi

def pongSelectChange (i : Nat) : Board := { b with select := some ((i + 1) % 2) }

def modeSelected (val : PongState) : Board :=
  match val with
  | .single => ({ b with state := .single }.gameInit true).semGive
  | val => { b with state := val }

def pongSelectComplete (i : Nat) : Board :=
  { b with select := none }.modeSelected (modeChoice i)

def BallVisible : Prop := ballPosYMin ≤ b.ballPos.y

/-- Milliseconds between the last presses of the two buttons, as the `u32_t` they are kept in. -/
def startDelta : Nat :=
  (if b.bTimestamp < b.aTimestamp then b.aTimestamp - b.bTimestamp
    else b.bTimestamp - b.aTimestamp) % 2 ^ 32

/-- Both buttons have been pressed within the threshold. -/
def StartAccepted : Prop :=
  b.aTimestamp ≠ 0 ∧ b.bTimestamp ≠ 0 ∧ b.startDelta ≤ startThreshold

instance : Decidable b.BallVisible := inferInstanceAs (Decidable (_ ≤ _))

instance : Decidable b.StartAccepted := inferInstanceAs (Decidable (_ ∧ _ ∧ _))

/-- The horizontal speed drawn with the random byte `rnd`; the button pressed last
gives the side. -/
def startVelX (rnd : Nat) : Int :=
  if b.bTimestamp < b.aTimestamp then 2 + (rnd % 8 : Nat) else -2 - (rnd % 8 : Nat)

def startGame (rnd : Nat) : Board :=
  { b with
    ballVel := ⟨b.startVelX rnd, ballVelYStart⟩
    started := true
    remoteLost := false }.submit 0

def checkStart (rnd : Nat) : Board := if b.StartAccepted then b.startGame rnd else b

def gameEnded (won : Bool) : Board :=
  { b with remoteLost := won, ended := b.uptime, started := false }.submit restartThreshold

/-! ### `game_refresh` -/

def move : Board :=
  { b with ballPos := ⟨b.ballPos.x + b.ballVel.x, b.ballPos.y + b.ballVel.y⟩ }

/-- The ball went over to the other side. -/
def Over : Prop := b.ballVel.y < 0 ∧ b.ballPos.y < ballPosYMin

def bounceTop : Board :=
  { b with ballPos := ⟨b.ballPos.x, -b.ballPos.y⟩, ballVel := ⟨b.ballVel.x, -b.ballVel.y⟩ }

/-- The ball as the other board sees it: `ble_send_ball`, with its `s8_t` parameters. -/
def ballInfo : Message :=
  .ballInfo (s8 (ballPosXMax - b.ballPos.x)) (s8 b.ballPos.y) (s8 (-b.ballVel.x))
  (s8 (-b.ballVel.y))

def sideWalls : Board :=
  if b.ballPos.x < ballPosXMin then
    { b with ballPos := ⟨-b.ballPos.x, b.ballPos.y⟩, ballVel := ⟨-b.ballVel.x, b.ballVel.y⟩ }
  else if ballPosXMax < b.ballPos.x then
    { b with
      ballPos := ⟨2 * ballPosXMax - b.ballPos.x, b.ballPos.y⟩
      ballVel := ⟨-b.ballVel.x, b.ballVel.y⟩ }
  else b

/-- The ball approaches the paddle. -/
def AtPaddle : Prop := 0 < b.ballVel.y ∧ ballPosYMax < b.ballPos.y

def MissesPaddle : Prop :=
  b.ballPos.x < pixelSize * b.paddleX ∨ pixelSize * (b.paddleX + 2) ≤ b.ballPos.x

/-- The paddle returns the ball, faster while its speed is below a pixel. -/
def bouncePaddle : Board :=
  { b with
    ballPos := ⟨b.ballPos.x, 2 * ballPosYMax - b.ballPos.y⟩
    ballVel := ⟨b.ballVel.x, -(if b.ballVel.y < pixelSize then b.ballVel.y + 1 else b.ballVel.y)⟩ }

instance : Decidable b.Over := inferInstanceAs (Decidable (_ ∧ _))

instance : Decidable b.AtPaddle := inferInstanceAs (Decidable (_ ∧ _))

instance : Decidable b.MissesPaddle := inferInstanceAs (Decidable (_ ∨ _))

/-- The refresh ends with the work item submitted again and the display updated. -/
def again : Board := (b.submit gameRefreshRate).semGive

/-- From the side walls on: the ball stays in play unless the paddle misses it. -/
def land (b : Board) : Board × Option Message :=
  if b.AtPaddle then
    if b.MissesPaddle then
      (b.gameEnded false, if b.state = .connected then some .lost else none)
    else (b.bouncePaddle.again, none)
  else (b.again, none)

/-- The ball has moved: the top edge, then the rest. -/
def fly (b : Board) : Board × Option Message :=
  if b.Over then
    if b.state = .single then b.bounceTop.sideWalls.land
    else (b.semGive, some b.ballInfo)
  else b.sideWalls.land

def gameRefresh (b : Board) : Board × Option Message :=
  if b.state = .init then (b.pongSelect, none)
  else if b.ended ≠ 0 then (b.restart, none)
  else b.move.fly

/-! ### The notifications and the buttons -/

def pongBallReceived (xPos yPos xVel yVel : Int) : Board :=
  { b with ballPos := ⟨xPos, yPos⟩, ballVel := ⟨xVel, yVel⟩ }.submit 0

def pongRemoteLost : Board := b.gameEnded true

def pongConnReady (initiator : Bool) : Board :=
  ({ b with state := .connected }.gameInit initiator).semGive

def notifyFunc : Message → Board
  | .ballInfo xPos yPos xVel yVel => b.pongBallReceived xPos yPos xVel yVel
  | .lost => b.pongRemoteLost

/-- What `k_uptime_delta` returns for the timestamp of the button. -/
def uptimeDelta (isA : Bool) : Nat := b.uptime - if isA then b.aTimestamp else b.bTimestamp

/-- `k_uptime_delta` stamps the button, whether the press is then accepted or not. -/
def stamp (isA : Bool) : Board :=
  if isA then { b with aTimestamp := b.uptime } else { b with bTimestamp := b.uptime }

/-- One step of the paddle; the ball lies on it until the game has started. -/
def movePaddle (step : Int) : Board :=
  { b with
    paddleX := b.paddleX + step
    ballPos := if b.started then b.ballPos else ⟨b.ballPos.x + pixelSize * step, b.ballPos.y⟩
    dispUpdate := true }

def paddle (isA : Bool) : Board :=
  if isA then if paddleMin < b.paddleX then b.movePaddle (-1) else b
  else if b.paddleX < paddleMax then b.movePaddle 1 else b

def RestartAllowed : Prop := b.ended ≠ 0 ∧ restartThreshold < b.uptime - b.ended

instance : Decidable b.RestartAllowed := inferInstanceAs (Decidable (_ ∧ _))

/-- A press that is no bounce of the button. -/
def pressed (isA : Bool) (rnd : Nat) : Board :=
  if b.RestartAllowed then b.cancel.restart
  else if b.state = .multi then { b with state := .init }.pongSelect
  else
    match b.select with
    | some i => if isA then b.pongSelectChange i else b.pongSelectComplete i
    | none => (if b.started then b else b.checkStart rnd).paddle isA

def buttonPressed (isA : Bool) (rnd : Nat) : Board :=
  if b.uptimeDelta isA < debounce then b.stamp isA else (b.stamp isA).pressed isA rnd

end Board

/-! ### The inputs of a board -/

/-- What happens to a board apart from notifications: a press, with the byte `bt_rand` would give,
the work queue running the work item if it is due, and `main` drawing. -/
inductive Input
  | press (isA : Bool) (rnd : Nat)
  | refresh
  | draw
deriving DecidableEq

namespace Board

variable (b : Board)

def Due : Prop := ∃ due ∈ b.refresh, due ≤ b.uptime

instance : Decidable b.Due := inferInstanceAs (Decidable (∃ _ ∈ _, _))

/-- The board after an input, and what it sends. -/
def input : Input → Board × Option Message
  | .press isA rnd => (b.buttonPressed isA rnd, none)
  | .refresh => if b.Due then b.cancel.gameRefresh else (b, none)
  | .draw => ({ b with dispUpdate := false }, none)

/-- A board on its own: time passes, then the input comes. -/
def step (e : Nat × Input) : Board := ((b.wait e.1).input e.2).1

end Board

/-! ### What the handlers leave alone -/

/-- The fields that only the menus, the connection and the clock write. -/
def Board.frame (b : Board) : PongState × Option Nat × Nat := (b.state, b.select, b.uptime)

namespace Board

variable (b : Board)

@[simp] theorem cancel_frame : b.cancel.frame = b.frame := rfl
@[simp] theorem restart_frame : b.restart.frame = b.frame := rfl
@[simp] theorem startGame_frame (rnd : Nat) : (b.startGame rnd).frame = b.frame := rfl

@[simp] theorem notifyFunc_frame (m : Message) : (b.notifyFunc m).frame = b.frame := by
  cases m <;> rfl

@[simp] theorem stamp_frame (isA : Bool) : (b.stamp isA).frame = b.frame := by
  cases isA <;> rfl

@[simp] theorem paddle_frame (isA : Bool) : (b.paddle isA).frame = b.frame := by
  unfold paddle
  split <;> split <;> rfl

@[simp] theorem sideWalls_frame : b.sideWalls.frame = b.frame := by
  unfold sideWalls
  split
  · rfl
  · split <;> rfl

variable {b}

theorem state_of_frame {b' : Board} (h : b'.frame = b.frame) : b'.state = b.state :=
  congrArg Prod.fst h

theorem select_of_frame {b' : Board} (h : b'.frame = b.frame) : b'.select = b.select :=
  congrArg (fun p => p.2.1) h

theorem uptime_of_frame {b' : Board} (h : b'.frame = b.frame) : b'.uptime = b.uptime :=
  congrArg (fun p => p.2.2) h

@[simp] theorem stamp_ended (isA : Bool) : (b.stamp isA).ended = b.ended := by
  cases isA <;> rfl

@[simp] theorem stamp_started (isA : Bool) : (b.stamp isA).started = b.started := by
  cases isA <;> rfl

@[simp] theorem stamp_refresh (isA : Bool) : (b.stamp isA).refresh = b.refresh := by
  cases isA <;> rfl

@[simp] theorem stamp_ballVel (isA : Bool) : (b.stamp isA).ballVel = b.ballVel := by
  cases isA <;> rfl

@[simp] theorem stamp_ballPos (isA : Bool) : (b.stamp isA).ballPos = b.ballPos := by
  cases isA <;> rfl

@[simp] theorem stamp_paddleX (isA : Bool) : (b.stamp isA).paddleX = b.paddleX := by
  cases isA <;> rfl

/-! ### The cases of a press and of a refresh -/

/-- The press is accepted and finds a game that is set up and not started on this board. -/
def BeforeStart (b : Board) (isA : Bool) : Prop :=
  debounce ≤ b.uptimeDelta isA ∧ b.state ≠ .multi ∧ b.select = none ∧ b.ended = 0 ∧
    b.started = false

def Launches (b : Board) (isA : Bool) : Prop :=
  b.BeforeStart isA ∧ (b.stamp isA).StartAccepted

instance (isA : Bool) : Decidable (b.BeforeStart isA) :=
  inferInstanceAs (Decidable (_ ∧ _ ∧ _ ∧ _ ∧ _))

instance (isA : Bool) : Decidable (b.Launches isA) := inferInstanceAs (Decidable (_ ∧ _))

/-- What a press makes of a board with no menu open. -/
inductive Presses (b : Board) (isA : Bool) (rnd : Nat) : Board → Prop
  | tooQuick (h : b.uptimeDelta isA < debounce) : Presses b isA rnd (b.stamp isA)
  | restarts (h : b.ended ≠ 0) : Presses b isA rnd (b.stamp isA).cancel.restart
  | plays (h : b.started = true) : Presses b isA rnd ((b.stamp isA).paddle isA)
  | starts (h : b.ended = 0 → b.Launches isA) :
      Presses b isA rnd (((b.stamp isA).startGame rnd).paddle isA)
  | moves (h : b.ended = 0 → b.BeforeStart isA) (hno : ¬ (b.stamp isA).StartAccepted)
      (hstarted : b.started = false) : Presses b isA rnd ((b.stamp isA).paddle isA)

theorem buttonPressed_presses (hstate : b.state ≠ .multi) (hselect : b.select = none)
    (isA : Bool) (rnd : Nat) : Presses b isA rnd (b.buttonPressed isA rnd) := by
  have hstate' : (b.stamp isA).state ≠ .multi :=
    (state_of_frame (b.stamp_frame isA)).trans_ne hstate
  have hselect' : (b.stamp isA).select = none :=
    (select_of_frame (b.stamp_frame isA)).trans hselect
  unfold buttonPressed
  split
  next hquick => exact .tooQuick hquick
  next hdelta =>
    unfold pressed
    rw [if_neg hstate', hselect']
    split
    next hallowed => exact .restarts ((b.stamp_ended isA) ▸ hallowed.1)
    next =>
      show Presses b isA rnd
        ((if (b.stamp isA).started then b.stamp isA else (b.stamp isA).checkStart rnd).paddle isA)
      rw [stamp_started]
      split
      next hstarted => exact .plays hstarted
      next hstarted =>
        have hbefore : b.ended = 0 → b.BeforeStart isA := fun hended =>
          ⟨Nat.le_of_not_lt hdelta, hstate, hselect, hended, Bool.eq_false_iff.mpr hstarted⟩
        unfold checkStart
        split
        next haccepted => exact .starts fun hended => ⟨hbefore hended, haccepted⟩
        next hno => exact .moves hbefore hno (Bool.eq_false_iff.mpr hstarted)

/-- A press before the start launches the ball or takes the paddle's step. -/
theorem buttonPressed_beforeStart {isA : Bool} (h : b.BeforeStart isA) (rnd : Nat) :
    b.buttonPressed isA rnd =
      (if (b.stamp isA).StartAccepted then (b.stamp isA).startGame rnd else b.stamp isA).paddle
        isA := by
  obtain ⟨hdelta, hstate, hselect, hended, hstarted⟩ := h
  have hpress := buttonPressed_presses hstate hselect isA rnd
  generalize b.buttonPressed isA rnd = b' at hpress
  cases hpress with
  | tooQuick hquick => exact absurd hquick (Nat.not_lt.mpr hdelta)
  | restarts hover => exact absurd hended hover
  | plays hyes => exact absurd (hyes.symm.trans hstarted).symm Bool.false_ne_true
  | starts hlaunch => rw [if_pos (hlaunch hended).2]
  | moves _ hno => rw [if_neg hno]

theorem buttonPressed_launches {isA : Bool} (h : b.Launches isA) (rnd : Nat) :
    b.buttonPressed isA rnd = ((b.stamp isA).startGame rnd).paddle isA := by
  rw [buttonPressed_beforeStart h.1, if_pos h.2]

theorem Presses.frame {isA : Bool} {rnd : Nat} {b' : Board} (h : Presses b isA rnd b') :
    b'.frame = b.frame := by
  cases h <;> simp

theorem buttonPressed_frame (hstate : b.state ≠ .multi) (hselect : b.select = none) (isA : Bool)
    (rnd : Nat) : (b.buttonPressed isA rnd).frame = b.frame :=
  (buttonPressed_presses hstate hselect isA rnd).frame

/-- How a ball that is past the side walls ends its refresh. -/
inductive Lands (b : Board) : Board × Option Message → Prop
  | missed (hat : b.AtPaddle) (hmiss : b.MissesPaddle) :
      Lands b (b.gameEnded false, if b.state = .connected then some .lost else none)
  | returned (hat : b.AtPaddle) (hhit : ¬ b.MissesPaddle) : Lands b (b.bouncePaddle.again, none)
  | flies (hnot : ¬ b.AtPaddle) : Lands b (b.again, none)

theorem land_lands : Lands b b.land := by
  unfold land
  split
  next hat =>
    split
    next hmiss => exact .missed hat hmiss
    next hhit => exact .returned hat hhit
  next hnot => exact .flies hnot

/-- What a refresh makes of a board that is in a game. -/
inductive Refreshes (b : Board) : Board × Option Message → Prop
  | early : Refreshes b (b, none)
  | restarts (hsched : b.refresh ≠ none) (hended : b.ended ≠ 0) :
      Refreshes b (b.cancel.restart, none)
  | bounces (hsched : b.refresh ≠ none) (hended : b.ended = 0) (hover : b.cancel.move.Over)
      (hstate : b.state = .single) {r : Board × Option Message}
      (hland : Lands b.cancel.move.bounceTop.sideWalls r) : Refreshes b r
  | handsOver (hsched : b.refresh ≠ none) (hended : b.ended = 0) (hover : b.cancel.move.Over)
      (hstate : b.state ≠ .single) :
      Refreshes b (b.cancel.move.semGive, some b.cancel.move.ballInfo)
  | keeps (hsched : b.refresh ≠ none) (hended : b.ended = 0) (hnot : ¬ b.cancel.move.Over)
      {r : Board × Option Message} (hland : Lands b.cancel.move.sideWalls r) : Refreshes b r

theorem input_refreshes (hstate : b.state ≠ .init) : Refreshes b (b.input .refresh) := by
  show Refreshes b (if b.Due then b.cancel.gameRefresh else (b, none))
  split
  next hdue =>
    have hsched : b.refresh ≠ none := by
      obtain ⟨due, hdue, -⟩ := hdue
      rw [Option.mem_def.mp hdue]
      exact Option.some_ne_none due
    have hinit : ¬ b.cancel.state = .init := hstate
    unfold gameRefresh
    rw [if_neg hinit]
    split
    next hended => exact .restarts hsched hended
    next hended =>
      have hgame : b.ended = 0 := Decidable.not_not.mp hended
      unfold fly
      split
      next hover =>
        split
        next hsingle => exact .bounces hsched hgame hover hsingle land_lands
        next hsingle => exact .handsOver hsched hgame hover hsingle
      next hnot => exact .keeps hsched hgame hnot land_lands
  next => exact .early

theorem Lands.frame {r : Board × Option Message} (h : Lands b r) : r.1.frame = b.frame := by
  cases h <;> rfl

theorem Refreshes.frame {r : Board × Option Message} (h : Refreshes b r) :
    r.1.frame = b.frame := by
  cases h with
  | early => rfl
  | restarts => rfl
  | bounces _ _ _ _ hland => exact hland.frame.trans (sideWalls_frame _)
  | handsOver => rfl
  | keeps _ _ _ hland => exact hland.frame.trans (sideWalls_frame _)

theorem input_frame (hinit : b.state ≠ .init) (hmulti : b.state ≠ .multi)
    (hselect : b.select = none) (i : Input) : (b.input i).1.frame = b.frame := by
  cases i with
  | press isA rnd => exact buttonPressed_frame hmulti hselect isA rnd
  | refresh => exact (input_refreshes hinit).frame
  | draw => rfl

end Board

/-! ### Two boards -/

abbrev Game := Duplex Board Message

inductive Event
  | input (s : Side) (dt : Nat) (i : Input)
  | deliver (s : Side) (dt : Nat)
deriving DecidableEq

namespace Game

def wait (g : Game) (dt : Nat) : Game := g.both (Board.wait · dt)

/-- Time passes for both boards; then one gets an input, or its oldest notification. -/
def step (g : Game) : Event → Game
  | .input s dt i =>
    let r := ((g.wait dt).party s).input i
    (g.wait dt).speak s r.1 r.2.toList
  | .deliver s dt =>
    match g.inbox s with
    | [] => g.wait dt
    | m :: _ => (g.wait dt).hear s (((g.wait dt).party s).notifyFunc m)

variable {g : Game} {s : Side}

theorem step_deliver_nil (h : g.inbox s = []) (dt : Nat) : g.step (.deliver s dt) = g.wait dt := by
  simp only [step, h]

theorem step_deliver_cons {m : Message} {rest : List Message} (h : g.inbox s = m :: rest)
    (dt : Nat) :
    g.step (.deliver s dt) =
      (g.wait dt).hear s (((g.wait dt).party s).notifyFunc m) := by
  simp only [step, h]

end Game

/-- A board as the connection finds it: no menu is open and no work is pending, for the mode was
chosen from the menu, and an earlier game has left a speed within its limits. -/
structure Joining where
  board : Board
  select_none : board.select = none
  refresh_none : board.refresh = none
  uptime_pos : 0 < board.uptime
  velX_bounds : -9 ≤ board.ballVel.x ∧ board.ballVel.x ≤ 9
  velY_bounds : -10 ≤ board.ballVel.y ∧ board.ballVel.y ≤ 10

/-- Both boards after `pong_conn_ready`, the left one as the initiator. -/
def connReady (l r : Joining) : Game where
  party
    | .left => l.board.pongConnReady true
    | .right => r.board.pongConnReady false
  inbox _ := []

end Pong
end ZephyrSamples
