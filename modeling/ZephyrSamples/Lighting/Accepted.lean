import ZephyrSamples.Lighting.Agreement

/-!
# What a message does

A message either leaves the transition alone or, when its handler accepts it, stops the transition
under way, sets its targets and starts anew.  `Message.accept` is the state in which the targets are
set; `receive_outcome` is the case analysis every proof about runs starts from.
-/

namespace ZephyrSamples
namespace Lighting

/-- What an accepted message goes on with: the part of its handler, and the state in which its
targets are set. -/
structure Aim where
  starter : Starter
  state : Server

/-- The rest of the handler, unacknowledged. -/
def Aim.finish (a : Aim) (ctx : MsgCtx) : Server :=
  if a.state.transition.type = some .move then a.starter.moveUnack ctx a.state
  else a.starter.goUnack ctx a.state

section Accept

variable (linearToActual : UInt16 → UInt16) (ctx : MsgCtx) (buf : Buf) (s : Server)

def SetHandler.accept {α : Type} (h : SetHandler α) : Option Aim :=
  match h.inspect ctx buf s with
  | .fresh v tid tt delay => some ⟨h.toStarter, h.aim linearToActual v tid tt delay ctx s⟩
  | _ => none

def MoveHandler.accept (h : MoveHandler) : Option Aim :=
  match MoveHandler.inspect ctx buf s with
  | .fresh delta tid tt delay => some ⟨h.toStarter, h.aim linearToActual delta tid tt delay ctx s⟩
  | _ => none

def DeltaHandler.accept (h : DeltaHandler) : Option Aim :=
  match h.inspect ctx buf s with
  | (.fresh target tid tt delay, s) =>
    some ⟨h.toStarter, h.aim linearToActual target tid tt delay ctx s⟩
  | _ => none

def acceptRequest (acked : Bool) : Request → Option Aim
  | .genOnoff => genOnoff.accept linearToActual ctx buf s
  | .genLevel => genLevel.accept linearToActual ctx buf s
  | .genDelta => (if acked then genDeltaAck else genDeltaUnack).accept linearToActual ctx buf s
  | .genMove => genMove.accept linearToActual ctx buf s
  | .lightLightness => lightLightness.accept linearToActual ctx buf s
  | .lightLightnessLinear => lightLightnessLinear.accept linearToActual ctx buf s
  | .lightCtl => lightCtl.accept linearToActual ctx buf s
  | .lightCtlTemp => lightCtlTemp.accept linearToActual ctx buf s
  | .genLevelTemp => genLevelTemp.accept linearToActual ctx buf s
  | .genDeltaTemp =>
    (if acked then genDeltaAckTemp else genDeltaUnackTemp).accept linearToActual ctx buf s
  | .genMoveTemp => genMoveTemp.accept linearToActual ctx buf s
  | .genDefTransTime | .genOnpowerup | .lightLightnessDefault | .lightLightnessRange => none
  | .lightCtlDefault | .lightCtlTempRange => none

/-- What a message goes on with if it is long enough and its handler accepts it. -/
def Message.accept (m : Message) : Option Aim :=
  if m.buf.length < m.request.minLen then none
  else acceptRequest linearToActual m.ctx m.buf s m.acked m.request

end Accept

/-! ## Messages that leave the transition alone -/

/-- `s'` is `s` with other stored states, other requests made and other statuses sent: nothing of
the transition but the remaining time is written. -/
def Server.Keeps (s s' : Server) : Prop :=
  ∃ (light temp : UInt16) (duv : Int16) (lightCode tempCode onpowerup tt rt : UInt8)
    (lastLevels : LastLevels) (effects : List Effect) (sent published : List Status), s' =
      { s with
        light := { s.light with dflt := light, statusCode := lightCode }
        temp := { s.temp with dflt := temp, statusCode := tempCode }
        duv := { s.duv with dflt := duv }
        onpowerup := onpowerup
        tt := tt
        transition := { s.transition with rt := rt }
        lastLevels := lastLevels
        effects := effects
        sent := sent
        published := published }

namespace Server

theorem Keeps.refl (s : Server) : s.Keeps s := ⟨_, _, _, _, _, _, _, _, _, _, _, _, rfl⟩

theorem keeps_of_forgetStatus {s s' s'' : Server} (h : s.Keeps s')
    (heq : s''.forgetStatus = s'.forgetStatus) : s.Keeps s'' := by
  obtain ⟨light, temp, duv, lightCode, tempCode, onpowerup, tt, rt, lastLevels, effects, sent,
    published, rfl⟩ := h
  refine ⟨light, temp, duv, lightCode, tempCode, onpowerup, tt, s''.transition.rt, lastLevels,
    effects, s''.sent, published, ?_⟩
  calc s'' = s''.forgetStatus.withStatus s''.transition.rt s''.sent := rfl
    _ = _ := by rw [heq]; rfl

end Server

/-! ## Messages that are accepted -/

/-- `s'` is `s` after the preamble of an accepted message and the setting of its targets. -/
def Scope.Begins (scope : Scope) (type : TransitionType) (ctx : MsgCtx) (tid : UInt8)
    (s s' : Server) : Prop :=
  ∃ (tt delay : UInt8) (lastLevels : LastLevels) (light temp : Int),
    scope.Aims
      { s with
        light := { s.light with delta := light }
        temp := { s.temp with delta := temp }
        lastLevels := lastLevels
        lastTid := tid
        lastSrcAddr := ctx.addr
        lastDstAddr := ctx.recvDst
        lastMsgTimestamp := ctx.now
        transition := { s.transition with
          counter := 0
          tt := tt
          delay := delay
          type := some type
          timer := { s.transition.timer with running := false } } } s'

theorem Scope.Aims.transition {scope : Scope} {s s' : Server} (h : scope.Aims s s') :
    s'.transition = s.transition := by
  obtain ⟨_, _, _, _, rfl, _⟩ := h
  rfl

/-- The transition time is that at the end of a message, or the default one. -/
def Server.TakesTime (s s' : Server) : Prop :=
  ∃ buf delay, s.optionalFields buf = some (s'.transition.tt, delay)

section Accepted

variable {linearToActual : UInt16 → UInt16} {ctx : MsgCtx} {buf : Buf} {s : Server} {a : Aim}

theorem Scope.begins_beginTransition {scope : Scope} {type : TransitionType} {tid tt delay : UInt8}
    {lastLevels : LastLevels} {s' : Server}
    (h : scope.Aims
      (({ s with lastLevels := lastLevels } : Server).beginTransition type tid tt delay ctx) s') :
    scope.Begins type ctx tid s s' := by
  refine ⟨tt, delay, lastLevels, s.light.delta, s.temp.delta, Scope.Aims.trans ?_ h⟩
  exact ⟨_, _, _, s.effects ++ [.timerStop], rfl, fun _ => rfl, fun _ => rfl, fun _ => rfl⟩

theorem SetHandler.accept_aim {α : Type} {h : SetHandler α}
    (haccept : h.accept linearToActual ctx buf s = some a) :
    h.valid (h.pull buf).1 = true ∧ s.isRepeat (h.pull buf).2.1 ctx = false ∧
      ∃ tt delay, s.optionalFields (h.pull buf).2.2 = some (tt, delay) ∧ a = ⟨h.toStarter,
        h.aim linearToActual (h.pull buf).1 (h.pull buf).2.1 tt delay ctx s⟩ := by
  unfold SetHandler.accept SetHandler.inspect at haccept
  dsimp only at haccept
  by_cases hvalid : h.valid (h.pull buf).1 = true
  · by_cases hrepeat : s.isRepeat (h.pull buf).2.1 ctx = true
    · simp [hvalid, hrepeat] at haccept
    · have hrepeat : s.isRepeat (h.pull buf).2.1 ctx = false := by simpa using hrepeat
      cases hfields : s.optionalFields (h.pull buf).2.2 with
      | none => simp [hvalid, hrepeat, hfields] at haccept
      | some fields =>
        simp only [hvalid, hrepeat, hfields] at haccept
        obtain rfl := Option.some.inj haccept
        exact ⟨hvalid, hrepeat, fields.1, fields.2, rfl, rfl⟩
  · simp [hvalid] at haccept

theorem SetHandler.accept_eq_some {α : Type} {h : SetHandler α}
    (haccept : h.accept linearToActual ctx buf s = some a) :
    s.isRepeat (h.pull buf).2.1 ctx = false ∧ a.starter = h.toStarter ∧
      h.scope.Begins .nonMove ctx (h.pull buf).2.1 s a.state ∧ s.TakesTime a.state := by
  obtain ⟨_, hrepeat, tt, delay, hfields, rfl⟩ := SetHandler.accept_aim haccept
  have haims := Scope.aims_foldl_setTarget linearToActual (h.covered (h.pull buf).1)
    (s.beginTransition .nonMove (h.pull buf).2.1 tt delay ctx)
  refine ⟨hrepeat, rfl, Scope.begins_beginTransition haims, _, delay, hfields.trans ?_⟩
  rw [SetHandler.aim, haims.transition]
  rfl

/-- `setDelta` of the two Move handlers writes a delta. -/
def MoveHandler.SetsDelta (h : MoveHandler) : Prop :=
  ∀ delta s, ∃ light temp, h.setDelta delta s =
    { s with light := { s.light with delta := light }, temp := { s.temp with delta := temp } }

theorem MoveHandler.accept_aim {h : MoveHandler}
    (haccept : h.accept linearToActual ctx buf s = some a) :
    s.isRepeat (pullU8 (pullLe16 buf).2).1 ctx = false ∧
      ∃ tt delay, s.optionalFields (pullU8 (pullLe16 buf).2).2 = some (tt, delay) ∧
        a = ⟨h.toStarter, h.aim linearToActual (toS16 (pullLe16 buf).1)
          (pullU8 (pullLe16 buf).2).1 tt delay ctx s⟩ := by
  unfold MoveHandler.accept MoveHandler.inspect at haccept
  dsimp only at haccept
  by_cases hrepeat : s.isRepeat (pullU8 (pullLe16 buf).2).1 ctx = true
  · simp [hrepeat] at haccept
  · have hrepeat : s.isRepeat (pullU8 (pullLe16 buf).2).1 ctx = false := by simpa using hrepeat
    cases hfields : s.optionalFields (pullU8 (pullLe16 buf).2).2 with
    | none => simp [hrepeat, hfields] at haccept
    | some fields =>
      simp only [hrepeat, hfields] at haccept
      obtain rfl := Option.some.inj haccept
      exact ⟨hrepeat, fields.1, fields.2, rfl, rfl⟩

theorem MoveHandler.accept_eq_some {h : MoveHandler} (hdelta : h.SetsDelta)
    (haccept : h.accept linearToActual ctx buf s = some a) :
    s.isRepeat (pullU8 (pullLe16 buf).2).1 ctx = false ∧ a.starter = h.toStarter ∧
      h.scope.Begins .move ctx (pullU8 (pullLe16 buf).2).1 s a.state ∧ s.TakesTime a.state := by
  obtain ⟨hrepeat, tt, delay, hfields, rfl⟩ := MoveHandler.accept_aim haccept
  obtain ⟨light, temp, heq⟩ := hdelta (toS16 (pullLe16 buf).1).toInt
    (s.beginTransition .move (pullU8 (pullLe16 buf).2).1 tt delay ctx)
  have haims (delta : Int16) (s : Server) :=
    Scope.aims_setTarget linearToActual (h.covered delta s) s
  refine ⟨hrepeat, rfl, ⟨tt, delay, s.lastLevels, light, temp, Scope.Aims.trans ?_ (haims _ _)⟩,
    _, delay, hfields.trans ?_⟩
  · rw [heq]
    exact ⟨_, _, _, s.effects ++ [.timerStop], rfl, fun _ => rfl, fun _ => rfl, fun _ => rfl⟩
  · rw [MoveHandler.aim, (haims _ _).transition, heq]
    rfl

theorem DeltaHandler.accept_aim {h : DeltaHandler}
    (haccept : h.accept linearToActual ctx buf s = some a) :
    ∃ target tt delay lastLevels,
      s.optionalFields (pullU8 (pullLe32 buf).2).2 = some (tt, delay) ∧
      a = ⟨h.toStarter, h.aim linearToActual target
        (pullU8 (pullLe32 buf).2).1 tt delay ctx { s with lastLevels := lastLevels }⟩ := by
  unfold DeltaHandler.accept DeltaHandler.inspect at haccept
  dsimp only at haccept
  by_cases hrepeat : (s.isRepeat (pullU8 (pullLe32 buf).2).1 ctx &&
      h.delta s = (Int32.ofInt (pullLe32 buf).1.toNat).toInt) = true
  · simp only [if_pos hrepeat] at haccept
    cases haccept
  · simp only [if_neg hrepeat] at haccept
    obtain ⟨lastLevels, hlevels⟩ : ∃ lastLevels,
        (if s.isRepeat (pullU8 (pullLe32 buf).2).1 ctx = true then s
          else { s with lastLevels := h.setLastLevel (h.level s) s.lastLevels }) =
        { s with lastLevels := lastLevels } := by
      split
      · exact ⟨s.lastLevels, rfl⟩
      · exact ⟨_, rfl⟩
    rw [hlevels] at haccept
    cases hfields : Server.optionalFields (pullU8 (pullLe32 buf).2).2
        { s with lastLevels := lastLevels } with
    | none => simp [hfields] at haccept
    | some fields =>
      simp only [hfields] at haccept
      obtain rfl := Option.some.inj haccept
      exact ⟨_, fields.1, fields.2, lastLevels, hfields, rfl⟩

theorem DeltaHandler.accept_eq_some {h : DeltaHandler}
    (haccept : h.accept linearToActual ctx buf s = some a) :
    a.starter = h.toStarter ∧
      h.scope.Begins .nonMove ctx (pullU8 (pullLe32 buf).2).1 s a.state ∧ s.TakesTime a.state := by
  obtain ⟨target, tt, delay, lastLevels, hfields, rfl⟩ := DeltaHandler.accept_aim haccept
  have haims := Scope.aims_setTarget linearToActual (h.covered (DeltaHandler.clampLevel target))
    (({ s with lastLevels := lastLevels } : Server).beginTransition .nonMove
      (pullU8 (pullLe32 buf).2).1 tt delay ctx)
  refine ⟨rfl, Scope.begins_beginTransition haims, _, delay, hfields.trans ?_⟩
  rw [DeltaHandler.aim, haims.transition]
  rfl

theorem Scope.Begins.type_eq {scope : Scope} {type : TransitionType} {tid : UInt8} {s' : Server}
    (h : scope.Begins type ctx tid s s') : s'.transition.type = some type := by
  obtain ⟨tt, delay, lastLevels, light, temp, _, _, _, _, rfl, _⟩ := h
  rfl

theorem Aim.finish_of_nonMove (h : a.state.transition.type = some .nonMove) :
    a.finish ctx = a.starter.goUnack ctx a.state := by
  rw [Aim.finish, h, if_neg (by decide)]

theorem Aim.finish_of_move (h : a.state.transition.type = some .move) :
    a.finish ctx = a.starter.moveUnack ctx a.state := by
  rw [Aim.finish, h, if_pos rfl]

theorem SetHandler.setUnack_of_none {α : Type} {h : SetHandler α}
    (haccept : h.accept linearToActual ctx buf s = none) :
    h.setUnack linearToActual ctx buf s = s := by
  unfold SetHandler.accept at haccept
  unfold SetHandler.setUnack
  cases hverdict : h.inspect ctx buf s with
  | ignored => rfl
  | repeated => rfl
  | fresh v tid tt delay => simp [hverdict] at haccept

theorem SetHandler.setUnack_of_some {α : Type} {h : SetHandler α}
    (haccept : h.accept linearToActual ctx buf s = some a) :
    h.setUnack linearToActual ctx buf s = a.finish ctx := by
  have htype := (SetHandler.accept_eq_some haccept).2.2.1.type_eq
  rw [Aim.finish_of_nonMove htype]
  unfold SetHandler.accept at haccept
  unfold SetHandler.setUnack
  cases hverdict : h.inspect ctx buf s with
  | ignored => simp [hverdict] at haccept
  | repeated => simp [hverdict] at haccept
  | fresh v tid tt delay =>
    rw [hverdict] at haccept
    obtain rfl := Option.some.inj haccept
    rfl

theorem SetHandler.handle_of_none {α : Type} {h : SetHandler α} {acked : Bool}
    (haccept : h.accept linearToActual ctx buf s = none) :
    (if acked then h.set linearToActual ctx buf s
      else h.setUnack linearToActual ctx buf s).forgetStatus = s.forgetStatus := by
  have hunack := SetHandler.setUnack_of_none haccept
  cases acked with
  | false => exact congrArg Server.forgetStatus hunack
  | true => exact (h.set_forgetStatus linearToActual ctx buf s).trans (by rw [hunack])

theorem SetHandler.handle_of_some {α : Type} {h : SetHandler α} {acked : Bool}
    (haccept : h.accept linearToActual ctx buf s = some a) :
    (if acked then h.set linearToActual ctx buf s
      else h.setUnack linearToActual ctx buf s).forgetStatus = (a.finish ctx).forgetStatus := by
  rw [← SetHandler.setUnack_of_some haccept]
  cases acked with
  | false => rfl
  | true => exact h.set_forgetStatus linearToActual ctx buf s

theorem MoveHandler.setUnack_of_none {h : MoveHandler}
    (haccept : h.accept linearToActual ctx buf s = none) :
    h.setUnack linearToActual ctx buf s = s := by
  unfold MoveHandler.accept at haccept
  unfold MoveHandler.setUnack
  cases hverdict : MoveHandler.inspect ctx buf s with
  | ignored => rfl
  | repeated => rfl
  | fresh delta tid tt delay => simp [hverdict] at haccept

theorem MoveHandler.setUnack_of_some {h : MoveHandler} (hdelta : h.SetsDelta)
    (haccept : h.accept linearToActual ctx buf s = some a) :
    h.setUnack linearToActual ctx buf s = a.finish ctx := by
  have htype := (MoveHandler.accept_eq_some hdelta haccept).2.2.1.type_eq
  rw [Aim.finish_of_move htype]
  unfold MoveHandler.accept at haccept
  unfold MoveHandler.setUnack
  cases hverdict : MoveHandler.inspect ctx buf s with
  | ignored => simp [hverdict] at haccept
  | repeated => simp [hverdict] at haccept
  | fresh delta tid tt delay =>
    rw [hverdict] at haccept
    obtain rfl := Option.some.inj haccept
    rfl

theorem MoveHandler.handle_of_none {h : MoveHandler} {acked : Bool}
    (haccept : h.accept linearToActual ctx buf s = none) :
    (if acked then h.set linearToActual ctx buf s
      else h.setUnack linearToActual ctx buf s).forgetStatus = s.forgetStatus := by
  have hunack := MoveHandler.setUnack_of_none haccept
  cases acked with
  | false => exact congrArg Server.forgetStatus hunack
  | true => exact (h.set_forgetStatus linearToActual ctx buf s).trans (by rw [hunack])

theorem MoveHandler.handle_of_some {h : MoveHandler} {acked : Bool} (hdelta : h.SetsDelta)
    (haccept : h.accept linearToActual ctx buf s = some a) :
    (if acked then h.set linearToActual ctx buf s
      else h.setUnack linearToActual ctx buf s).forgetStatus = (a.finish ctx).forgetStatus := by
  rw [← MoveHandler.setUnack_of_some hdelta haccept]
  cases acked with
  | false => rfl
  | true => exact h.set_forgetStatus linearToActual ctx buf s

theorem DeltaHandler.setUnack_of_none {h : DeltaHandler}
    (haccept : h.accept linearToActual ctx buf s = none) :
    s.Keeps (h.setUnack linearToActual ctx buf s) := by
  have hkeeps : s.Keeps (h.inspect ctx buf s).2 := by
    unfold DeltaHandler.inspect
    dsimp only
    split
    · exact Server.Keeps.refl s
    · have hlevels : s.Keeps (if s.isRepeat (pullU8 (pullLe32 buf).2).1 ctx = true then s
          else { s with lastLevels := h.setLastLevel (h.level s) s.lastLevels }) := by
        split
        · exact Server.Keeps.refl s
        · exact ⟨_, _, _, _, _, _, _, s.transition.rt, _, _, _, _, rfl⟩
      split <;> exact hlevels
  unfold DeltaHandler.accept at haccept
  unfold DeltaHandler.setUnack
  generalize h.inspect ctx buf s = inspected at hkeeps haccept ⊢
  obtain ⟨verdict, s'⟩ := inspected
  cases verdict with
  | ignored => exact hkeeps
  | repeated => exact hkeeps
  | fresh target tid tt delay => cases haccept

theorem DeltaHandler.setUnack_of_some {h : DeltaHandler}
    (haccept : h.accept linearToActual ctx buf s = some a) :
    h.setUnack linearToActual ctx buf s = a.finish ctx := by
  have htype := (DeltaHandler.accept_eq_some haccept).2.1.type_eq
  rw [Aim.finish_of_nonMove htype]
  unfold DeltaHandler.accept at haccept
  unfold DeltaHandler.setUnack
  generalize h.inspect ctx buf s = inspected at haccept ⊢
  obtain ⟨verdict, s'⟩ := inspected
  cases verdict with
  | ignored => cases haccept
  | repeated => cases haccept
  | fresh target tid tt delay =>
    obtain rfl := Option.some.inj haccept
    rfl

/-- The two forms of a Delta Set keep the level in different variables. -/
theorem DeltaHandler.handle_of_none {ack unack : DeltaHandler} {acked : Bool}
    (haccept : (if acked then ack else unack).accept linearToActual ctx buf s = none) :
    s.Keeps (if acked then ack.set linearToActual ctx buf s
      else unack.setUnack linearToActual ctx buf s) := by
  cases acked with
  | false => exact DeltaHandler.setUnack_of_none haccept
  | true =>
    have hunack : s.Keeps (ack.setUnack linearToActual ctx buf s) :=
      DeltaHandler.setUnack_of_none haccept
    exact Server.keeps_of_forgetStatus hunack (ack.set_forgetStatus linearToActual ctx buf s)

theorem DeltaHandler.handle_of_some {ack unack : DeltaHandler} {acked : Bool}
    (haccept : (if acked then ack else unack).accept linearToActual ctx buf s = some a) :
    (if acked then ack.set linearToActual ctx buf s
      else unack.setUnack linearToActual ctx buf s).forgetStatus = (a.finish ctx).forgetStatus := by
  rw [← DeltaHandler.setUnack_of_some haccept]
  cases acked with
  | false => rfl
  | true => exact ack.set_forgetStatus linearToActual ctx buf s

theorem genMove_setsDelta : genMove.SetsDelta := fun delta s => ⟨delta, s.temp.delta, rfl⟩

theorem genMoveTemp_setsDelta : genMoveTemp.SetsDelta := fun delta s => ⟨s.light.delta, delta, rfl⟩

end Accepted

/-! ## The fields of a message -/

theorem pullU8_fst (buf : Buf) : (pullU8 buf).1 = buf.getD 0 0 := by
  cases buf <;> rfl

theorem pullU8_snd (buf : Buf) : (pullU8 buf).2 = buf.drop 1 := by
  cases buf <;> rfl

theorem pullLe16_snd (buf : Buf) : (pullLe16 buf).2 = buf.drop 2 := by
  show (pullU8 (pullU8 buf).2).2 = buf.drop 2
  rw [pullU8_snd, pullU8_snd, List.drop_drop]

theorem pullLe32_snd (buf : Buf) : (pullLe32 buf).2 = buf.drop 4 := by
  show (pullLe16 (pullLe16 buf).2).2 = buf.drop 4
  rw [pullLe16_snd, pullLe16_snd, List.drop_drop]

theorem getD_drop (buf : Buf) (n : Nat) : (buf.drop n).getD 0 0 = buf.getD n 0 := by
  simp

/-- The transaction identifier is the last of the mandatory bytes. -/
def Message.tid (m : Message) : UInt8 := m.buf.getD (m.request.minLen - 1) 0

/-- The two ends of a range, as the Range Set handlers read them. -/
def pullRange (buf : Buf) : UInt16 × UInt16 := ((pullLe16 buf).1, (pullLe16 (pullLe16 buf).2).1)

/-- The expiry functions whose work moves the temperature. -/
def TtHandler.movesTemp : TtHandler → Bool
  | .levelTemp | .lightCtl | .lightCtlTemp => true
  | _ => false

/-- What holds of an accepted message and of what it goes on with. -/
structure Accepted (m : Message) (s : Server) (a : Aim) : Prop where
  long : m.request.minLen ≤ m.buf.length
  fresh : m.request ≠ .genDelta → m.request ≠ .genDeltaTemp → s.isRepeat m.tid m.ctx = false
  begins : ∃ type, a.starter.scope.Begins type m.ctx m.tid s a.state
  nonMove : a.state.transition.type = some .nonMove → a.starter.timer.movesTemp = true →
    a.starter.binding.movesTemp = true
  move : a.state.transition.type = some .move →
    a.starter.timer = .levelLightness ∨ a.starter.timer = .levelTemp
  takesTime : s.TakesTime a.state

section Receive

variable {linearToActual : UInt16 → UInt16} {m : Message} {s : Server} {a : Aim}

theorem Accepted.of_set {α : Type} {h : SetHandler α}
    (hlong : m.request.minLen ≤ m.buf.length) (htid : (h.pull m.buf).2.1 = m.tid)
    (hbound : h.timer.movesTemp = true → h.binding.movesTemp = true)
    (haccept : h.accept linearToActual m.ctx m.buf s = some a) : Accepted m s a := by
  obtain ⟨hfresh, hstarter, hbegins, htime⟩ := SetHandler.accept_eq_some haccept
  have htype := hbegins.type_eq
  rw [htid] at hfresh hbegins
  exact {
    long := hlong
    fresh := fun _ _ => hfresh
    begins := ⟨.nonMove, hstarter ▸ hbegins⟩
    nonMove := fun _ => hstarter ▸ hbound
    move := fun hmove => by simp [htype] at hmove
    takesTime := htime }

theorem Accepted.of_move {h : MoveHandler} (hdelta : h.SetsDelta)
    (hlong : m.request.minLen ≤ m.buf.length) (htid : (pullU8 (pullLe16 m.buf).2).1 = m.tid)
    (htimer : h.timer = .levelLightness ∨ h.timer = .levelTemp)
    (haccept : h.accept linearToActual m.ctx m.buf s = some a) : Accepted m s a := by
  obtain ⟨hfresh, hstarter, hbegins, htime⟩ := MoveHandler.accept_eq_some hdelta haccept
  have htype := hbegins.type_eq
  rw [htid] at hfresh hbegins
  exact {
    long := hlong
    fresh := fun _ _ => hfresh
    begins := ⟨.move, hstarter ▸ hbegins⟩
    nonMove := fun hmove => by simp [htype] at hmove
    move := fun _ => hstarter ▸ htimer
    takesTime := htime }

theorem Accepted.of_delta {h : DeltaHandler}
    (hrequest : m.request = .genDelta ∨ m.request = .genDeltaTemp)
    (hlong : m.request.minLen ≤ m.buf.length) (htid : (pullU8 (pullLe32 m.buf).2).1 = m.tid)
    (hbound : h.timer.movesTemp = true → h.binding.movesTemp = true)
    (haccept : h.accept linearToActual m.ctx m.buf s = some a) : Accepted m s a := by
  obtain ⟨hstarter, hbegins, htime⟩ := DeltaHandler.accept_eq_some haccept
  have htype := hbegins.type_eq
  rw [htid] at hbegins
  exact {
    long := hlong
    fresh := fun hlight htemp => by
      rcases hrequest with h | h
      · exact absurd h hlight
      · exact absurd h htemp
    begins := ⟨.nonMove, hstarter ▸ hbegins⟩
    nonMove := fun _ => hstarter ▸ hbound
    move := fun hmove => by simp [htype] at hmove
    takesTime := htime }

theorem tid_onoff (buf : Buf) : (pullOnoff buf).2.1 = buf.getD 1 0 := by
  show (pullU8 (pullU8 buf).2).1 = _
  rw [pullU8_fst, pullU8_snd, getD_drop]

theorem tid_word (buf : Buf) : (pullU8 (pullLe16 buf).2).1 = buf.getD 2 0 := by
  rw [pullU8_fst, pullLe16_snd, getD_drop]

theorem tid_delta (buf : Buf) : (pullU8 (pullLe32 buf).2).1 = buf.getD 4 0 := by
  rw [pullU8_fst, pullLe32_snd, getD_drop]

theorem tid_ctl (buf : Buf) : (pullCtl buf).2.1 = buf.getD 6 0 := by
  show (pullU8 (pullLe16 (pullLe16 (pullLe16 buf).2).2).2).1 = _
  rw [pullU8_fst, pullLe16_snd, pullLe16_snd, pullLe16_snd, List.drop_drop, List.drop_drop,
    getD_drop]

theorem tid_ctlTemp (buf : Buf) : (pullCtlTemp buf).2.1 = buf.getD 4 0 := by
  show (pullU8 (pullLe16 (pullLe16 buf).2).2).1 = _
  rw [pullU8_fst, pullLe16_snd, pullLe16_snd, List.drop_drop, getD_drop]

theorem Message.accepted_of_accept (haccept : m.accept linearToActual s = some a) :
    Accepted m s a := by
  obtain ⟨request, acked, ctx, buf⟩ := m
  unfold Message.accept at haccept
  split at haccept
  · cases haccept
  · rename_i hshort
    have hlong := Nat.le_of_not_lt hshort
    cases request with
    | genOnoff => exact Accepted.of_set hlong (tid_onoff buf) (by decide) haccept
    | genLevel => exact Accepted.of_set hlong (tid_word buf) (by decide) haccept
    | genDelta =>
      refine Accepted.of_delta (.inl rfl) hlong (tid_delta buf) ?_ haccept
      cases acked <;> exact fun h => h
    | genMove =>
      exact Accepted.of_move genMove_setsDelta hlong (tid_word buf) (.inl rfl) haccept
    | genDefTransTime => cases haccept
    | genOnpowerup => cases haccept
    | lightLightness => exact Accepted.of_set hlong (tid_word buf) (by decide) haccept
    | lightLightnessLinear => exact Accepted.of_set hlong (tid_word buf) (by decide) haccept
    | lightLightnessDefault => cases haccept
    | lightLightnessRange => cases haccept
    | lightCtl => exact Accepted.of_set hlong (tid_ctl buf) (by decide) haccept
    | lightCtlDefault => cases haccept
    | lightCtlTempRange => cases haccept
    | lightCtlTemp => exact Accepted.of_set hlong (tid_ctlTemp buf) (by decide) haccept
    | genLevelTemp => exact Accepted.of_set hlong (tid_word buf) (by decide) haccept
    | genDeltaTemp =>
      refine Accepted.of_delta (.inr rfl) hlong (tid_delta buf) ?_ haccept
      cases acked <;> exact fun h => h
    | genMoveTemp =>
      exact Accepted.of_move genMoveTemp_setsDelta hlong (tid_word buf) (.inr rfl) haccept

namespace Accepted

/-- What the preamble and the setting of the targets leave of the state the message arrived in. -/
theorem state_eq (h : Accepted m s a) :
    ∃ (type : TransitionType) (tt delay : UInt8) (lastLevels : LastLevels)
      (lightTarget tempTarget : UInt16) (duvTarget : Int16) (lightDelta tempDelta : Int)
      (effects : List Effect), a.state =
        { s with
          light := { s.light with target := lightTarget, delta := lightDelta }
          temp := { s.temp with target := tempTarget, delta := tempDelta }
          duv := { s.duv with target := duvTarget }
          lastLevels := lastLevels
          lastTid := m.tid
          lastSrcAddr := m.ctx.addr
          lastDstAddr := m.ctx.recvDst
          lastMsgTimestamp := m.ctx.now
          effects := effects
          transition := { s.transition with
            counter := 0
            tt := tt
            delay := delay
            type := some type
            timer := { s.transition.timer with running := false } } } := by
  obtain ⟨type, tt, delay, lastLevels, lightDelta, tempDelta, lightTarget, tempTarget, duvTarget,
    effects, heq, _⟩ := h.begins
  exact ⟨type, tt, delay, lastLevels, lightTarget, tempTarget, duvTarget, lightDelta, tempDelta,
    effects, heq⟩

theorem counter (h : Accepted m s a) : a.state.transition.counter = 0 := by
  obtain ⟨_, _, _, _, _, _, _, _, _, _, heq⟩ := h.state_eq
  rw [heq]

theorem stopped (h : Accepted m s a) : a.state.transition.timer.running = false := by
  obtain ⟨_, _, _, _, _, _, _, _, _, _, heq⟩ := h.state_eq
  rw [heq]

theorem noTransitionQueued (h : Accepted m s a) :
    a.state.noTransitionQueued = s.noTransitionQueued := by
  obtain ⟨_, _, _, _, _, _, _, _, _, _, heq⟩ := h.state_eq
  rw [heq]

theorem othersAtRest (h : Accepted m s a) :
    a.starter.scope.OthersAtRest a.state ↔ a.starter.scope.OthersAtRest s := by
  obtain ⟨type, tt, delay, lastLevels, lightDelta, tempDelta, lightTarget, tempTarget, duvTarget,
    effects, heq, hlight, htemp, hduv⟩ := h.begins
  simp only [Scope.OthersAtRest, heq]
  refine and_congr ?_ (and_congr ?_ ?_)
  · exact forall_congr' fun hscope => by rw [hlight hscope]
  · exact forall_congr' fun hscope => by rw [htemp hscope]
  · exact forall_congr' fun hscope => by rw [hduv hscope]

end Accepted

/-- An accepted message runs the rest of its handler; being acknowledged adds only statuses. -/
theorem receive_of_some (haccept : m.accept linearToActual s = some a) :
    (receive linearToActual m s).forgetStatus = (a.finish m.ctx).forgetStatus := by
  obtain ⟨request, acked, ctx, buf⟩ := m
  unfold Message.accept at haccept
  unfold receive
  split at haccept
  · cases haccept
  · rename_i hshort
    rw [if_neg hshort]
    cases request with
    | genOnoff => exact SetHandler.handle_of_some haccept
    | genLevel => exact SetHandler.handle_of_some haccept
    | genDelta => exact DeltaHandler.handle_of_some haccept
    | genMove => exact MoveHandler.handle_of_some genMove_setsDelta haccept
    | genDefTransTime => cases haccept
    | genOnpowerup => cases haccept
    | lightLightness => exact SetHandler.handle_of_some haccept
    | lightLightnessLinear => exact SetHandler.handle_of_some haccept
    | lightLightnessDefault => cases haccept
    | lightLightnessRange => cases haccept
    | lightCtl => exact SetHandler.handle_of_some haccept
    | lightCtlDefault => cases haccept
    | lightCtlTempRange => cases haccept
    | lightCtlTemp => exact SetHandler.handle_of_some haccept
    | genLevelTemp => exact SetHandler.handle_of_some haccept
    | genDeltaTemp => exact DeltaHandler.handle_of_some haccept
    | genMoveTemp => exact MoveHandler.handle_of_some genMoveTemp_setsDelta haccept

/-! ## Messages that are not accepted -/

/-- A Range Set message that sets a range: it is long enough, and its ends pass the checks. -/
def Message.setsLightRange (m : Message) : Bool :=
  m.request = .lightLightnessRange && 4 ≤ m.buf.length && 0 < (pullRange m.buf).1 &&
    (pullRange m.buf).1 ≤ (pullRange m.buf).2

def Message.setsTempRange (m : Message) : Bool :=
  m.request = .lightCtlTempRange && 4 ≤ m.buf.length && tempMin ≤ (pullRange m.buf).1 &&
    (pullRange m.buf).1 ≤ (pullRange m.buf).2 && (pullRange m.buf).2 ≤ tempMax

def Server.setLightRange (range : UInt16 × UInt16) (s : Server) : Server :=
  { s with light := { s.light with rangeMin := range.1, rangeMax := range.2 } }

def Server.setTempRange (range : UInt16 × UInt16) (s : Server) : Server :=
  { s with temp := { s.temp with rangeMin := range.1, rangeMax := range.2 } }

theorem genDefTransTimeSetUnack_keeps (ctx : MsgCtx) (buf : Buf) (s : Server) :
    s.Keeps (genDefTransTimeSetUnack ctx buf s) := by
  unfold genDefTransTimeSetUnack Server.genDefTransTimePublish Server.publish
  dsimp only
  split
  · exact Server.Keeps.refl s
  · split
    · split <;> exact ⟨_, _, _, _, _, _, _, s.transition.rt, _, _, _, _, rfl⟩
    · exact Server.Keeps.refl s

theorem genOnpowerupSetUnack_keeps (ctx : MsgCtx) (buf : Buf) (s : Server) :
    s.Keeps (genOnpowerupSetUnack ctx buf s) := by
  unfold genOnpowerupSetUnack Server.genOnpowerupPublish Server.publish
  dsimp only
  split
  · exact Server.Keeps.refl s
  · split
    · split <;> exact ⟨_, _, _, _, _, _, _, s.transition.rt, _, _, _, _, rfl⟩
    · exact Server.Keeps.refl s

theorem lightLightnessDefaultSetUnack_keeps (ctx : MsgCtx) (buf : Buf) (s : Server) :
    s.Keeps (lightLightnessDefaultSetUnack ctx buf s) := by
  unfold lightLightnessDefaultSetUnack Server.lightLightnessDefaultPublish Server.publish
  dsimp only
  split
  · split <;> exact ⟨_, _, _, _, _, _, _, s.transition.rt, _, _, _, _, rfl⟩
  · exact Server.Keeps.refl s

theorem lightCtlDefaultSetUnack_keeps (ctx : MsgCtx) (buf : Buf) (s : Server) :
    s.Keeps (lightCtlDefaultSetUnack ctx buf s) := by
  unfold lightCtlDefaultSetUnack Server.lightCtlDefaultPublish Server.publish
  dsimp only
  split
  · exact Server.Keeps.refl s
  · split
    · split <;> exact ⟨_, _, _, _, _, _, _, s.transition.rt, _, _, _, _, rfl⟩
    · exact Server.Keeps.refl s

theorem lightLightnessRangeSetUnack_keeps (ctx : MsgCtx) (buf : Buf) (s : Server) :
    (if 0 < (pullRange buf).1 ∧ (pullRange buf).1 ≤ (pullRange buf).2 then
      s.setLightRange (pullRange buf) else s).Keeps (lightLightnessRangeSetUnack ctx buf s) := by
  unfold lightLightnessRangeSetUnack Server.lightLightnessRangePublish Server.publish pullRange
  dsimp only
  generalize (pullLe16 buf).1 = min
  generalize (pullLe16 (pullLe16 buf).2).1 = max
  by_cases hset : 0 < min ∧ min ≤ max
  · have hzero : ¬ (min = 0 || max = 0) = true := by
      have hmin := UInt16.lt_iff_toNat_lt.mp hset.1
      have hmax := UInt16.le_iff_toNat_le.mp hset.2
      simp only [Bool.or_eq_true, decide_eq_true_eq, ← UInt16.toNat_inj]
      omega
    rw [if_pos hset, if_neg hzero, if_pos hset.2]
    split
    · split <;> exact ⟨_, _, _, _, _, _, _, s.transition.rt, _, _, _, _, rfl⟩
    · rename_i hsame
      obtain ⟨rfl, rfl⟩ : s.light.rangeMin = min ∧ s.light.rangeMax = max := by simpa using hsame
      exact ⟨_, _, _, _, _, _, _, s.transition.rt, _, _, _, _, rfl⟩
  · rw [if_neg hset]
    split
    · exact Server.Keeps.refl s
    · rename_i hzero
      have hle : ¬ min ≤ max := by
        intro hle
        refine hset ⟨?_, hle⟩
        simp only [Bool.or_eq_true, decide_eq_true_eq, ← UInt16.toNat_inj] at hzero
        rw [UInt16.lt_iff_toNat_lt]
        exact Nat.pos_of_ne_zero fun h => hzero (.inl h)
      rw [if_neg hle]
      exact ⟨_, _, _, _, _, _, _, s.transition.rt, _, _, _, _, rfl⟩

theorem lightCtlTempRangeSetUnack_keeps (ctx : MsgCtx) (buf : Buf) (s : Server) :
    (if tempMin ≤ (pullRange buf).1 ∧ (pullRange buf).1 ≤ (pullRange buf).2 ∧
        (pullRange buf).2 ≤ tempMax then
      s.setTempRange (pullRange buf) else s).Keeps (lightCtlTempRangeSetUnack ctx buf s) := by
  unfold lightCtlTempRangeSetUnack Server.lightCtlTempRangePublish Server.publish pullRange
  dsimp only
  generalize (pullLe16 buf).1 = min
  generalize (pullLe16 (pullLe16 buf).2).1 = max
  by_cases hout : (min < tempMin || min > tempMax || max < tempMin || max > tempMax) = true
  · have hset : ¬ (tempMin ≤ min ∧ min ≤ max ∧ max ≤ tempMax) := by
      simp only [Bool.or_eq_true, decide_eq_true_eq, gt_iff_lt, UInt16.lt_iff_toNat_lt] at hout
      simp only [UInt16.le_iff_toNat_le]
      omega
    rw [if_neg hset, if_pos hout]
    exact Server.Keeps.refl s
  · have hin : tempMin ≤ min ∧ max ≤ tempMax := by
      simp only [Bool.or_eq_true, decide_eq_true_eq, gt_iff_lt, UInt16.lt_iff_toNat_lt] at hout
      simp only [UInt16.le_iff_toNat_le]
      omega
    rw [if_neg hout]
    by_cases hle : min ≤ max
    · rw [if_pos ⟨hin.1, hle, hin.2⟩, if_pos hle]
      split
      · split <;> exact ⟨_, _, _, _, _, _, _, s.transition.rt, _, _, _, _, rfl⟩
      · rename_i hsame
        obtain ⟨rfl, rfl⟩ : s.temp.rangeMin = min ∧ s.temp.rangeMax = max := by simpa using hsame
        exact ⟨_, _, _, _, _, _, _, s.transition.rt, _, _, _, _, rfl⟩
    · rw [if_neg fun h => hle h.2.1, if_neg hle]
      exact ⟨_, _, _, _, _, _, _, s.transition.rt, _, _, _, _, rfl⟩

/-- The ranges a message that is not accepted leaves. -/
def Message.setRanges (m : Message) (s : Server) : Server :=
  if m.setsLightRange then s.setLightRange (pullRange m.buf)
  else if m.setsTempRange then s.setTempRange (pullRange m.buf)
  else s

theorem Message.setRanges_of_short {m : Message} (hshort : m.buf.length < m.request.minLen) :
    m.setRanges s = s := by
  have hlight : m.setsLightRange = false := by
    by_cases h : m.request = .lightLightnessRange
    · rw [h] at hshort
      have hlen : ¬4 ≤ m.buf.length := Nat.not_le.mpr hshort
      simp [Message.setsLightRange, hlen]
    · simp [Message.setsLightRange, h]
  have htemp : m.setsTempRange = false := by
    by_cases h : m.request = .lightCtlTempRange
    · rw [h] at hshort
      have hlen : ¬4 ≤ m.buf.length := Nat.not_le.mpr hshort
      simp [Message.setsTempRange, hlen]
    · simp [Message.setsTempRange, h]
  simp only [Message.setRanges, hlight, htemp]
  rfl

theorem keeps_of_unack {s₁ : Server} {set setUnack : Server → Server} {acked : Bool}
    (hset : (set s).forgetStatus = (setUnack s).forgetStatus) (hkeeps : s₁.Keeps (setUnack s)) :
    s₁.Keeps (if acked then set s else setUnack s) := by
  cases acked with
  | false => exact hkeeps
  | true => exact Server.keeps_of_forgetStatus hkeeps hset

/-- A message that is not accepted sets the ranges and otherwise only stored states. -/
theorem receive_of_none (haccept : m.accept linearToActual s = none) :
    (m.setRanges s).Keeps (receive linearToActual m s) := by
  obtain ⟨request, acked, ctx, buf⟩ := m
  unfold Message.accept at haccept
  unfold receive
  split at haccept
  · rename_i hshort
    rw [if_pos hshort, Message.setRanges_of_short (m := ⟨request, acked, ctx, buf⟩) hshort]
    exact Server.Keeps.refl s
  · rename_i hshort
    rw [if_neg hshort]
    have hplain {s' : Server} (h : s'.forgetStatus = s.forgetStatus) : s.Keeps s' :=
      Server.keeps_of_forgetStatus (Server.Keeps.refl s) h
    cases request with
    | genOnoff => exact hplain (SetHandler.handle_of_none haccept)
    | genLevel => exact hplain (SetHandler.handle_of_none haccept)
    | genDelta => exact DeltaHandler.handle_of_none haccept
    | genMove => exact hplain (MoveHandler.handle_of_none haccept)
    | genDefTransTime =>
      exact keeps_of_unack (genDefTransTimeSet_forgetStatus ctx buf s)
        (genDefTransTimeSetUnack_keeps ctx buf s)
    | genOnpowerup =>
      exact keeps_of_unack (genOnpowerupSet_forgetStatus ctx buf s)
        (genOnpowerupSetUnack_keeps ctx buf s)
    | lightLightness => exact hplain (SetHandler.handle_of_none haccept)
    | lightLightnessLinear => exact hplain (SetHandler.handle_of_none haccept)
    | lightLightnessDefault =>
      exact keeps_of_unack (lightLightnessDefaultSet_forgetStatus ctx buf s)
        (lightLightnessDefaultSetUnack_keeps ctx buf s)
    | lightLightnessRange =>
      have hlong : 4 ≤ buf.length := Nat.le_of_not_lt hshort
      have hkeeps := lightLightnessRangeSetUnack_keeps ctx buf s
      refine keeps_of_unack (lightLightnessRangeSet_forgetStatus ctx buf s) ?_
      simpa [Message.setRanges, Message.setsLightRange, Message.setsTempRange, Request.setUnack,
        hlong] using hkeeps
    | lightCtl => exact hplain (SetHandler.handle_of_none haccept)
    | lightCtlDefault =>
      exact keeps_of_unack (lightCtlDefaultSet_forgetStatus ctx buf s)
        (lightCtlDefaultSetUnack_keeps ctx buf s)
    | lightCtlTempRange =>
      have hlong : 4 ≤ buf.length := Nat.le_of_not_lt hshort
      have hkeeps := lightCtlTempRangeSetUnack_keeps ctx buf s
      refine keeps_of_unack (lightCtlTempRangeSet_forgetStatus ctx buf s) ?_
      simpa [Message.setRanges, Message.setsLightRange, Message.setsTempRange, Request.setUnack,
        hlong, and_assoc] using hkeeps
    | lightCtlTemp => exact hplain (SetHandler.handle_of_none haccept)
    | genLevelTemp => exact hplain (SetHandler.handle_of_none haccept)
    | genDeltaTemp => exact DeltaHandler.handle_of_none haccept
    | genMoveTemp => exact hplain (MoveHandler.handle_of_none haccept)

theorem receive_of_isRepeat (htransaction : (m.accept linearToActual s).isSome = true)
    (hlight : m.request ≠ .genDelta) (htemp : m.request ≠ .genDeltaTemp) {now : Int} {s' : Server}
    (hrepeat : s'.isRepeat m.tid { m.ctx with now := now } = true) :
    (receive linearToActual { m with ctx := { m.ctx with now := now } } s').forgetStatus =
      s'.forgetStatus := by
  have hnone : Message.accept linearToActual s' { m with ctx := { m.ctx with now := now } } =
      none := by
    cases haccept : Message.accept linearToActual s'
      { m with ctx := { m.ctx with now := now } } with
    | none => rfl
    | some a =>
      have hfresh := (Message.accepted_of_accept haccept).fresh hlight htemp
      have hsame : Message.tid { m with ctx := { m.ctx with now := now } } = m.tid := rfl
      rw [hsame, hrepeat] at hfresh
      cases hfresh
  obtain ⟨request, acked, ctx, buf⟩ := m
  unfold Message.accept at hnone htransaction
  unfold receive
  split at htransaction
  · cases htransaction
  · rename_i hshort
    rw [if_neg hshort]
    rw [if_neg hshort] at hnone
    cases request with
    | genOnoff => exact SetHandler.handle_of_none hnone
    | genLevel => exact SetHandler.handle_of_none hnone
    | genDelta => exact absurd rfl hlight
    | genMove => exact MoveHandler.handle_of_none hnone
    | genDefTransTime => cases htransaction
    | genOnpowerup => cases htransaction
    | lightLightness => exact SetHandler.handle_of_none hnone
    | lightLightnessLinear => exact SetHandler.handle_of_none hnone
    | lightLightnessDefault => cases htransaction
    | lightLightnessRange => cases htransaction
    | lightCtl => exact SetHandler.handle_of_none hnone
    | lightCtlDefault => cases htransaction
    | lightCtlTempRange => cases htransaction
    | lightCtlTemp => exact SetHandler.handle_of_none hnone
    | genLevelTemp => exact SetHandler.handle_of_none hnone
    | genDeltaTemp => exact absurd rfl htemp
    | genMoveTemp => exact MoveHandler.handle_of_none hnone

theorem StatusReport.get_keeps (r : StatusReport) (now : Int) (s : Server) :
    s.Keeps (r.get now s) :=
  Server.keeps_of_forgetStatus (Server.Keeps.refl s) (r.get_forgetStatus now s)

theorem Query.get_keeps (q : Query) (now : Int) (s : Server) : s.Keeps (q.get now s) := by
  have hsend (op : StatusOp) (values : List Int) : s.Keeps (s.send op values) :=
    ⟨_, _, _, _, _, _, _, s.transition.rt, _, _, _, _, rfl⟩
  cases q with
  | genOnoff => exact genOnoffStatus.get_keeps now s
  | genLevel => exact genLevelStatus.get_keeps now s
  | genDefTransTime => exact hsend _ _
  | genOnpowerup => exact hsend _ _
  | lightLightness => exact lightLightnessStatus.get_keeps now s
  | lightLightnessLinear => exact lightLightnessLinearStatus.get_keeps now s
  | lightLightnessLast => exact hsend _ _
  | lightLightnessDefault => exact hsend _ _
  | lightLightnessRange => exact ⟨_, _, _, _, _, _, _, s.transition.rt, _, _, _, _, rfl⟩
  | lightCtl => exact lightCtlStatus.get_keeps now s
  | lightCtlDefault => exact hsend _ _
  | lightCtlTempRange => exact ⟨_, _, _, _, _, _, _, s.transition.rt, _, _, _, _, rfl⟩
  | lightCtlTemp => exact lightCtlTempStatus.get_keeps now s
  | genLevelTemp => exact genLevelStatusTemp.get_keeps now s

end Receive

/-! ## The rest of an accepted handler -/

def Effect.isTimerStart : Effect → Bool
  | .timerStart .. => true
  | _ => false

/-- How often the transition timer has been started. -/
def Server.timerStarts (s : Server) : ℕ := s.effects.countP Effect.isTimerStart

/-- `s'` is what a handler leaves when it goes on from `a` to a transition. -/
structure Started (a : Aim) (s' : Server) : Prop where
  lightTarget : s'.light.target = a.state.light.target
  lightRangeMin : s'.light.rangeMin = a.state.light.rangeMin
  lightRangeMax : s'.light.rangeMax = a.state.light.rangeMax
  tempTarget : s'.temp.target = a.state.temp.target
  tempRangeMin : s'.temp.rangeMin = a.state.temp.rangeMin
  tempRangeMax : s'.temp.rangeMax = a.state.temp.rangeMax
  tempCurrent : s'.temp.current = a.state.temp.current ∨ s'.temp.current = a.state.temp.target
  lastLevels : s'.lastLevels = a.state.lastLevels
  lastTid : s'.lastTid = a.state.lastTid
  lastSrcAddr : s'.lastSrcAddr = a.state.lastSrcAddr
  lastDstAddr : s'.lastDstAddr = a.state.lastDstAddr
  lastMsgTimestamp : s'.lastMsgTimestamp = a.state.lastMsgTimestamp
  type : s'.transition.type = a.state.transition.type
  tt : s'.tt = a.state.tt
  transitionTt : s'.transition.tt = a.state.transition.tt
  totalDuration : s'.transition.counter ≠ 0 →
    s'.transition.totalDuration = Transition.duration a.state.transition.tt
  justStarted : s'.transition.justStarted = true
  counter : s'.transition.counter ≠ 0 → s'.transition.counter.toNat ≤ 10 ∧
    s'.temp.current = a.state.temp.current ∧
    (a.state.transition.type ≠ some .move → a.starter.binding.movesTemp = true →
      s'.temp.delta = transitionDelta a.state.temp.current.toNat a.state.temp.target.toNat
        s'.transition.counter)
  timer : (s'.transition.timer.running = true ∧
      s'.transition.timer.handler = some a.starter.timer ∧
      (s'.transition.counter ≠ 0 → s'.transition.timer.period ≠ 0)) ∨
    (s'.noTransitionQueued = true ∧ s'.transition.timer = a.state.transition.timer)
  settled : s'.transition.counter = 0 → a.state.transition.type ≠ some .move →
    (a.starter.scope.has .light = true → s'.light.current = a.state.light.target) ∧
      (a.starter.scope.has .temp = true → s'.temp.current = a.state.temp.target)
  timerStarts : s'.transition.counter ≠ 0 → a.state.timerStarts < s'.timerStarts

/-- A transition that is not over at once starts the timer. -/
theorem startHandler_publish_of_not (r : StatusReport) (handler : TtHandler) (ctx : MsgCtx)
    {s : Server} (h : ¬ (s.transition.counter = 0 ∧ s.transition.delay = 0)) :
    ∃ rt duration published, (r.publish ctx s).startHandler handler =
      { s with
        transition := { s.transition with
          rt := rt
          timer :=
            { handler := some handler, running := true, duration := duration,
              period := s.transition.quoTt.toNat } }
        effects := s.effects ++ [.timerStart handler duration s.transition.quoTt.toNat]
        published := published } := by
  obtain ⟨published, hpublish⟩ := r.publish_eq ctx s
  obtain ⟨rt, heq⟩ := hpublish s.transition.rt s.sent
  rw [← s.withStatus_self] at heq
  rw [heq]
  exact ⟨rt, _, published, if_neg h⟩

/-- The publication and the start handler, with which every started transition ends. -/
theorem startHandler_publish (r : StatusReport) (handler : TtHandler) (ctx : MsgCtx)
    (s : Server) :
    (s.transition.counter = 0 ∧ ∃ rt leds effects published,
      (r.publish ctx s).startHandler handler =
      { s with
        transition := { s.transition with rt := rt }
        leds := leds
        effects := effects
        published := published
        reset := true
        noTransitionQueued := true }) ∨
    (∃ rt duration published, (r.publish ctx s).startHandler handler =
      { s with
        transition := { s.transition with
          rt := rt
          timer :=
            { handler := some handler, running := true, duration := duration,
              period := s.transition.quoTt.toNat } }
        effects := s.effects ++ [.timerStart handler duration s.transition.quoTt.toNat]
        published := published }) := by
  by_cases hzero : s.transition.counter = 0 ∧ s.transition.delay = 0
  · refine .inl ⟨hzero.1, ?_⟩
    obtain ⟨published, hpublish⟩ := r.publish_eq ctx s
    obtain ⟨rt, heq⟩ := hpublish s.transition.rt s.sent
    rw [← s.withStatus_self] at heq
    rw [heq]
    obtain ⟨leds, effects, hlit⟩ :=
      (({ s with published := published } : Server).withStatus rt s.sent).updateLightState_eq
    refine ⟨rt, leds, effects, published, (if_pos hzero).trans (hlit.trans ?_)⟩
    simp [Server.withStatus, hzero.1]
  · exact .inr (startHandler_publish_of_not r handler ctx hzero)

namespace Aim

variable (a : Aim) (ctx : MsgCtx)

/-- The state just before the publication: other present values and deltas, and the counters of the
transition. -/
def launched (a : Aim) (light temp : UInt16) (duv : Int16) (lightDelta tempDelta duvDelta : Int)
    (total counter quo : UInt32) : Server :=
  { a.state with
    light := { a.state.light with current := light, delta := lightDelta }
    temp := { a.state.temp with current := temp, delta := tempDelta }
    duv := { a.state.duv with current := duv, delta := duvDelta }
    transition := { a.state.transition with
      justStarted := true, totalDuration := total, counter := counter, quoTt := quo } }

theorem started_launched {light temp : UInt16} {duv : Int16} {lightDelta tempDelta duvDelta : Int}
    {total counter quo : UInt32}
    (htemp : temp = a.state.temp.current ∨ temp = a.state.temp.target)
    (hcounter : counter ≠ 0 → counter.toNat ≤ 10 ∧ temp = a.state.temp.current ∧
      (a.state.transition.type ≠ some .move → a.starter.binding.movesTemp = true →
        tempDelta = transitionDelta a.state.temp.current.toNat a.state.temp.target.toNat counter))
    (hquo : counter ≠ 0 → quo ≠ 0)
    (htotal : counter ≠ 0 → total = Transition.duration a.state.transition.tt)
    (hsettled : counter = 0 → a.state.transition.type ≠ some .move →
      (a.starter.scope.has .light = true → light = a.state.light.target) ∧
        (a.starter.scope.has .temp = true → temp = a.state.temp.target)) :
    Started a
      ((a.starter.status.publish ctx (a.launched light temp duv lightDelta tempDelta duvDelta
        total counter quo)).startHandler a.starter.timer) := by
  rcases startHandler_publish a.starter.status a.starter.timer ctx (a.launched light temp duv
    lightDelta tempDelta duvDelta total counter quo) with
    ⟨hzero, rt, leds, effects, published, heq⟩ | ⟨rt, duration, published, heq⟩
  · rw [heq]
    exact {
      lightTarget := rfl, lightRangeMin := rfl, lightRangeMax := rfl, tempTarget := rfl
      tempRangeMin := rfl, tempRangeMax := rfl, tempCurrent := htemp, lastLevels := rfl
      lastTid := rfl, lastSrcAddr := rfl, lastDstAddr := rfl, lastMsgTimestamp := rfl, type := rfl
      tt := rfl, transitionTt := rfl, totalDuration := htotal, justStarted := rfl
      counter := hcounter, timer := .inr ⟨rfl, rfl⟩, settled := hsettled
      timerStarts := fun hne => absurd hzero hne }
  · rw [heq]
    have hperiod (h : counter ≠ 0) : quo.toNat ≠ 0 := fun hzero =>
      hquo h (UInt32.toNat_inj.mp hzero)
    exact {
      lightTarget := rfl, lightRangeMin := rfl, lightRangeMax := rfl, tempTarget := rfl
      tempRangeMin := rfl, tempRangeMax := rfl, tempCurrent := htemp, lastLevels := rfl
      lastTid := rfl, lastSrcAddr := rfl, lastDstAddr := rfl, lastMsgTimestamp := rfl, type := rfl
      tt := rfl, transitionTt := rfl, totalDuration := htotal, justStarted := rfl
      counter := hcounter, timer := .inl ⟨rfl, rfl, hperiod⟩
      settled := hsettled
      timerStarts := fun _ => by
        simp [Server.timerStarts, launched, Effect.isTimerStart, List.countP_append] }

theorem goUnack_of_arrived (h : a.starter.scope.arrived a.state = true) :
    a.starter.goUnack ctx a.state = a.state :=
  if_pos h

theorem moveUnack_of_arrived (h : a.starter.scope.arrived a.state = true) :
    a.starter.moveUnack ctx a.state = a.state :=
  if_pos h

theorem goUnack_started (hcounter : a.state.transition.counter = 0)
    (harrived : a.starter.scope.arrived a.state = false) :
    Started a (a.starter.goUnack ctx a.state) := by
  have hif : ¬ a.starter.scope.arrived a.state = true := by simp [harrived]
  by_cases hsteps : a.state.transition.tt &&& 0x3F = 0
  · have heq : a.starter.goUnack ctx a.state = (a.starter.status.publish ctx
        (a.launched (if a.starter.scope.has .light then a.state.light.target
            else a.state.light.current)
          (if a.starter.scope.has .temp then a.state.temp.target else a.state.temp.current)
          (if a.starter.scope.has .duv then a.state.duv.target else a.state.duv.current)
          a.state.light.delta a.state.temp.delta a.state.duv.delta a.state.transition.totalDuration
          0 a.state.transition.quoTt)).startHandler a.starter.timer := by
      rw [Starter.goUnack, if_neg hif]
      simp only [Server.setTransitionValues_of_zero _ hsteps, if_pos hcounter, Scope.settle_eq]
      rw [launched, ← hcounter]
      rfl
    rw [heq]
    refine a.started_launched ctx ?_ (fun h => absurd rfl h) (fun h => absurd rfl h)
      (fun h => absurd rfl h) (fun _ _ => ⟨fun h => if_pos h, fun h => if_pos h⟩)
    split
    · exact .inr rfl
    · exact .inl rfl
  · obtain ⟨total, counter, quo, light, temp, duv, hvalues, hne, hle, hquo, htotal, hdelta⟩ :=
      Server.setTransitionValues_eq a.starter.binding hsteps
    have heq : a.starter.goUnack ctx a.state = (a.starter.status.publish ctx
        (a.launched a.state.light.current a.state.temp.current a.state.duv.current light temp duv
          total counter quo)).startHandler a.starter.timer := by
      rw [Starter.goUnack, if_neg hif]
      simp only [hvalues, if_neg hne]
      rfl
    rw [heq]
    exact a.started_launched ctx (.inl rfl) (fun _ => ⟨hle, rfl, hdelta⟩) (fun _ => hquo)
      (fun _ => htotal) fun hzero => absurd hzero hne

theorem moveUnack_of_zero (hcounter : a.state.transition.counter = 0)
    (hsteps : a.state.transition.tt &&& 0x3F = 0) :
    a.starter.moveUnack ctx a.state = a.state := by
  by_cases harrived : a.starter.scope.arrived a.state = true
  · exact a.moveUnack_of_arrived ctx harrived
  · rw [Starter.moveUnack, if_neg harrived]
    simp only [Server.setTransitionValues_of_zero _ hsteps, if_pos hcounter]

theorem moveUnack_started (harrived : a.starter.scope.arrived a.state = false)
    (hsteps : a.state.transition.tt &&& 0x3F ≠ 0) :
    Started a (a.starter.moveUnack ctx a.state) := by
  obtain ⟨total, counter, quo, light, temp, duv, hvalues, hne, hle, hquo, htotal, hdelta⟩ :=
    Server.setTransitionValues_eq a.starter.binding hsteps
  have heq : a.starter.moveUnack ctx a.state = (a.starter.status.publish ctx
      (a.launched a.state.light.current a.state.temp.current a.state.duv.current light temp duv
        total counter quo)).startHandler a.starter.timer := by
    rw [Starter.moveUnack, if_neg (by simp [harrived])]
    simp only [hvalues, if_neg hne]
    rfl
  rw [heq]
  exact a.started_launched ctx (.inl rfl) (fun _ => ⟨hle, rfl, hdelta⟩) (fun _ => hquo)
    (fun _ => htotal) fun hzero => absurd hzero hne

/-- The handler returns where its attributes are at their targets, and where a Move has no
transition time. -/
def returns (a : Aim) : Bool :=
  a.starter.scope.arrived a.state ||
    (a.state.transition.type = some .move && a.state.transition.tt &&& 0x3F = 0)

theorem finish_of_returns (hcounter : a.state.transition.counter = 0) (h : a.returns = true) :
    a.finish ctx = a.state := by
  unfold finish
  by_cases hmove : a.state.transition.type = some .move
  · rw [if_pos hmove]
    by_cases harrived : a.starter.scope.arrived a.state = true
    · exact a.moveUnack_of_arrived ctx harrived
    · refine a.moveUnack_of_zero ctx hcounter ?_
      simpa [returns, harrived, hmove] using h
  · rw [if_neg hmove]
    refine a.goUnack_of_arrived ctx ?_
    simpa [returns, hmove] using h

theorem finish_started (hcounter : a.state.transition.counter = 0) (h : a.returns = false) :
    Started a (a.finish ctx) := by
  have harrived : a.starter.scope.arrived a.state = false := by
    simp only [returns, Bool.or_eq_false_iff] at h
    exact h.1
  unfold finish
  by_cases hmove : a.state.transition.type = some .move
  · rw [if_pos hmove]
    refine a.moveUnack_started ctx harrived ?_
    simpa [returns, harrived, hmove] using h
  · rw [if_neg hmove]
    exact a.goUnack_started ctx hcounter harrived

end Aim

end Lighting
end ZephyrSamples
