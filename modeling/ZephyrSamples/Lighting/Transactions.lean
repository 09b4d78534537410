import ZephyrSamples.Lighting.Quiescence

/-!
# Transactions

A message repeats the last transaction if it carries its transaction identifier, source and
destination and arrives within six seconds.  The server remembers one transaction, whatever model it
was for and whoever sent it, so a copy of a message is known as one exactly as long as no message of
another transaction has been accepted in between.
-/

namespace ZephyrSamples
namespace Lighting

/-- The message sent again. -/
def Message.copy (m : Message) (now : Int) : Message := { m with ctx := { m.ctx with now := now } }

/-- The last transaction is that of `m`, accepted when `m` was or later. -/
structure Server.LastIs (m : Message) (s : Server) : Prop where
  tid : s.lastTid = m.tid
  src : s.lastSrcAddr = m.ctx.addr
  dst : s.lastDstAddr = m.ctx.recvDst
  time : m.ctx.now ≤ s.lastMsgTimestamp

/-- The event is no message of another transaction than that of `m` that is accepted.  A message of
the same transaction comes no earlier than `m`. -/
def SameTransaction (linearToActual : UInt16 → UInt16) (m : Message) (s : Server) : Event → Prop
  | .message n => (n.accept linearToActual s).isSome = true →
      n.tid = m.tid ∧ n.ctx.addr = m.ctx.addr ∧ n.ctx.recvDst = m.ctx.recvDst ∧
        m.ctx.now ≤ n.ctx.now
  | _ => True

instance instDecidableSameTransaction (linearToActual : UInt16 → UInt16) (m : Message)
    (s : Server) : ∀ e, Decidable (SameTransaction linearToActual m s e)
  | .message n => inferInstanceAs (Decidable ((n.accept linearToActual s).isSome = true → _))
  | .query _ _ | .timerExpiry _ | .noTransitionWork => instDecidableTrue

/-! ## The transaction a step remembers -/

theorem Server.Keeps.lastIs {m : Message} {s s' : Server} (h : s.Keeps s') (hlast : s.LastIs m) :
    s'.LastIs m := by
  obtain ⟨_, _, _, _, _, _, _, _, _, _, _, _, rfl⟩ := h
  exact ⟨hlast.tid, hlast.src, hlast.dst, hlast.time⟩

theorem Server.Advances.lastIs {m : Message} {s s' : Server} (h : s.Advances s')
    (hlast : s.LastIs m) : s'.LastIs m := by
  obtain ⟨_, _, _, _, _, _, _, _, rfl⟩ := h
  exact ⟨hlast.tid, hlast.src, hlast.dst, hlast.time⟩

theorem lastIs_of_forgetStatus {m : Message} {s s' : Server} (h : s.forgetStatus = s'.forgetStatus)
    (hlast : s'.LastIs m) : s.LastIs m := by
  have hforget : s'.forgetStatus.LastIs m := ⟨hlast.tid, hlast.src, hlast.dst, hlast.time⟩
  rw [← h] at hforget
  exact ⟨hforget.tid, hforget.src, hforget.dst, hforget.time⟩

section Steps

variable {linearToActual : UInt16 → UInt16}

theorem receive_lastIs {n : Message} {s : Server} (h : (n.accept linearToActual s).isSome = true) :
    (receive linearToActual n s).LastIs n := by
  obtain ⟨a, haccept⟩ := Option.isSome_iff_exists.mp h
  have haccepted := Message.accepted_of_accept haccept
  have hstate : a.state.LastIs n := by
    obtain ⟨_, _, _, _, _, _, _, _, _, _, heq⟩ := haccepted.state_eq
    rw [heq]
    exact ⟨rfl, rfl, rfl, le_refl _⟩
  refine lastIs_of_forgetStatus (receive_of_some haccept) ?_
  cases hreturns : a.returns with
  | true =>
    rw [a.finish_of_returns n.ctx haccepted.counter hreturns]
    exact hstate
  | false =>
    have hstarted := a.finish_started n.ctx haccepted.counter hreturns
    exact {
      tid := hstarted.lastTid.trans hstate.tid
      src := hstarted.lastSrcAddr.trans hstate.src
      dst := hstarted.lastDstAddr.trans hstate.dst
      time := hstarted.lastMsgTimestamp ▸ hstate.time }

theorem step_lastIs {m : Message} (s : Server) (e : Event) (hlast : s.LastIs m)
    (hsame : SameTransaction linearToActual m s e) : (step linearToActual s e).LastIs m := by
  cases e with
  | message n =>
    show (receive linearToActual n s).LastIs m
    cases haccept : n.accept linearToActual s with
    | none =>
      refine (receive_of_none haccept).lastIs ?_
      obtain ⟨_, _, _, _, heq⟩ := n.setRanges_cases s
      rw [heq]
      exact ⟨hlast.tid, hlast.src, hlast.dst, hlast.time⟩
    | some a =>
      have hsome : (n.accept linearToActual s).isSome = true := by rw [haccept]; rfl
      have hlast' := receive_lastIs hsome
      obtain ⟨htid, hsrc, hdst, htime⟩ := hsame hsome
      exact ⟨hlast'.tid.trans htid, hlast'.src.trans hsrc, hlast'.dst.trans hdst,
        htime.trans hlast'.time⟩
  | query q now => exact (q.get_keeps now s).lastIs hlast
  | timerExpiry now =>
    show (if s.transition.timer.running then s.timerExpiry now else s).LastIs m
    split
    · exact (s.advances_timerExpiry now).lastIs hlast
    · exact hlast
  | noTransitionWork =>
    show (if s.noTransitionQueued then _ else s).LastIs m
    split
    · obtain ⟨last, leds, effects, heq⟩ := Server.noTransitionWorkHandler_eq
        { s with noTransitionQueued := false }
      rw [heq]
      exact ⟨hlast.tid, hlast.src, hlast.dst, hlast.time⟩
    · exact hlast

end Steps

theorem Server.LastIs.isRepeat {m : Message} {s : Server} (h : s.LastIs m) {now : Int}
    (hnow : now - m.ctx.now ≤ 6000) : s.isRepeat m.tid { m.ctx with now := now } = true := by
  have htime := h.time
  have hrecent : now - s.lastMsgTimestamp ≤ 6000 := by omega
  simp [Server.isRepeat, h.tid, h.src, h.dst, hrecent]

/-- Once a message is accepted, a copy of it that arrives within six seconds sends at most a
response, whatever has happened in between, if no message of another transaction was accepted. -/
theorem copy_changes_only_status (linearToActual : UInt16 → UInt16) {m : Message} {s : Server}
    (haccept : (m.accept linearToActual s).isSome = true) (hlight : m.request ≠ .genDelta)
    (htemp : m.request ≠ .genDeltaTemp) {mid : List Event}
    (hmid : Runs.Along (step linearToActual) (SameTransaction linearToActual m)
      (receive linearToActual m s) mid)
    {now : Int} (hnow : now - m.ctx.now ≤ 6000) :
    (receive linearToActual (m.copy now)
      (Runs.run (step linearToActual) (receive linearToActual m s) mid)).forgetStatus =
      (Runs.run (step linearToActual) (receive linearToActual m s) mid).forgetStatus := by
  have hlast : (Runs.run (step linearToActual) (receive linearToActual m s) mid).LastIs m :=
    Runs.Along.invariant (step linearToActual) step_lastIs (receive_lastIs haccept) hmid
  exact receive_of_isRepeat haccept hlight htemp (hlast.isRepeat hnow)

/-- Client A switches the light off. -/
def switchOff : Message where
  request := .genOnoff
  acked := false
  ctx := { addr := 0x0100, recvDst := 0x0300, now := 10000 }
  buf := [0, 1]

/-- Client B switches it on. -/
def switchOn : Message where
  request := .genOnoff
  acked := false
  ctx := { addr := 0x0200, recvDst := 0x0300, now := 10100 }
  buf := [1, 1]

theorem copy_changes_only_status_switchOff :
    (receive id (switchOff.copy 10200)
      (Runs.run (step id) (receive id switchOff bootState)
        [.noTransitionWork, .message (switchOff.copy 10100)])).forgetStatus =
      (Runs.run (step id) (receive id switchOff bootState)
        [.noTransitionWork, .message (switchOff.copy 10100)]).forgetStatus :=
  copy_changes_only_status id (by decide) (by decide) (by decide) (by decide) (by decide)

/-- Client A switches the light off over 100 ms and asks for a status. -/
def fadeOff : Message where
  request := .genOnoff
  acked := true
  ctx := { addr := 0x0100, recvDst := 0x0300, now := 10000 }
  buf := [0, 1, 1, 0]

/-- The light, its colour and the transition are as they were. -/
def Server.SameLight (s s' : Server) : Prop :=
  s'.light = s.light ∧ s'.temp = s.temp ∧ s'.duv = s.duv ∧ s'.transition = s.transition

instance (s s' : Server) : Decidable (s.SameLight s') :=
  inferInstanceAs (Decidable (_ ∧ _ ∧ _ ∧ _))

/-- A copy of A's message that arrives after B's is applied again; and an acknowledged copy writes
the remaining time of the transition it finds under way. -/
theorem copy_not_ignored :
    ¬ (Runs.run (step id) bootState [.message switchOff, .message switchOn]).SameLight
        (Runs.run (step id) bootState
          [.message switchOff, .message switchOn, .message (switchOff.copy 10200)]) ∧
      ¬ (Runs.run (step id) bootState [.message fadeOff, .timerExpiry 10000]).SameLight
        (Runs.run (step id) bootState
          [.message fadeOff, .timerExpiry 10000, .message (fadeOff.copy 10050)]) := by
  decide +kernel

end Lighting
end ZephyrSamples
