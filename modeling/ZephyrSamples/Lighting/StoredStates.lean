import ZephyrSamples.Lighting.Accepted

/-!
# Defaults

The default transition time and the levels the Delta Set handlers remember outlive a transition.
The time is written by the Default Transition Time Set handlers, with a value they have checked, and
the levels by the Delta Set handlers.
-/

namespace ZephyrSamples
namespace Lighting

open Server

def Request.isDelta : Request → Bool
  | .genDelta | .genDeltaTemp => true
  | _ => false

/-- `s'` remembers the levels of `s`, and its default or one that is not the unknown time. -/
structure Server.KeepsDefaults (s s' : Server) : Prop where
  lastLevels : s'.lastLevels = s.lastLevels
  tt : s'.tt = s.tt ∨ s'.tt &&& 0x3F ≠ 0x3F

theorem Server.KeepsDefaults.refl (s : Server) : s.KeepsDefaults s := ⟨rfl, .inl rfl⟩

theorem Server.KeepsDefaults.of_forgetStatus {s s' s'' : Server} (h : s.KeepsDefaults s')
    (heq : s''.forgetStatus = s'.forgetStatus) : s.KeepsDefaults s'' := by
  have hforget : s.KeepsDefaults s'.forgetStatus := ⟨h.lastLevels, h.tt⟩
  rw [← heq] at hforget
  exact ⟨hforget.lastLevels, hforget.tt⟩

theorem lastLevels_of_forgetStatus {s s' : Server} (h : s'.forgetStatus = s.forgetStatus) :
    s'.lastLevels = s.lastLevels :=
  ((KeepsDefaults.refl s).of_forgetStatus h).lastLevels

section Stored

variable (ctx : MsgCtx) (buf : Buf) (s : Server)

theorem publish_defaults (op : StatusOp) (values : List Int) :
    (s.publish op values ctx).lastLevels = s.lastLevels ∧ (s.publish op values ctx).tt = s.tt := by
  unfold publish
  split <;> exact ⟨rfl, rfl⟩

theorem genDefTransTimeSetUnack_keepsDefaults :
    s.KeepsDefaults (genDefTransTimeSetUnack ctx buf s) := by
  unfold genDefTransTimeSetUnack genDefTransTimePublish
  dsimp only
  split_ifs with hunknown hother
  · exact .refl s
  · obtain ⟨hlevels, htt⟩ := publish_defaults ctx { s with tt := (pullU8 buf).1 } .genDefTransTime
      [(pullU8 buf).1.toNat]
    refine ⟨hlevels, .inr ?_⟩
    show (publish _ _ ctx _).tt &&& 0x3F ≠ 0x3F
    rw [htt]
    exact hunknown
  · exact .refl s

theorem genOnpowerupSetUnack_keepsDefaults :
    s.KeepsDefaults (genOnpowerupSetUnack ctx buf s) := by
  unfold genOnpowerupSetUnack genOnpowerupPublish
  dsimp only
  split_ifs
  · exact .refl s
  · exact ⟨(publish_defaults _ _ _ _).1, .inl (publish_defaults _ _ _ _).2⟩
  · exact .refl s

theorem lightLightnessDefaultSetUnack_keepsDefaults :
    s.KeepsDefaults (lightLightnessDefaultSetUnack ctx buf s) := by
  unfold lightLightnessDefaultSetUnack lightLightnessDefaultPublish
  dsimp only
  split_ifs
  · exact ⟨(publish_defaults _ _ _ _).1, .inl (publish_defaults _ _ _ _).2⟩
  · exact .refl s

theorem lightLightnessRangeSetUnack_keepsDefaults :
    s.KeepsDefaults (lightLightnessRangeSetUnack ctx buf s) := by
  unfold lightLightnessRangeSetUnack lightLightnessRangePublish
  dsimp only
  split_ifs
  · exact .refl s
  · exact ⟨(publish_defaults _ _ _ _).1, .inl (publish_defaults _ _ _ _).2⟩
  · exact ⟨rfl, .inl rfl⟩
  · exact ⟨rfl, .inl rfl⟩

theorem lightCtlDefaultSetUnack_keepsDefaults :
    s.KeepsDefaults (lightCtlDefaultSetUnack ctx buf s) := by
  unfold lightCtlDefaultSetUnack lightCtlDefaultPublish
  dsimp only
  split_ifs
  · exact .refl s
  · exact ⟨(publish_defaults _ _ _ _).1, .inl (publish_defaults _ _ _ _).2⟩
  · exact .refl s

theorem lightCtlTempRangeSetUnack_keepsDefaults :
    s.KeepsDefaults (lightCtlTempRangeSetUnack ctx buf s) := by
  unfold lightCtlTempRangeSetUnack lightCtlTempRangePublish
  dsimp only
  split_ifs
  · exact .refl s
  · exact ⟨(publish_defaults _ _ _ _).1, .inl (publish_defaults _ _ _ _).2⟩
  · exact ⟨rfl, .inl rfl⟩
  · exact ⟨rfl, .inl rfl⟩

end Stored

theorem keepsDefaults_of_unack {s s' : Server} {set setUnack : Server → Server} {acked : Bool}
    (heq : (set s).forgetStatus = (setUnack s).forgetStatus) (h : s.KeepsDefaults (setUnack s))
    (hs' : s' = if acked then set s else setUnack s) : s.KeepsDefaults s' := by
  subst hs'
  split
  · exact h.of_forgetStatus heq
  · exact h

/-- A message that is not accepted, unless it is a Delta Set, whose handlers keep the level before
they look at the optional fields. -/
theorem receive_keepsDefaults {linearToActual : UInt16 → UInt16} {m : Message} {s : Server}
    (hother : m.request.isDelta = false) (haccept : m.accept linearToActual s = none) :
    s.KeepsDefaults (receive linearToActual m s) := by
  have hplain {s' : Server} (h : s'.forgetStatus = s.forgetStatus) : s.KeepsDefaults s' :=
    (KeepsDefaults.refl s).of_forgetStatus h
  obtain ⟨request, acked, ctx, buf⟩ := m
  unfold Message.accept at haccept
  unfold receive
  split at haccept
  · rename_i hshort
    rw [if_pos hshort]
    exact .refl s
  · rename_i hshort
    rw [if_neg hshort]
    cases request with
    | genOnoff => exact hplain (SetHandler.handle_of_none haccept)
    | genLevel => exact hplain (SetHandler.handle_of_none haccept)
    | genDelta => cases hother
    | genMove => exact hplain (MoveHandler.handle_of_none haccept)
    | genDefTransTime =>
      exact keepsDefaults_of_unack (genDefTransTimeSet_forgetStatus ctx buf s)
        (genDefTransTimeSetUnack_keepsDefaults ctx buf s) rfl
    | genOnpowerup =>
      exact keepsDefaults_of_unack (genOnpowerupSet_forgetStatus ctx buf s)
        (genOnpowerupSetUnack_keepsDefaults ctx buf s) rfl
    | lightLightness => exact hplain (SetHandler.handle_of_none haccept)
    | lightLightnessLinear => exact hplain (SetHandler.handle_of_none haccept)
    | lightLightnessDefault =>
      exact keepsDefaults_of_unack (lightLightnessDefaultSet_forgetStatus ctx buf s)
        (lightLightnessDefaultSetUnack_keepsDefaults ctx buf s) rfl
    | lightLightnessRange =>
      exact keepsDefaults_of_unack (lightLightnessRangeSet_forgetStatus ctx buf s)
        (lightLightnessRangeSetUnack_keepsDefaults ctx buf s) rfl
    | lightCtl => exact hplain (SetHandler.handle_of_none haccept)
    | lightCtlDefault =>
      exact keepsDefaults_of_unack (lightCtlDefaultSet_forgetStatus ctx buf s)
        (lightCtlDefaultSetUnack_keepsDefaults ctx buf s) rfl
    | lightCtlTempRange =>
      exact keepsDefaults_of_unack (lightCtlTempRangeSet_forgetStatus ctx buf s)
        (lightCtlTempRangeSetUnack_keepsDefaults ctx buf s) rfl
    | lightCtlTemp => exact hplain (SetHandler.handle_of_none haccept)
    | genLevelTemp => exact hplain (SetHandler.handle_of_none haccept)
    | genDeltaTemp => cases hother
    | genMoveTemp => exact hplain (MoveHandler.handle_of_none haccept)

theorem DeltaHandler.inspect_tt (h : DeltaHandler) (ctx : MsgCtx) (buf : Buf) (s : Server) :
    (h.inspect ctx buf s).2.tt = s.tt := by
  unfold DeltaHandler.inspect
  dsimp only
  split
  · rfl
  · split <;> split <;> rfl

theorem DeltaHandler.setUnack_tt {h : DeltaHandler} {linearToActual : UInt16 → UInt16}
    {ctx : MsgCtx} {buf : Buf} {s : Server} (haccept : h.accept linearToActual ctx buf s = none) :
    (h.setUnack linearToActual ctx buf s).tt = s.tt := by
  have htt := h.inspect_tt ctx buf s
  unfold DeltaHandler.accept at haccept
  unfold DeltaHandler.setUnack
  generalize h.inspect ctx buf s = inspected at htt haccept ⊢
  obtain ⟨verdict, s'⟩ := inspected
  cases verdict with
  | ignored => exact htt
  | repeated => exact htt
  | fresh target tid tt delay => cases haccept

/-- A Delta Set that is not accepted leaves the default transition time. -/
theorem receive_tt_of_delta {linearToActual : UInt16 → UInt16} {m : Message} {s : Server}
    (hdelta : m.request.isDelta = true) (haccept : m.accept linearToActual s = none) :
    (receive linearToActual m s).tt = s.tt := by
  have hhandle {ack unack : DeltaHandler} {ctx : MsgCtx} {buf : Buf} {acked : Bool}
      (haccept : (if acked then ack else unack).accept linearToActual ctx buf s = none) :
      (if acked then ack.set linearToActual ctx buf s
        else unack.setUnack linearToActual ctx buf s).tt = s.tt := by
    cases acked with
    | false => exact DeltaHandler.setUnack_tt haccept
    | true =>
      have hunack : (ack.setUnack linearToActual ctx buf s).tt = s.tt :=
        DeltaHandler.setUnack_tt haccept
      show (ack.set linearToActual ctx buf s).forgetStatus.tt = s.tt
      rw [ack.set_forgetStatus linearToActual ctx buf s]
      exact hunack
  obtain ⟨request, acked, ctx, buf⟩ := m
  unfold Message.accept at haccept
  unfold receive
  split at haccept
  · rename_i hshort
    rw [if_pos hshort]
  · rename_i hshort
    rw [if_neg hshort]
    cases request with
    | genDelta => exact hhandle haccept
    | genDeltaTemp => exact hhandle haccept
    | _ => cases hdelta

theorem query_keepsDefaults (q : Query) (now : Int) (s : Server) :
    s.KeepsDefaults (q.get now s) := by
  have hreport (r : StatusReport) : s.KeepsDefaults (r.get now s) := by
    obtain ⟨rt, sent, heq⟩ := r.get_eq now s
    rw [heq]
    exact ⟨rfl, .inl rfl⟩
  cases q <;> first | exact hreport _ | exact ⟨rfl, .inl rfl⟩

end Lighting
end ZephyrSamples
