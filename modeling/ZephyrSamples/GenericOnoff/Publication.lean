import ZephyrSamples.GenericOnoff.Server
import ZephyrSamples.Lib.Runs

/-!
# Publication on a change of state

A server is to publish its state when a Set changes it while a publish address is assigned.  Both
servers compare the new state with the one they published last, which a change made without a
publish address leaves behind.  So they publish when they are to exactly as long as every Set that
arrives with a publish address finds the state that the last such Set left.
-/

namespace ZephyrSamples
namespace GenericOnoff

open Runs

/-! ## The two servers -/

/-- A Set, acknowledged or not, of a valid state. -/
structure Command where
  acked : Bool
  msg : SetMsg
  valid : msg.onoff ≤ 1

/-- A command arrives, or the publish address is assigned or unassigned. -/
inductive Event where
  | set (cmd : Command)
  | publishTo (addr : UInt16)

/-- What there is to know of a server: the state that it has and what it makes of a command, with
the status it publishes. -/
structure Model (σ : Type) where
  start : σ
  current : σ → Byte
  handle : UInt16 → Command → σ → σ × Option Byte

/-- The server of the mesh onoff sample. -/
def App.model : Model OnoffState where
  start := {}
  current := OnoffState.current
  handle pubAddr cmd s :=
    if cmd.acked then
      let (s, published, _) := genOnoffSet pubAddr cmd.msg s
      (s, published)
    else genOnoffSetUnack pubAddr cmd.msg s

/-- The server of the mesh badge, whose LED can be set. -/
def Badge.model : Model LedOnoffState where
  start := {}
  current := LedOnoffState.current
  handle pubAddr cmd s :=
    if cmd.acked then
      let (handled, _) := genOnoffSet pubAddr true cmd.msg s
      (handled.state, handled.published)
    else
      let handled := genOnoffSetUnack pubAddr true cmd.msg s
      (handled.state, handled.published)

/-- A server and `model->pub->addr`. -/
structure Server (σ : Type) where
  state : σ
  pubAddr : UInt16 := unassigned

section

variable {σ : Type} (m : Model σ)

def step (s : Server σ) : Event → Server σ
  | .set cmd => { s with state := (m.handle s.pubAddr cmd s.state).1 }
  | .publishTo addr => { s with pubAddr := addr }

/-- A command publishes the new state if it changes the state and a publish address is assigned, and
nothing otherwise. -/
def PublishesRight (s : Server σ) : Event → Prop
  | .set cmd =>
    (m.handle s.pubAddr cmd s.state).2 =
      if m.current s.state ≠ cmd.msg.onoff ∧ s.pubAddr ≠ unassigned then some cmd.msg.onoff
      else none
  | .publishTo _ => True

end

/-! ## The history of the commands -/

/-- The state that was set last, the one that was set last with a publish address, and whether there
is one now. -/
structure History where
  value : Byte := 0
  heard : Byte := 0
  assigned : Bool := false
  deriving DecidableEq

def History.step (h : History) : Event → History
  | .set cmd =>
    { h with value := cmd.msg.onoff, heard := if h.assigned then cmd.msg.onoff else h.heard }
  | .publishTo addr => { h with assigned := addr ≠ unassigned }

/-- A command that finds a publish address finds the state that the last such command set. -/
def History.Steady (h : History) : Event → Prop
  | .set _ => h.assigned = true → h.heard = h.value
  | .publishTo _ => True

/-- The server sets the state it is told, and keeps in `previous` what it published last. -/
structure Remembers {σ : Type} (m : Model σ) (previous : σ → Byte) : Prop where
  start_current : m.current m.start = 0
  start_previous : previous m.start = 0
  sets : ∀ a cmd s, m.current (m.handle a cmd s).1 = cmd.msg.onoff
  keeps : ∀ a cmd s,
    previous (m.handle a cmd s).1 = (publishOnChange (previous s) cmd.msg.onoff a).1
  publishes : ∀ a cmd s,
    (m.handle a cmd s).2 = (publishOnChange (previous s) cmd.msg.onoff a).2

theorem app_remembers : Remembers App.model App.OnoffState.previous := by
  refine ⟨rfl, rfl, fun a cmd s => ?_, fun a cmd s => ?_, fun a cmd s => ?_⟩
  all_goals
    obtain ⟨acked, msg, hvalid⟩ := cmd
    cases acked <;> rfl

theorem badge_handle (a : UInt16) (cmd : Command) (s : Badge.LedOnoffState) :
    Badge.model.handle a cmd s =
      ({ current := cmd.msg.onoff
         previous := (publishOnChange s.previous cmd.msg.onoff a).1
         lastTid := cmd.msg.tid
         lastTxAddr := cmd.msg.addr
         lastMsgTimestamp := cmd.msg.now },
        (publishOnChange s.previous cmd.msg.onoff a).2) := by
  obtain ⟨acked, msg, hvalid⟩ := cmd
  have hon : ¬ Badge.stateOn < msg.onoff := UInt8.not_lt.mpr hvalid
  cases acked <;>
    simp only [Badge.model, Badge.genOnoffSet, Badge.genOnoffSetUnack, if_neg hon, if_true,
      Bool.false_eq_true, if_false]

theorem badge_remembers : Remembers Badge.model Badge.LedOnoffState.previous := by
  refine ⟨rfl, rfl, fun a cmd s => ?_, fun a cmd s => ?_, fun a cmd s => ?_⟩
  all_goals rw [badge_handle]
  rfl

/-! ## When they publish right -/

theorem eq_zero_or_one {b : Byte} (h : b ≤ 1) : b = 0 ∨ b = 1 := by
  have hle : b.toNat ≤ 1 := UInt8.le_iff_toNat_le.mp h
  rcases Nat.le_one_iff_eq_zero_or_eq_one.mp hle with h0 | h1
  · exact Or.inl (UInt8.toNat_inj.mp h0)
  · exact Or.inr (UInt8.toNat_inj.mp h1)

/-- Comparing with what was published last is comparing with the state, if these are the same. -/
theorem publishOnChange_right_iff {previous current onoff : Byte} (hprevious : previous ≤ 1)
    (hcurrent : current ≤ 1) (honoff : onoff ≤ 1) (a : UInt16) :
    (publishOnChange previous onoff a).2 =
        (if current ≠ onoff ∧ a ≠ unassigned then some onoff else none) ↔
      (a ≠ unassigned → previous = current) := by
  by_cases ha : a = unassigned
  · simp [publishOnChange, ha]
  · rcases eq_zero_or_one hprevious with rfl | rfl <;>
      rcases eq_zero_or_one hcurrent with rfl | rfl <;>
      rcases eq_zero_or_one honoff with rfl | rfl <;>
      simp [publishOnChange, ha]

section

variable {σ : Type} {m : Model σ} {previous : σ → Byte}

/-- The history that a server goes by. -/
def historyOf (m : Model σ) (previous : σ → Byte) (s : Server σ) : History :=
  { value := m.current s.state, heard := previous s.state, assigned := s.pubAddr ≠ unassigned }

theorem historyOf_step (h : Remembers m previous) (s : Server σ) (e : Event) :
    historyOf m previous (step m s e) = (historyOf m previous s).step e := by
  cases e with
  | publishTo addr => rfl
  | set cmd =>
    by_cases ha : s.pubAddr = unassigned
    · have hheard : (publishOnChange (previous s.state) cmd.msg.onoff unassigned).1 =
          previous s.state := by simp [publishOnChange]
      simp [historyOf, step, History.step, h.sets, h.keeps, ha, hheard]
    · have hheard : (publishOnChange (previous s.state) cmd.msg.onoff s.pubAddr).1 =
          cmd.msg.onoff := by
        by_cases hsame : previous s.state = cmd.msg.onoff <;> simp [publishOnChange, hsame, ha]
      simp [historyOf, step, History.step, h.sets, h.keeps, ha, hheard]

theorem publishesRight_iff (h : Remembers m previous) {s : Server σ}
    (hcurrent : m.current s.state ≤ 1) (hprevious : previous s.state ≤ 1) (e : Event) :
    PublishesRight m s e ↔ (historyOf m previous s).Steady e := by
  cases e with
  | publishTo addr => exact Iff.rfl
  | set cmd =>
    show (m.handle s.pubAddr cmd s.state).2 = _ ↔ _
    rw [h.publishes, publishOnChange_right_iff hprevious hcurrent cmd.valid]
    simp only [History.Steady, historyOf, decide_eq_true_eq]

/-- The states of a history are valid. -/
def History.Valid (h : History) : Prop := h.value ≤ 1 ∧ h.heard ≤ 1

theorem History.Valid.step {h : History} (hvalid : h.Valid) (e : Event) : (h.step e).Valid := by
  cases e with
  | publishTo addr => exact hvalid
  | set cmd =>
    refine ⟨cmd.valid, ?_⟩
    show (if h.assigned then cmd.msg.onoff else h.heard) ≤ 1
    split
    · exact cmd.valid
    · exact hvalid.2

theorem along_publishesRight_iff (h : Remembers m previous) (es : List Event) :
    Along (step m) (PublishesRight m) { state := m.start } es ↔
      Along History.step History.Steady {} es := by
  have hstart : historyOf m previous { state := m.start } = {} := by
    rw [historyOf, h.start_current, h.start_previous]
    rfl
  have hkept (s : Server σ) (e : Event) (hs : (historyOf m previous s).Valid) :
      (historyOf m previous (step m s e)).Valid := by
    rw [historyOf_step h]
    exact hs.step e
  have hright : Along (step m) (PublishesRight m) { state := m.start } es ↔
      Along (step m) (fun s e => (historyOf m previous s).Steady e) { state := m.start } es := by
    refine along_iff_of_invariant _ (H := fun _ _ => True)
      (I := fun s => (historyOf m previous s).Valid) (fun s e hs _ _ => hkept s e hs)
      (fun s e hs _ => publishesRight_iff h hs.1 hs.2 e) ?_ (along_of_forall _ fun _ _ _ => trivial)
    rw [hstart]
    exact ⟨by decide, by decide⟩
  rw [hright, along_map _ (historyOf_step h) History.Steady, hstart]

end

/-- Both servers publish what they are to, exactly when every Set that arrives with a publish
address finds the state that the last such Set left, or no state was set since the start. -/
theorem publishes_iff_steady (es : List Event) :
    (Along (step App.model) (PublishesRight App.model) { state := App.model.start } es ↔
        Along History.step History.Steady {} es) ∧
      (Along (step Badge.model) (PublishesRight Badge.model) { state := Badge.model.start } es ↔
        Along History.step History.Steady {} es) :=
  ⟨along_publishesRight_iff app_remembers es, along_publishesRight_iff badge_remembers es⟩

/-- On without a publish address, then off with one: neither server publishes the change. -/
def offAfterUnheardOn : List Event :=
  [.set ⟨false, ⟨1, 0, 0x0001, 1000⟩, by decide⟩, .publishTo 0xC000,
    .set ⟨false, ⟨0, 1, 0x0001, 2000⟩, by decide⟩]

theorem off_not_published :
    ¬ Along (step App.model) (PublishesRight App.model) { state := App.model.start }
        offAfterUnheardOn ∧
      ¬ Along (step Badge.model) (PublishesRight Badge.model) { state := Badge.model.start }
        offAfterUnheardOn := by
  constructor
  · rintro ⟨-, -, hoff, -⟩
    have hpublished : (none : Option Byte) = some 0 := hoff
    exact nomatch hpublished
  · rintro ⟨-, -, hoff, -⟩
    have hpublished : (none : Option Byte) = some 0 := hoff
    exact nomatch hpublished

end GenericOnoff
end ZephyrSamples
