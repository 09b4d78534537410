import Mathlib.Data.List.Basic
import ZephyrSamples.Lib.Runs

/-!
# The flow control of the PS/2 sample

`mb_callback` queues the bytes of the device and wakes `to_port_60_thread`, unless
`saturate_ps2` has set `host_blocked`.  The callback runs as a whole between any two statements of
the other two.  It is still enabled behind the first statement of `saturate_ps2`, and nothing wakes
the thread for the bytes that come there. -/

namespace ZephyrSamples
namespace Ps2

open Runs

abbrev Byte := UInt8

/-- The statement of `saturate_ps2` that comes next. -/
inductive SatPc where
  | idle
  | block
  | disable
  | sleep
  | unblock
  | enable
  deriving DecidableEq, Repr

/-- The call of `to_port_60_thread` that comes next. -/
inductive ThreadPc where
  | take
  | get
  | print (data : Byte)
  deriving DecidableEq, Repr

/-- The length of `aux_to_host_queue`. -/
def queueSize : Nat := 8

/-- `delivered` are the bytes that came to `mb_callback`, and `printed` those that the thread
logged. -/
structure State where
  hostBlocked : Bool
  enabled : Bool
  queue : List Byte
  sem : Bool
  sat : SatPc
  thread : ThreadPc
  delivered : List Byte
  printed : List Byte
  deriving DecidableEq, Repr

/-- The state after `ps2_config`. -/
def init : State where
  hostBlocked := false
  enabled := true
  queue := []
  sem := false
  sat := .idle
  thread := .take
  delivered := []
  printed := []

inductive Event where
  | callback (value : Byte)
  | timer
  | saturate
  | thread
  deriving DecidableEq, Repr

/-- `k_msgq_put` without waiting, and `ps2_disable_callback` if it fails. -/
def putOrDisable (s : State) (value : Byte) : State :=
  if s.queue.length < queueSize then { s with queue := s.queue ++ [value] }
  else { s with enabled := false }

def mbCallback (s : State) (value : Byte) : State :=
  let s := { s with delivered := s.delivered ++ [value] }
  let s := putOrDisable s value
  if s.hostBlocked = false then { s with sem := true } else s

def saturatePs2 (s : State) : State :=
  match s.sat with
  | .idle => s
  | .block => { s with hostBlocked := true, sat := .disable }
  | .disable => { s with enabled := false, sat := .sleep }
  | .sleep => { s with sat := .unblock }
  | .unblock => { s with hostBlocked := false, sat := .enable }
  | .enable => { s with enabled := true, sat := .idle }

def toPort60Thread (s : State) : State :=
  match s.thread with
  -- Without a token the thread stays in `k_sem_take`.
  | .take => if s.sem then { s with sem := false, thread := .get } else s
  | .get =>
    match s.queue with
    | [] => { s with thread := .take }
    | data :: queue => { s with queue := queue, thread := .print data }
  | .print data => { s with printed := s.printed ++ [data], thread := .get }

/-- A callback that is disabled does not come, nor does the timer while `saturate_ps2` runs. -/
def step (s : State) : Event → State
  | .callback value => if s.enabled then mbCallback s value else s
  | .timer => if s.sat = .idle then { s with sat := .block } else s
  | .saturate => saturatePs2 s
  | .thread => toPort60Thread s

/-- The thread is blocked in `k_sem_take`. -/
def Waiting (s : State) : Prop := s.thread = .take ∧ s.sem = false

instance (s : State) : Decidable (Waiting s) := inferInstanceAs (Decidable (_ ∧ _))

def Quiescent (s : State) : Prop := s.hostBlocked = false ∧ s.sat = .idle ∧ Waiting s

instance (s : State) : Decidable (Quiescent s) := inferInstanceAs (Decidable (_ ∧ _))

/-- The bytes printed are the first ones delivered, and all of them when nothing is under way. -/
def Sound (s : State) : Prop :=
  (Quiescent s → s.queue = [] ∧ s.printed = s.delivered) ∧ s.printed <+: s.delivered

/-- A byte is delivered only to a queue with room for it, and while the host is blocked only to a
thread that is not waiting. -/
def Kept (s : State) : Event → Prop
  | .callback _ =>
    s.enabled = true → s.queue.length < queueSize ∧ (s.hostBlocked = true → ¬ Waiting s)
  | _ => True

/-! ## The bytes under way -/

/-- The byte that the thread has taken from the queue and not printed. -/
def State.hand (s : State) : List Byte :=
  match s.thread with
  | .print data => [data]
  | _ => []

/-- Nothing is lost, and a thread that waits has nothing to do. -/
structure Inv (s : State) : Prop where
  delivered : s.printed ++ s.hand ++ s.queue = s.delivered
  woken : s.queue ≠ [] → ¬ Waiting s

/-- How `saturate_ps2` holds the flag and the callback. -/
structure Held (s : State) : Prop where
  blocked : s.hostBlocked = true → s.sat = .disable ∨ s.sat = .sleep ∨ s.sat = .unblock
  disabled : s.sat = .sleep ∨ s.sat = .unblock ∨ s.sat = .enable → s.enabled = false

theorem inv_init : Inv init := ⟨rfl, fun h => absurd rfl h⟩

theorem held_init : Held init where
  blocked h := Bool.noConfusion h
  disabled h := by rcases h with h | h | h <;> exact SatPc.noConfusion h

theorem Inv.sound {s : State} (h : Inv s) : Sound s := by
  refine ⟨fun ⟨_, _, hwait⟩ => ?_, ?_⟩
  · have hqueue : s.queue = [] := by
      by_contra hne
      exact h.woken hne hwait
    have hhand : s.hand = [] := by rw [State.hand, hwait.1]
    refine ⟨hqueue, ?_⟩
    rw [← h.delivered, hhand, hqueue, List.append_nil, List.append_nil]
  · rw [← h.delivered, List.append_assoc]
    exact List.prefix_append _ _

/-! ## One step -/

theorem mbCallback_room {s : State} (h : s.queue.length < queueSize) (value : Byte) :
    mbCallback s value =
      { s with
        delivered := s.delivered ++ [value]
        queue := s.queue ++ [value]
        sem := s.sem || !s.hostBlocked } := by
  have hput : putOrDisable { s with delivered := s.delivered ++ [value] } value =
      { s with delivered := s.delivered ++ [value], queue := s.queue ++ [value] } := if_pos h
  rw [mbCallback, hput]
  cases s.hostBlocked <;> simp

theorem mbCallback_full {s : State} (h : ¬ s.queue.length < queueSize) (value : Byte) :
    mbCallback s value =
      { s with
        delivered := s.delivered ++ [value]
        enabled := false
        sem := s.sem || !s.hostBlocked } := by
  have hput : putOrDisable { s with delivered := s.delivered ++ [value] } value =
      { s with delivered := s.delivered ++ [value], enabled := false } := if_neg h
  rw [mbCallback, hput]
  cases s.hostBlocked <;> simp

theorem inv_callback {s : State} (h : Inv s) {value : Byte} (hroom : s.queue.length < queueSize)
    (hawake : s.hostBlocked = true → ¬ Waiting s) : Inv (mbCallback s value) := by
  rw [mbCallback_room hroom]
  refine ⟨?_, fun _ hwait => ?_⟩
  · show s.printed ++ s.hand ++ (s.queue ++ [value]) = s.delivered ++ [value]
    rw [← h.delivered, List.append_assoc _ s.queue]
  · obtain ⟨htake, hsem⟩ := hwait
    obtain ⟨hsem, hblocked⟩ := Bool.or_eq_false_iff.mp hsem
    have hblocked : s.hostBlocked = true := by simpa using hblocked
    exact hawake hblocked ⟨htake, hsem⟩

/-- What the next call of the thread does. -/
theorem toPort60Thread_cases (s : State) :
    (Waiting s ∧ toPort60Thread s = s) ∨
      (s.thread = .take ∧ toPort60Thread s = { s with sem := false, thread := .get }) ∨
      (s.thread = .get ∧ s.queue = [] ∧ toPort60Thread s = { s with thread := .take }) ∨
      (∃ data queue, s.thread = .get ∧ s.queue = data :: queue ∧
        toPort60Thread s = { s with queue := queue, thread := .print data }) ∨
      ∃ data, s.thread = .print data ∧
        toPort60Thread s = { s with printed := s.printed ++ [data], thread := .get } := by
  rw [toPort60Thread]
  cases hthread : s.thread with
  | take =>
    cases hsem : s.sem with
    | false => exact Or.inl ⟨⟨hthread, hsem⟩, if_neg Bool.false_ne_true⟩
    | true => exact Or.inr (Or.inl ⟨rfl, if_pos rfl⟩)
  | get =>
    cases hqueue : s.queue with
    | nil => exact Or.inr (Or.inr (Or.inl ⟨rfl, rfl, rfl⟩))
    | cons data queue => exact Or.inr (Or.inr (Or.inr (Or.inl ⟨data, queue, rfl, rfl, rfl⟩)))
  | print data => exact Or.inr (Or.inr (Or.inr (Or.inr ⟨data, rfl, rfl⟩)))

theorem inv_thread {s : State} (h : Inv s) : Inv (toPort60Thread s) := by
  obtain ⟨hdelivered, hwoken⟩ := h
  rcases toPort60Thread_cases s with ⟨-, hstep⟩ | ⟨hthread, hstep⟩ | ⟨hthread, hqueue, hstep⟩ |
    ⟨data, queue, hthread, hqueue, hstep⟩ | ⟨data, hthread, hstep⟩
  · rw [hstep]
    exact ⟨hdelivered, hwoken⟩
  · have hhand : s.hand = [] := by rw [State.hand, hthread]
    rw [hhand] at hdelivered
    rw [hstep]
    exact ⟨hdelivered, fun _ hwait => ThreadPc.noConfusion hwait.1⟩
  · have hhand : s.hand = [] := by rw [State.hand, hthread]
    rw [hhand] at hdelivered
    rw [hstep]
    exact ⟨hdelivered, fun hne => absurd hqueue hne⟩
  · have hhand : s.hand = [] := by rw [State.hand, hthread]
    rw [hhand, hqueue, List.append_nil] at hdelivered
    rw [hstep]
    refine ⟨?_, fun _ hwait => ThreadPc.noConfusion hwait.1⟩
    show s.printed ++ [data] ++ queue = s.delivered
    rw [← hdelivered, List.append_assoc]
    rfl
  · have hhand : s.hand = [data] := by rw [State.hand, hthread]
    rw [hhand] at hdelivered
    rw [hstep]
    refine ⟨?_, fun _ hwait => ThreadPc.noConfusion hwait.1⟩
    show s.printed ++ [data] ++ [] ++ s.queue = s.delivered
    rw [List.append_nil]
    exact hdelivered

theorem inv_saturate {s : State} (h : Inv s) : Inv (saturatePs2 s) := by
  obtain ⟨hdelivered, hwoken⟩ := h
  rw [saturatePs2]
  cases s.sat <;> exact ⟨hdelivered, hwoken⟩

theorem inv_step {s : State} {e : Event} (h : Inv s) (hkept : Kept s e) : Inv (step s e) := by
  cases e with
  | callback value =>
    rw [step]
    split
    · next henabled =>
      obtain ⟨hroom, hawake⟩ := hkept henabled
      exact inv_callback h hroom hawake
    · exact h
  | timer =>
    rw [step]
    split
    · exact ⟨h.delivered, h.woken⟩
    · exact h
  | saturate => exact inv_saturate h
  | thread => exact inv_thread h

theorem held_saturate {s : State} (h : Held s) : Held (saturatePs2 s) := by
  obtain ⟨hblocked, hdisabled⟩ := h
  rw [saturatePs2]
  cases hsat : s.sat with
  | idle => exact ⟨hblocked, hdisabled⟩
  | block =>
    exact ⟨fun _ => Or.inl rfl, fun h => by rcases h with h | h | h <;> exact SatPc.noConfusion h⟩
  | disable => exact ⟨fun _ => Or.inr (Or.inl rfl), fun _ => rfl⟩
  | sleep => exact ⟨fun _ => Or.inr (Or.inr rfl), fun _ => hdisabled (Or.inl hsat)⟩
  | unblock =>
    exact ⟨fun h => Bool.noConfusion h, fun _ => hdisabled (Or.inr (Or.inl hsat))⟩
  | enable =>
    have hfree : s.hostBlocked ≠ true := by
      intro h
      rcases hblocked h with h | h | h <;> exact SatPc.noConfusion (hsat.symm.trans h)
    exact ⟨fun h => absurd h hfree,
        fun h => by rcases h with h | h | h <;> exact SatPc.noConfusion h⟩

theorem held_step {s : State} (h : Held s) (e : Event) : Held (step s e) := by
  cases e with
  | callback value =>
    rw [step]
    split
    · by_cases hroom : s.queue.length < queueSize
      · rw [mbCallback_room hroom]
        exact ⟨h.blocked, h.disabled⟩
      · rw [mbCallback_full hroom]
        exact ⟨h.blocked, fun _ => rfl⟩
    · exact h
  | timer =>
    rw [step]
    split
    · next hidle =>
      have hfree : s.hostBlocked ≠ true := by
        intro hb
        rcases h.blocked hb with h | h | h <;> exact SatPc.noConfusion (hidle.symm.trans h)
      exact ⟨fun hb => absurd hb hfree,
        fun h => by rcases h with h | h | h <;> exact SatPc.noConfusion h⟩
    · exact h
  | saturate => exact held_saturate h
  | thread =>
    show Held (toPort60Thread s)
    rcases toPort60Thread_cases s with ⟨-, hstep⟩ | ⟨-, hstep⟩ | ⟨-, -, hstep⟩ |
      ⟨_, _, -, -, hstep⟩ | ⟨_, -, hstep⟩
    all_goals
      rw [hstep]
      exact ⟨h.blocked, h.disabled⟩

/-! ## A byte that is not kept -/

/-- A byte delivered is neither printed nor under way. -/
def Lost (s : State) : Prop :=
  s.printed.length + s.hand.length + s.queue.length < s.delivered.length

/-- Bytes are queued behind a thread that waits, and nothing can wake it until `saturate_ps2` ends.
-/
structure Stranded (s : State) : Prop where
  waiting : Waiting s
  queue : s.queue ≠ []
  running : (s.sat = .disable ∧ s.hostBlocked = true) ∨
    (s.sat = .sleep ∨ s.sat = .unblock ∨ s.sat = .enable) ∧ s.enabled = false
  freed : s.sat = .enable → s.hostBlocked = false

theorem lost_callback {s : State} (h : Lost s) (value : Byte) : Lost (mbCallback s value) := by
  unfold Lost at h
  by_cases hroom : s.queue.length < queueSize
  · rw [mbCallback_room hroom]
    show s.printed.length + s.hand.length + (s.queue ++ [value]).length <
      (s.delivered ++ [value]).length
    simp only [List.length_append, List.length_singleton]
    omega
  · rw [mbCallback_full hroom]
    show s.printed.length + s.hand.length + s.queue.length < (s.delivered ++ [value]).length
    simp only [List.length_append, List.length_singleton]
    omega

theorem lost_step {s : State} (h : Lost s) (e : Event) : Lost (step s e) := by
  cases e with
  | callback value =>
    rw [step]
    split
    · exact lost_callback h value
    · exact h
  | timer =>
    rw [step]
    split
    · exact h
    · exact h
  | saturate =>
    show Lost (saturatePs2 s)
    rw [saturatePs2]
    cases s.sat <;> exact h
  | thread =>
    show Lost (toPort60Thread s)
    unfold Lost at h
    rcases toPort60Thread_cases s with ⟨-, hstep⟩ | ⟨hthread, hstep⟩ | ⟨hthread, -, hstep⟩ |
      ⟨data, queue, hthread, hqueue, hstep⟩ | ⟨data, hthread, hstep⟩
    · rw [hstep]
      exact h
    · rw [State.hand, hthread] at h
      rw [hstep]
      exact h
    · rw [State.hand, hthread] at h
      rw [hstep]
      exact h
    · rw [State.hand, hthread, hqueue] at h
      rw [hstep]
      show s.printed.length + 1 + queue.length < s.delivered.length
      simp only [List.length_cons, List.length_nil] at h
      omega
    · rw [State.hand, hthread] at h
      rw [hstep]
      show (s.printed ++ [data]).length + 0 + s.queue.length < s.delivered.length
      simp only [List.length_append, List.length_singleton] at h ⊢
      omega

theorem stranded_saturate {s : State} (h : Stranded s) (hsound : Sound (saturatePs2 s)) :
    Stranded (saturatePs2 s) := by
  obtain ⟨hwaiting, hqueue, hrunning, hfreed⟩ := h
  rcases hrunning with ⟨hsat, hblocked⟩ | ⟨hsat | hsat | hsat, henabled⟩
  · rw [saturatePs2, hsat]
    exact ⟨hwaiting, hqueue, Or.inr ⟨Or.inl rfl, rfl⟩, fun h => SatPc.noConfusion h⟩
  · rw [saturatePs2, hsat]
    exact ⟨hwaiting, hqueue, Or.inr ⟨Or.inr (Or.inl rfl), henabled⟩, fun h => SatPc.noConfusion h⟩
  · rw [saturatePs2, hsat]
    exact ⟨hwaiting, hqueue, Or.inr ⟨Or.inr (Or.inr rfl), henabled⟩, fun _ => rfl⟩
  · -- The end of `saturate_ps2` leaves the bytes where they are, and the state is not sound.
    rw [saturatePs2, hsat] at hsound
    exact absurd (hsound.1 ⟨hfreed hsat, rfl, hwaiting⟩).1 hqueue

theorem stranded_step {s : State} (h : Stranded s) {e : Event} (hsound : Sound (step s e)) :
    Stranded (step s e) := by
  cases e with
  | callback value =>
    rw [step]
    split
    · next henabled =>
      rcases h.running with ⟨hsat, hblocked⟩ | ⟨-, hdisabled⟩
      · have hsem : (s.sem || !s.hostBlocked) = false := by
          rw [h.waiting.2, hblocked]
          rfl
        have hfreed : s.sat ≠ .enable := by
          rw [hsat]
          decide
        by_cases hroom : s.queue.length < queueSize
        · rw [mbCallback_room hroom]
          exact ⟨⟨h.waiting.1, hsem⟩, List.append_ne_nil_of_right_ne_nil _ (List.cons_ne_nil _ _),
            Or.inl ⟨hsat, hblocked⟩, fun h => absurd h hfreed⟩
        · rw [mbCallback_full hroom]
          exact ⟨⟨h.waiting.1, hsem⟩, h.queue, Or.inl ⟨hsat, hblocked⟩, fun h => absurd h hfreed⟩
      · exact absurd henabled (by rw [hdisabled]; decide)
    · exact h
  | timer =>
    have hbusy : s.sat ≠ .idle := by
      intro hidle
      rcases h.running with ⟨hsat, -⟩ | ⟨hsat | hsat | hsat, -⟩
      all_goals exact SatPc.noConfusion (hidle.symm.trans hsat)
    rw [step, if_neg hbusy]
    exact h
  | saturate => exact stranded_saturate h hsound
  | thread =>
    show Stranded (toPort60Thread s)
    have hsem : ¬ s.sem = true := by
      rw [h.waiting.2]
      decide
    have hstay : toPort60Thread s = s := by
      rw [toPort60Thread, h.waiting.1]
      exact if_neg hsem
    rw [hstay]
    exact h

theorem doomed_of_not_kept {s : State} {e : Event} (h : Inv s) (hheld : Held s)
    (hkept : ¬ Kept s e) : Lost (step s e) ∨ Stranded (step s e) := by
  cases e with
  | callback value =>
    unfold Kept at hkept
    push Not at hkept
    obtain ⟨henabled, hbad⟩ := hkept
    rw [step, if_pos henabled]
    by_cases hroom : s.queue.length < queueSize
    · obtain ⟨hblocked, hwaiting⟩ := hbad hroom
      have hsat : s.sat = .disable := by
        rcases hheld.blocked hblocked with hsat | hsat
        · exact hsat
        · have hdisabled := hheld.disabled (hsat.imp_right Or.inl)
          exact absurd henabled (by rw [hdisabled]; decide)
      have hsem : (s.sem || !s.hostBlocked) = false := by
        rw [hwaiting.2, hblocked]
        rfl
      rw [mbCallback_room hroom]
      exact Or.inr ⟨⟨hwaiting.1, hsem⟩,
        List.append_ne_nil_of_right_ne_nil _ (List.cons_ne_nil _ _), Or.inl ⟨hsat, hblocked⟩,
        fun h => SatPc.noConfusion (hsat.symm.trans h)⟩
    · refine Or.inl ?_
      rw [mbCallback_full hroom]
      show s.printed.length + s.hand.length + s.queue.length < (s.delivered ++ [value]).length
      rw [← h.delivered]
      simp only [List.length_append, List.length_singleton]
      omega
  | timer => exact absurd trivial hkept
  | saturate => exact absurd trivial hkept
  | thread => exact absurd trivial hkept

theorem not_quiescent_of_doomed {s : State} (h : Lost s ∨ Stranded s) :
    ¬ (Quiescent s ∧ Sound s) := by
  rintro ⟨hquiet, hsound⟩
  rcases h with hlost | hstranded
  · have hall := (hsound.1 hquiet).2
    unfold Lost at hlost
    rw [hall] at hlost
    omega
  · rcases hstranded.running with ⟨hsat, -⟩ | ⟨hsat | hsat | hsat, -⟩
    all_goals exact SatPc.noConfusion (hquiet.2.1.symm.trans hsat)

/-! ## Runs -/

theorem sound_of_kept {es : List Event} (h : Along step Kept init es) :
    Always step Sound init es :=
  Along.always_of_invariant step (I := Inv) (fun _ _ hs hkept => inv_step hs hkept)
    (fun _ hs => hs.sound) inv_init h

theorem kept_of_sound {es : List Event} (hquiet : Quiescent (run step init es))
    (h : Always step Sound init es) : Along step Kept init es :=
  Always.along_of_last step (I := fun s => Inv s ∧ Held s) (D := fun s => Lost s ∨ Stranded s)
    (Q := fun s => Quiescent s ∧ Sound s)
    (fun _ e hs hkept => ⟨inv_step hs.1 hkept, held_step hs.2 e⟩)
    (fun _ _ hs hkept => doomed_of_not_kept hs.1 hs.2 hkept)
    (fun _ e hD hsound => hD.imp (fun hlost => lost_step hlost e)
      fun hstranded => stranded_step hstranded hsound)
    (fun _ hD => not_quiescent_of_doomed hD) ⟨inv_init, held_init⟩ h
    ⟨hquiet, Always.last step h⟩

/-- No byte is stranded or lost when every one is delivered to a queue with room, and while the host
is blocked only to a thread that is awake; and in a run that comes to rest only then. -/
theorem sound_iff_kept (es : List Event) :
    (Along step Kept init es → Always step Sound init es) ∧
      (Quiescent (run step init es) →
        (Always step Sound init es ↔ Along step Kept init es)) :=
  ⟨sound_of_kept, fun hquiet => ⟨kept_of_sound hquiet, sound_of_kept⟩⟩

/-- A byte that comes between the first two statements of `saturate_ps2`, with the thread waiting.
-/
theorem byte_stranded : ¬ ∀ es : List Event, Always step Sound init es := by
  intro h
  have hlast := (h [.timer, .saturate, .callback 0x08, .saturate, .saturate, .saturate,
    .saturate]).last.1 ⟨rfl, rfl, rfl, rfl⟩
  have hqueue : ([0x08] : List Byte) = [] := hlast.1
  exact absurd hqueue (by decide)

end Ps2
end ZephyrSamples
