import Mathlib.Data.Fintype.Basic
import Mathlib.Data.Fintype.EquivFin
import Mathlib.Order.Fin.Basic
import ZephyrSamples.Lib.Runs
import ZephyrSamples.Philosophers.Forks

/-!
# The philosophers

`n` threads run the loop of `philosopher`, in any interleaving of its statements.  The owners of the
forks are read off the threads' places in the loop; the fork objects agree with them, and every
thread takes the lower numbered of its two forks first.
-/

namespace ZephyrSamples
namespace Philosophers

open LockTable

variable {n : Nat}

/-- The places of the loop, each under what `print_phil_state` has reported; at `eaten` the thread
has slept its eating time and has both forks still. -/
inductive Pc where
  | starving
  | holdingOneFork
  | eating
  | eaten
  | droppedOneFork
  | thinking
  deriving DecidableEq, Repr

def Pc.next : Pc → Pc
  | starving => holdingOneFork
  | holdingOneFork => eating
  | eating => eaten
  | eaten => droppedOneFork
  | droppedOneFork => thinking
  | thinking => starving

def isLastPhilosopher (id : Fin n) : Prop := id.val = n - 1

instance (id : Fin n) : Decidable (isLastPhilosopher id) :=
  inferInstanceAs (Decidable (id.val = n - 1))

theorem succ_lt_of_not_last {id : Fin n} (h : ¬ isLastPhilosopher id) : id.val + 1 < n := by
  have hlt := id.isLt
  unfold isLastPhilosopher at h
  omega

def fork1 (myId : Fin n) : Fin n :=
  if isLastPhilosopher myId then ⟨0, by have hlt := myId.isLt; omega⟩ else myId

def fork2 (myId : Fin n) : Fin n :=
  if h : isLastPhilosopher myId then myId else ⟨myId.val + 1, succ_lt_of_not_last h⟩

/-- What a thread does at a place of the loop. -/
inductive Stmt (n : Nat) where
  | take (f : Fin n)
  | drop (f : Fin n)
  | msleep
  deriving DecidableEq, Repr

def stmt (myId : Fin n) : Pc → Stmt n
  | .starving => .take (fork1 myId)
  | .holdingOneFork => .take (fork2 myId)
  | .eating => .msleep
  | .eaten => .drop (fork2 myId)
  | .droppedOneFork => .drop (fork1 myId)
  | .thinking => .msleep

/-- The threads' places and `forks[]`. -/
structure Demo (n : Nat) (L : Type) where
  pc : Fin n → Pc
  forks : Fin n → L

variable {L : Type} (FORKS : Lock (Fin n) L)

/-- `init_objects`, with every thread at the top of its loop. -/
def start : Demo n L where
  pc _ := .starving
  forks _ := FORKS.init

/-- The forks after a statement of `me`; `none` if it blocks. -/
def exec (me : Fin n) (forks : Fin n → L) : Stmt n → Option (Fin n → L)
  | .take f => (FORKS.take me (forks f)).map (Function.update forks f)
  | .drop f => some (Function.update forks f (FORKS.drop me (forks f)))
  | .msleep => some forks

/-- The scheduler lets `me` run for one statement; a thread that blocks stays where it is. -/
def step (s : Demo n L) (me : Fin n) : Demo n L :=
  match exec FORKS me s.forks (stmt me (s.pc me)) with
  | some forks => ⟨Function.update s.pc me (s.pc me).next, forks⟩
  | none => s

/-! ## Who holds what -/

/-- The forks a thread has taken and not dropped. -/
def holds (me : Fin n) : Pc → Fin n → Prop
  | .starving, _ => False
  | .holdingOneFork, f => f = fork1 me
  | .eating, f => f = fork1 me ∨ f = fork2 me
  | .eaten, f => f = fork1 me ∨ f = fork2 me
  | .droppedOneFork, f => f = fork1 me
  | .thinking, _ => False

/-- The fork a thread waits for, or is about to. -/
def wants (me : Fin n) (pc : Pc) : Option (Fin n) :=
  match stmt me pc with
  | .take f => some f
  | .drop _ => none
  | .msleep => none

def Demo.Eating (s : Demo n L) (i : Fin n) : Prop := s.pc i = .eating ∨ s.pc i = .eaten

/-- `(i + 1) mod NUM_PHIL` -/
def right (i : Fin n) : Fin n := ⟨(i.val + 1) % n, Nat.mod_lt _ (by have hlt := i.isLt; omega)⟩

/-- The next statement of a thread does not block. -/
def Demo.CanStep (s : Demo n L) (i : Fin n) : Prop :=
  (exec FORKS i s.forks (stmt i (s.pc i))).isSome

theorem fork1_lt_fork2 (hn : 2 ≤ n) (i : Fin n) : fork1 i < fork2 i := by
  by_cases hlast : isLastPhilosopher i
  · rw [fork1, fork2, if_pos hlast, dif_pos hlast, Fin.lt_def]
    unfold isLastPhilosopher at hlast
    show 0 < i.val
    omega
  · rw [fork1, fork2, if_neg hlast, dif_neg hlast, Fin.lt_def]
    show i.val < i.val + 1
    omega

theorem fork1_ne_fork2 (hn : 2 ≤ n) (i : Fin n) : fork1 i ≠ fork2 i :=
  ne_of_lt (fork1_lt_fork2 hn i)

theorem forks_at_sides (i f : Fin n) : (f = fork1 i ∨ f = fork2 i) ↔ (f = i ∨ f = right i) := by
  by_cases hlast : isLastPhilosopher i
  · have hright : right i = ⟨0, by have hlt := i.isLt; omega⟩ := by
      apply Fin.ext
      show (i.val + 1) % n = 0
      have hlt := i.isLt
      unfold isLastPhilosopher at hlast
      have hwrap : i.val + 1 = n := by omega
      rw [hwrap, Nat.mod_self]
    rw [fork1, fork2, if_pos hlast, dif_pos hlast, hright]
    exact or_comm
  · have hright : right i = ⟨i.val + 1, succ_lt_of_not_last hlast⟩ := by
      apply Fin.ext
      exact Nat.mod_eq_of_lt (succ_lt_of_not_last hlast)
    rw [fork1, fork2, if_neg hlast, dif_neg hlast, hright]

theorem right_ne (hn : 2 ≤ n) (i : Fin n) : right i ≠ i := by
  intro heq
  have hval : (i.val + 1) % n = i.val := congrArg Fin.val heq
  have hlt := i.isLt
  rcases Nat.lt_or_ge (i.val + 1) n with hin | hout
  · rw [Nat.mod_eq_of_lt hin] at hval
    omega
  · have hwrap : i.val + 1 = n := by omega
    rw [hwrap, Nat.mod_self] at hval
    omega

/-! ## What a statement does to the forks held -/

theorem holds_take {me : Fin n} {pc : Pc} {f : Fin n} (h : stmt me pc = .take f) (g : Fin n) :
    holds me pc.next g ↔ holds me pc g ∨ g = f := by
  cases pc <;> simp only [stmt, Stmt.take.injEq, reduceCtorEq] at h
  · subst h
    simp [holds, Pc.next]
  · subst h
    simp [holds, Pc.next]

theorem holds_drop {me : Fin n} {pc : Pc} {f : Fin n} (h : stmt me pc = .drop f) (g : Fin n) :
    holds me pc g ↔ holds me pc.next g ∨ g = f := by
  cases pc <;> simp only [stmt, Stmt.drop.injEq, reduceCtorEq] at h
  · subst h
    simp [holds, Pc.next]
  · subst h
    simp [holds, Pc.next]

theorem holds_msleep {me : Fin n} {pc : Pc} (h : stmt me pc = .msleep) (g : Fin n) :
    holds me pc.next g ↔ holds me pc g := by
  cases pc <;> simp only [stmt, reduceCtorEq] at h
  · simp [holds, Pc.next]
  · simp [holds, Pc.next]

theorem not_holds_taken (hn : 2 ≤ n) {me : Fin n} {pc : Pc} {f : Fin n}
    (h : stmt me pc = .take f) : ¬ holds me pc f := by
  cases pc <;> simp only [stmt, Stmt.take.injEq, reduceCtorEq] at h
  · exact not_false
  · subst h
    exact (fork1_ne_fork2 hn me).symm

theorem not_holds_dropped (hn : 2 ≤ n) {me : Fin n} {pc : Pc} {f : Fin n}
    (h : stmt me pc = .drop f) : ¬ holds me pc.next f := by
  cases pc <;> simp only [stmt, Stmt.drop.injEq, reduceCtorEq] at h
  · subst h
    exact (fork1_ne_fork2 hn me).symm
  · exact not_false

theorem holds_lt_wants (hn : 2 ≤ n) {me : Fin n} {pc : Pc} {f g : Fin n}
    (hw : wants me pc = some f) (hg : holds me pc g) : g < f := by
  cases pc <;> simp only [wants, stmt, Option.some.injEq, reduceCtorEq] at hw
  · exact absurd hg not_false
  · subst hw
    obtain rfl : g = fork1 me := hg
    exact fork1_lt_fork2 hn me

theorem wants_eq_some {me : Fin n} {pc : Pc} {f : Fin n} :
    wants me pc = some f ↔ stmt me pc = .take f := by
  cases pc <;> simp [wants, stmt]

/-! ## The table of owners -/

/-- `owner` tells who holds each fork, and the fork objects agree. -/
structure Tracks (s : Demo n L) (owner : Fin n → Option (Fin n)) : Prop where
  holds_iff : ∀ i f, owner f = some i ↔ holds i (s.pc i) f
  objects : Represents FORKS s.forks owner

theorem tracks_start : Tracks FORKS (start FORKS) fun _ => none where
  holds_iff _ _ := ⟨fun h => (nomatch h), fun h => absurd h not_false⟩
  objects := represents_init FORKS

variable {FORKS} {s : Demo n L} {owner : Fin n → Option (Fin n)}

/-- After a statement of `me` the others hold what they held. -/
theorem Tracks.move (h : Tracks FORKS s owner) {me : Fin n} {pc : Pc} {forks : Fin n → L}
    {owner' : Fin n → Option (Fin n)} (hme : ∀ f, owner' f = some me ↔ holds me pc f)
    (hother : ∀ i f, i ≠ me → (owner' f = some i ↔ owner f = some i))
    (hobj : Represents FORKS forks owner') :
    Tracks FORKS ⟨Function.update s.pc me pc, forks⟩ owner' where
  holds_iff i f := by
    show owner' f = some i ↔ holds i (Function.update s.pc me pc i) f
    rcases eq_or_ne i me with rfl | hne
    · rw [Function.update_self]
      exact hme f
    · rw [Function.update_of_ne hne, hother i f hne]
      exact h.holds_iff i f
  objects := hobj

theorem Tracks.take (hn : 2 ≤ n) (h : Tracks FORKS s owner) {me f : Fin n} {l : L}
    (hs : stmt me (s.pc me) = .take f) (hl : FORKS.take me (s.forks f) = some l) :
    Tracks FORKS ⟨Function.update s.pc me (s.pc me).next, Function.update s.forks f l⟩
      (Function.update owner f (some me)) := by
  have hnot : owner f ≠ some me := fun he =>
    not_holds_taken hn hs ((h.holds_iff me f).mp he)
  obtain ⟨hfree, hrep⟩ := FORKS.rep_take (h.objects f) hnot hl
  refine h.move (fun g => ?_) (fun i g hi => ?_) (h.objects.update f hrep)
  · rw [holds_take hs, ← h.holds_iff]
    rcases eq_or_ne g f with rfl | hg
    · simp
    · simp [hg]
  · rcases eq_or_ne g f with rfl | hg
    · simp [hfree, hi.symm]
    · simp [hg]

theorem Tracks.drop (hn : 2 ≤ n) (h : Tracks FORKS s owner) {me f : Fin n}
    (hs : stmt me (s.pc me) = .drop f) :
    Tracks FORKS ⟨Function.update s.pc me (s.pc me).next,
      Function.update s.forks f (FORKS.drop me (s.forks f))⟩ (Function.update owner f none) := by
  have hmine : owner f = some me := (h.holds_iff me f).mpr ((holds_drop hs f).mpr (.inr rfl))
  have hrep : FORKS.Rep (s.forks f) (some me) := hmine ▸ h.objects f
  refine h.move (fun g => ?_) (fun i g hi => ?_) (h.objects.update f (FORKS.rep_drop hrep))
  · rcases eq_or_ne g f with rfl | hg
    · simp [not_holds_dropped hn hs]
    · simp [hg, h.holds_iff, holds_drop hs]
  · rcases eq_or_ne g f with rfl | hg
    · simp [hmine, hi.symm]
    · simp [hg]

theorem Tracks.msleep (h : Tracks FORKS s owner) {me : Fin n}
    (hs : stmt me (s.pc me) = .msleep) :
    Tracks FORKS ⟨Function.update s.pc me (s.pc me).next, s.forks⟩ owner :=
  h.move (fun f => (h.holds_iff me f).trans (holds_msleep hs f).symm) (fun _ _ _ => Iff.rfl)
    h.objects

theorem Tracks.step (hn : 2 ≤ n) (h : Tracks FORKS s owner) (me : Fin n) :
    ∃ owner', Tracks FORKS (step FORKS s me) owner' := by
  unfold Philosophers.step
  cases hs : stmt me (s.pc me) with
  | take f =>
    cases hl : FORKS.take me (s.forks f) with
    | some l =>
      rw [exec, hl]
      exact ⟨_, h.take hn hs hl⟩
    | none =>
      rw [exec, hl]
      exact ⟨_, h⟩
  | drop f => exact ⟨_, h.drop hn hs⟩
  | msleep => exact ⟨_, h.msleep hs⟩

/-- A thread that cannot go on waits for a fork that some thread holds. -/
theorem Tracks.blocked (h : Tracks FORKS s owner) {i : Fin n} (hi : ¬ s.CanStep FORKS i) :
    ∃ f j, wants i (s.pc i) = some f ∧ owner f = some j := by
  unfold Demo.CanStep at hi
  cases hs : stmt i (s.pc i) with
  | take f =>
    rw [hs, exec, Option.isSome_map, Option.not_isSome_iff_eq_none] at hi
    obtain ⟨j, hj⟩ := FORKS.rep_blocked (h.objects f) hi
    exact ⟨f, j, wants_eq_some.mpr hs, hj⟩
  | drop f => exact absurd (by rw [hs]; rfl) hi
  | msleep => exact absurd (by rw [hs]; rfl) hi

theorem Tracks.ascending (hn : 2 ≤ n) (h : Tracks FORKS s owner) :
    Ascending owner fun i => wants i (s.pc i) :=
  fun i _ g hw hg => holds_lt_wants hn hw ((h.holds_iff i g).mp hg)

/-! ## Every state of every run -/

variable (FORKS) in
/-- No fork has two holders, eating takes the two forks at one's sides, and the threads are never
stuck. -/
structure Orderly (s : Demo n L) : Prop where
  one_holder : ∀ f i j, holds i (s.pc i) f → holds j (s.pc j) f → i = j
  eating_holds : ∀ i, s.Eating i → ∀ f, holds i (s.pc i) f ↔ f = i ∨ f = right i
  neighbours : ∀ i, ¬ (s.Eating i ∧ s.Eating (right i))
  no_cycle : ∀ S : Set (Fin n), S.Nonempty →
    ¬ ∀ i ∈ S, ∃ f, wants i (s.pc i) = some f ∧ ∃ j ∈ S, holds j (s.pc j) f
  progress : ∃ i, s.CanStep FORKS i

theorem eating_holds_iff {i : Fin n} (h : s.Eating i) (f : Fin n) :
    holds i (s.pc i) f ↔ f = i ∨ f = right i := by
  rw [← forks_at_sides]
  rcases h with heat | heat
  · rw [heat]
    exact Iff.rfl
  · rw [heat]
    exact Iff.rfl

theorem Tracks.orderly (hn : 2 ≤ n) (h : Tracks FORKS s owner) : Orderly FORKS s := by
  have hone : ∀ f i j, holds i (s.pc i) f → holds j (s.pc j) f → i = j := by
    intro f i j hi hj
    have hi' := (h.holds_iff i f).mpr hi
    have hj' := (h.holds_iff j f).mpr hj
    exact Option.some_injective _ (hi'.symm.trans hj')
  refine ⟨hone, fun i hi => eating_holds_iff hi, ?_, ?_, ?_⟩
  · rintro i ⟨hi, hr⟩
    have hmine : holds i (s.pc i) (right i) := (eating_holds_iff hi _).mpr (.inr rfl)
    have hhers : holds (right i) (s.pc (right i)) (right i) :=
      (eating_holds_iff hr _).mpr (.inl rfl)
    exact right_ne hn i (hone _ _ _ hhers hmine)
  · intro S hS hcycle
    refine (h.ascending hn).not_stuck hS fun i hi => ?_
    obtain ⟨f, hf, j, hj, hheld⟩ := hcycle i hi
    exact ⟨f, hf, j, hj, (h.holds_iff j f).mpr hheld⟩
  · have : Nonempty (Fin n) := ⟨⟨0, by omega⟩⟩
    exact (h.ascending hn).exists_runnable fun i hi => h.blocked hi

/-- For every number of philosophers and every interleaving. -/
theorem philosophers_orderly (hn : 2 ≤ n) (FORKS : ForkType) (schedule : List (Fin n)) :
    Runs.Always (step (FORKS.lock (Fin n))) (Orderly (FORKS.lock (Fin n)))
      (start (FORKS.lock (Fin n))) schedule :=
  Runs.always_of_invariant (step (FORKS.lock (Fin n)))
    (I := fun s => ∃ owner, Tracks (FORKS.lock (Fin n)) s owner)
    (fun _ me ⟨_, h⟩ => h.step hn me) (fun _ ⟨_, h⟩ => h.orderly hn)
    ⟨_, tracks_start _⟩ schedule

theorem philosophers_orderly_six :
    2 ≤ 6 ∧ Runs.Always (step (ForkType.mutexes.lock (Fin 6)))
      (Orderly (ForkType.mutexes.lock (Fin 6))) (start (ForkType.mutexes.lock (Fin 6)))
      [0, 0, 5, 1, 0] :=
  ⟨by decide, philosophers_orderly (by decide) .mutexes _⟩

end Philosophers
end ZephyrSamples
