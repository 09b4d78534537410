import ZephyrSamples.CoapServer.Actions
import ZephyrSamples.Lib.Runs

/-!
# Who frees the message buffers of the CoAP server

Between events every block that `k_malloc` returned is to be freed, once, or to be the data of one
entry of `pendings` in use.  Each handler but `largeGet` keeps this, whatever its calls return,
and so do acknowledgements and both work items; `largeGet` loses its block exactly when its
`coap_packet_init` fails.
-/

namespace ZephyrSamples
namespace CoapServer

open Runs

variable {P O A : Type} (lib : CoapLib P O A)

/-- The number of entries in use whose data is a block. -/
def held (ps : List P) (b : Nat) : Nat :=
  ps.countP fun p => lib.inUse p && lib.data p == b

/-- Every block is freed once, or the data of one entry of `pendings` in use. -/
def Owned (s : Server P O) : Prop := s.heap.Accounted (held lib s.pendings)

instance (s : Server P O) : Decidable (Owned lib s) :=
  inferInstanceAs (Decidable (s.heap.Accounted _))

/-- Only blocks that `k_malloc` returned are freed or the data of an entry in use. -/
def Tidy (s : Server P O) : Prop := s.heap.Wf (held lib s.pendings)

/-! ## Entries of `pendings` -/

/-- Replacing an entry changes the count by what the two entries add to it. -/
theorem held_set {ps : List P} {i : Nat} {p : P} (hi : ps[i]? = some p) (q : P) (b : Nat) :
    held lib (ps.set i q) b + (if lib.inUse p && lib.data p == b then 1 else 0) =
      held lib ps b + if lib.inUse q && lib.data q == b then 1 else 0 := by
  obtain ⟨hlt, rfl⟩ := List.getElem?_eq_some_iff.mp hi
  have hset := @List.countP_set _ (fun p => lib.inUse p && lib.data p == b) ps i q hlt
  have hle := @List.boole_getElem_le_countP _ (fun p => lib.inUse p && lib.data p == b) ps i hlt
  simp only [held]
  omega

variable {lib}

theorem held_set_unused {ps : List P} {i : Nat} {p q : P} (hi : ps[i]? = some p)
    (hp : lib.inUse p = false) (hq : lib.inUse q = false) :
    held lib (ps.set i q) = held lib ps := by
  funext b
  have hset := held_set lib hi q b
  simpa [hp, hq] using hset

theorem held_set_used {ps : List P} {i : Nat} {p q : P} (hi : ps[i]? = some p)
    (hp : lib.inUse p = false) (hq : lib.inUse q = true) (b : Nat) :
    held lib (ps.set i q) b = held lib ps b + if b = lib.data q then 1 else 0 := by
  have hset := held_set lib hi q b
  rw [hp, hq, Bool.false_and, Bool.true_and, if_neg Bool.false_ne_true, Nat.add_zero] at hset
  rw [hset]
  by_cases hb : b = lib.data q
  · rw [if_pos hb, if_pos (beq_iff_eq.mpr hb.symm)]
  · rw [if_neg hb, if_neg fun h => hb (beq_iff_eq.mp h).symm]

/-! ## Operations that keep the blocks accounted for -/

variable (lib) in
/-- What an operation may do to the heap and to `pendings`. -/
structure Keeps (s s' : Server P O) : Prop where
  tidy : Tidy lib s → Tidy lib s'
  owned : Tidy lib s → Owned lib s → Owned lib s'

variable {s s' s'' : Server P O}

namespace Keeps

theorem rfl (s : Server P O) : Keeps lib s s := ⟨id, fun _ => id⟩

theorem trans (h : Keeps lib s s') (h' : Keeps lib s' s'') : Keeps lib s s'' where
  tidy := fun htidy => h'.tidy (h.tidy htidy)
  owned := fun htidy howned => h'.owned (h.tidy htidy) (h.owned htidy howned)

theorem of_eq (hheap : s'.heap = s.heap) (hheld : held lib s'.pendings = held lib s.pendings) :
    Keeps lib s s' := by
  constructor
  · intro htidy
    rw [Tidy, hheap, hheld]
    exact htidy
  · intro _ howned
    rw [Owned, hheap, hheld]
    exact howned

theorem of_alloc_free (hheap : s'.heap = s.heap.alloc.2.free s.heap.alloc.1)
    (hheld : held lib s'.pendings = held lib s.pendings) : Keeps lib s s' := by
  constructor
  · intro htidy
    rw [Tidy, hheap, hheld]
    exact Heap.Wf.free (Heap.Wf.alloc htidy) (Nat.lt_succ_self _)
  · intro htidy howned
    rw [Owned, hheap, hheld]
    exact Heap.Accounted.alloc_free howned htidy

theorem of_alloc_hold (hheap : s'.heap = s.heap.alloc.2)
    (hheld : ∀ b, held lib s'.pendings b =
      held lib s.pendings b + if b = s.heap.blocks then 1 else 0) : Keeps lib s s' := by
  constructor
  · intro htidy
    rw [Tidy, hheap]
    refine Heap.Wf.mono (Heap.Wf.alloc htidy) fun b hb => ?_
    rw [hheld b] at hb
    rw [Heap.alloc_blocks]
    by_cases hfresh : b = s.heap.blocks
    · omega
    · rw [if_neg hfresh, Nat.add_zero] at hb
      have hlt := htidy.held_lt b hb
      omega
  · intro htidy howned
    rw [Owned, hheap]
    exact Heap.Accounted.alloc_hold howned htidy hheld

theorem dropPending {i : Nat} {p q : P} (hi : s.pendings[i]? = some p) (hp : lib.inUse p = true)
    (hdata : lib.data q = lib.data p) : Keeps lib s (dropPending lib s i q) := by
  have hheld : ∀ b, held lib (s.pendings.set i (lib.pendingClear q)) b +
      (if lib.data p = b then 1 else 0) = held lib s.pendings b := by
    intro b
    have hset := held_set lib hi (lib.pendingClear q) b
    simpa [hp, lib.clear_unused] using hset
  have hself := hheld (lib.data p)
  rw [if_pos (Eq.refl _)] at hself
  constructor
  · intro htidy
    have hlt : lib.data q < s.heap.blocks := by
      rw [hdata]
      exact htidy.held_lt _ (by omega)
    refine Heap.Wf.mono (Heap.Wf.free htidy hlt) fun b hb => ?_
    have hb' := hheld b
    exact htidy.held_lt b (by simp only [CoapServer.dropPending] at hb; omega)
  · intro _ howned
    refine Heap.Accounted.free_held howned ?_ fun b hb => ?_
    · rw [hdata]
      exact hself.symm
    · have hb' := hheld b
      rw [hdata] at hb
      rw [if_neg (Ne.symm hb)] at hb'
      exact hb'

end Keeps

/-! ## Runs -/

/-- What an event does keeps the blocks accounted for. -/
theorem Act.keeps (h : Act lib s s') : Keeps lib s s' := by
  induction h with
  | silent hheap hpendings hwork => exact Keeps.of_eq hheap (congrArg (held lib) hpendings)
  | reply hheap hpendings hwork => exact Keeps.of_alloc_free hheap (congrArg (held lib) hpendings)
  | refused hi hp hq hheap hpendings hwork =>
    refine Keeps.of_alloc_free hheap ?_
    rw [hpendings, held_set_unused hi hp hq]
  | pending hi hp hq hdata hheap hpendings hwork =>
    refine Keeps.of_alloc_hold hheap fun b => ?_
    rw [hpendings, held_set_used hi hp hq, hdata]
  | acknowledged hi hp => exact Keeps.dropPending hi hp (Eq.refl _)
  | trans h h' ih ih' => exact ih.trans ih'

theorem retransmitRequest_keeps (s : Server P O) : Keeps lib s (retransmitRequest lib s) := by
  have hsilent : Keeps lib s { s with retransmitWork := none } := Keeps.of_eq rfl rfl
  rcases retransmitRequest_cases lib s with
    ⟨hstep, _⟩ | ⟨i, p, _, hi, hp, ⟨hagain, hstep⟩ | ⟨_, hstep⟩⟩
  · rw [hstep]
    exact hsilent
  · rw [hstep]
    refine Keeps.of_eq rfl (funext fun b => ?_)
    have hset := held_set lib hi (lib.pendingCycle p).1 b
    rw [lib.cycle_again p hagain, lib.cycle_data, hp] at hset
    exact Nat.add_right_cancel hset
  · rw [hstep]
    exact hsilent.trans (Keeps.dropPending hi hp (lib.cycle_data p))

theorem step_keeps (s : Server P O) {e : Event A} (h : ¬ Leaks lib s e) :
    Keeps lib s (step lib s e) := by
  rcases step_cases lib s e with ⟨_, _, hact⟩ | ⟨hleaks, _⟩ | ⟨_, _, hstep⟩
  · exact hact.keeps
  · exact absurd hleaks h
  · rw [hstep]
    exact retransmitRequest_keeps s

theorem step_leaks (s : Server P O) {e : Event A} (h : Leaks lib s e) :
    step lib s e = { s with heap := s.heap.alloc.2 } := by
  rcases step_cases lib s e with ⟨hkeeps, _⟩ | ⟨_, _, hstep⟩ | ⟨hkeeps, _⟩
  · exact absurd h hkeeps
  · exact hstep
  · exact absurd h hkeeps

theorem step_tidy (s : Server P O) (e : Event A) (htidy : Tidy lib s) :
    Tidy lib (step lib s e) := by
  by_cases h : Leaks lib s e
  · rw [step_leaks s h]
    exact Heap.Wf.alloc htidy
  · exact (step_keeps s h).tidy htidy

theorem boot_tidy : Tidy lib (boot lib) := by
  constructor
  · intro b hb
    cases hb
  · intro b hb
    refine absurd ?_ hb
    simp [boot, held, lib.zero_unused]

/-- In every run the blocks are all accounted for exactly when no request makes `largeGet` lose
one. -/
theorem always_owned_iff (es : List (Event A)) :
    Always (step lib) (Owned lib) (boot lib) es ↔
      Along (step lib) (fun s e => ¬ Leaks lib s e) (boot lib) es := by
  refine always_iff_along (I := Tidy lib) _ step_tidy ?_ boot_tidy ?_ es
  · intro s e htidy howned
    constructor
    · intro hnext hleaks
      rw [step_leaks s hleaks] at hnext
      exact Heap.Wf.not_accounted_alloc htidy hnext
    · intro hkeeps
      exact (step_keeps s hkeeps).owned htidy howned
  · intro b hb
    exact absurd hb (Nat.not_lt_zero b)

/-- A request for a block of `/large`, whose `coap_packet_init` fails. -/
def largeGetFails : List (Event Nat) :=
  [.message { type := .con, code := 1, id := 7, path := ["large"] } 1
    { outcome := fun _ call =>
        match call with
        | .packetInit .. => -EINVAL
        | _ => 0 }]

theorem largeGetFails_not_owned :
    ¬ Always (step zephyrLib) (Owned zephyrLib) (boot zephyrLib) largeGetFails := by
  rintro ⟨_, hend⟩
  have howned : Owned zephyrLib (run (step zephyrLib) (boot zephyrLib) largeGetFails) := hend
  exact absurd howned (by decide)

end CoapServer
end ZephyrSamples
