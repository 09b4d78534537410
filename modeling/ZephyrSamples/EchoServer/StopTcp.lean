import ZephyrSamples.Sockets.HandlerSlots

/-!
# Stopping the TCP server of one family

What `stop_tcp` does to one family, after its listener is aborted: slot by slot it aborts the
handler that is in use and closes the socket.  The handlers of the slots it has not come to go on
meanwhile. Every accepted descriptor is closed once, as long as no handler is aborted after it has
closed its descriptor, and no socket is looked at while the slot's handler is running.
-/

namespace ZephyrSamples
namespace EchoServer

open HandlerSlots Handles

/-- `k_thread_abort` of the listener. -/
def abortListener (t : State) : State := { t with acceptor := .stopped }

/-- `k_thread_abort(tcp_handler_tid[i])` -/
def abortHandler (t : State) (i : Nat) : State := t.setSlot i { t.slot i with thread := none }

/-- The close of `accepted[i].sock` when it is not negative. -/
def closeSlot (t : State) (i : Nat) : State :=
  if 0 ≤ (t.slot i).sock then { t with closed := t.closed ++ [(t.slot i).sock] } else t

/-- A handler that is running has the descriptor of its slot. -/
structure SlotLive (c : Slot) : Prop where
  sock : ∀ k, c.thread = some k → c.sock = k.own
  own : ∀ k, c.thread = some k → 0 ≤ k.own ∧ (k.pc ≠ .entry → k.client = k.own)

/-- The slot has a descriptor that is open. -/
def Slot.Opens (c : Slot) (fd : Int) : Prop :=
  (∃ k, c.thread = some k ∧ Server.echo.keepsFd k.pc = true ∧ k.own = fd) ∨
    c.thread = none ∧ 0 ≤ fd ∧ c.sock = fd

/-- The slots from `i` on have still to be closed. -/
def HoldsFrom (i : Nat) (t : State) : Option Nat → Int → Prop
  | none, _ => False
  | some j, fd => i ≤ j ∧ Slot.Opens (t.slot j) fd

/-- `stop_tcp` is at slot `i`. -/
structure Stopping (slots i : Nat) (t : State) : Prop where
  stopped : t.acceptor = .stopped
  live : ∀ j, SlotLive (t.slot j)
  done : ∀ j < i, (t.slot j).thread = none
  outside : ∀ j, slots ≤ j → (t.slot j).thread = none ∧ (t.slot j).sock < 0
  accounted : Accounted (HoldsFrom i t) t.accepted t.closed

/-- No handler is running, and every descriptor has been closed. -/
structure Stopped (t : State) : Prop where
  thread : ∀ j, (t.slot j).thread = none
  closed : ∀ fd, t.accepted.count fd = t.closed.count fd

variable {slots i j : Nat} {t : State}

theorem Stopping.stopped_of_last (h : Stopping slots i t) (hi : slots ≤ i) : Stopped t where
  thread j := by
    rcases Nat.lt_or_ge j i with hlt | hge
    · exact h.done j hlt
    · exact (h.outside j (Nat.le_trans hi hge)).1
  closed fd := by
    refine h.accounted.settled fd fun p hp => ?_
    cases p with
    | none => exact hp
    | some j =>
      obtain ⟨hge, ⟨k, hk, _⟩ | ⟨_, hpos, hsock⟩⟩ := hp
      · simp [(h.outside j (Nat.le_trans hi hge)).1] at hk
      · have := (h.outside j (Nat.le_trans hi hge)).2
        omega

theorem slotLive_of_inv (h : HandlerSlots.Inv .echo slots t) (j : Nat) : SlotLive (t.slot j) where
  sock k hk := (h.slot j).held k hk (by simp [Server.keepsSock])
  own := (h.slot j).own

/-- Outside the slot the listener has just filled, a slot without a handler has no descriptor. -/
theorem opens_iff_of_inv (h : HandlerSlots.Inv .echo slots t) (j : Nat) (fd : Int) :
    Slot.Opens (t.slot j) fd ↔
      t.Holds .echo (some j) fd ∨ t.acceptor.Gives fd j := by
  constructor
  · rintro (⟨k, hk, hkeeps, hown⟩ | ⟨hnone, hpos, hsock⟩)
    · exact .inl ⟨k, hk, hkeeps, hown⟩
    · by_contra hnot
      rw [not_or] at hnot
      have hfree := (h.slot j).free (fun client hgives => ?_) (by simp [hnone])
      · omega
      · have hclient := ((h.slot j).given client hgives).1
        exact hnot.2 ((hclient.symm.trans hsock) ▸ hgives)
  · rintro (⟨k, hk, hkeeps, hown⟩ | hgives)
    · exact .inl ⟨k, hk, hkeeps, hown⟩
    · refine .inr ⟨h.thread_none hgives, ?_, ((h.slot j).given fd hgives).1⟩
      refine h.acceptor.client fd ?_
      rcases hgives with hat | hat <;> rw [hat] <;> rfl

theorem gives_client {a : Acceptor} {fd : Int} (h : a.Gives fd j) : a.client? = some fd := by
  rcases h with rfl | rfl <;> rfl

theorem gives_unique {a : Acceptor} {fd fd' : Int} {j' : Nat} (h : a.Gives fd j)
    (h' : a.Gives fd' j') : j' = j ∧ fd' = fd := by
  rcases h with rfl | rfl <;> rcases h' with h' | h' <;> cases h' <;> exact ⟨rfl, rfl⟩

/-- The listener may be aborted where the descriptor it has accepted is in a slot. -/
theorem Stopping.of_inv (h : HandlerSlots.Inv .echo slots t)
    (hclient : ∀ fd, t.acceptor.client? = some fd → ∃ j, t.acceptor.Gives fd j) :
    Stopping slots 0 (abortListener t) where
  stopped := rfl
  live j := slotLive_of_inv h j
  done j hj := absurd hj (Nat.not_lt_zero j)
  outside j hj := by
    have hnone : (t.slot j).thread = none := by
      by_contra hne
      have := h.inRange j (Option.isSome_iff_ne_none.mpr hne)
      omega
    refine ⟨hnone, (h.slot j).free (fun client hgives => ?_) (by simp [hnone])⟩
    have := h.acceptor.slot client j (.inr hgives)
    omega
  accounted := by
    have hsome : ∀ j fd, HoldsFrom 0 (abortListener t) (some j) fd ↔
        t.Holds .echo (some j) fd ∨ t.acceptor.Gives fd j := fun j fd =>
      (and_iff_right (Nat.zero_le j)).trans (opens_iff_of_inv h j fd)
    cases hc : t.acceptor.client? with
    | none =>
      refine h.accounted.congr fun p fd => ?_
      cases p with
      | none => simp [HoldsFrom, State.Holds, hc]
      | some j =>
        have hnot : ¬ t.acceptor.Gives fd j := fun hgives => by simp [gives_client hgives] at hc
        rw [hsome, or_iff_left hnot]
    | some fd =>
      obtain ⟨j, hgives⟩ := hclient fd hc
      refine h.accounted.move (p := none) (q := some j) hc fun r k => ?_
      cases r with
      | none => simp [HoldsFrom, State.Holds, hc, eq_comm]
      | some j' =>
        rw [hsome]
        constructor
        · rintro (hold | hgives')
          · exact .inl ⟨hold, by simp⟩
          · obtain ⟨rfl, rfl⟩ := gives_unique hgives hgives'
            exact .inr ⟨rfl, rfl⟩
        · rintro (⟨hold, _⟩ | ⟨hj, rfl⟩)
          · exact .inl hold
          · obtain rfl := Option.some.inj hj
            exact .inr hgives

/-! ## Slot by slot -/

/-- A statement that changes one slot that has still to be closed. -/
theorem Stopping.setSlot (h : Stopping slots i t) {c : Slot} (hlive : SlotLive c)
    (hdone : j < i → c.thread = none) (hout : slots ≤ j → c.thread = none ∧ c.sock < 0)
    (hopens : ∀ fd, Slot.Opens c fd ↔ Slot.Opens (t.slot j) fd) :
    Stopping slots i (t.setSlot j c) where
  stopped := h.stopped
  live j' := by
    rcases eq_or_ne j' j with rfl | hne
    · rwa [setSlot_self]
    · rw [setSlot_of_ne c hne]
      exact h.live j'
  done j' hj' := by
    rcases eq_or_ne j' j with rfl | hne
    · rw [setSlot_self]
      exact hdone hj'
    · rw [setSlot_of_ne c hne]
      exact h.done j' hj'
  outside j' hj' := by
    rcases eq_or_ne j' j with rfl | hne
    · rw [setSlot_self]
      exact hout hj'
    · rw [setSlot_of_ne c hne]
      exact h.outside j' hj'
  accounted := by
    refine h.accounted.congr fun p fd => ?_
    cases p with
    | none => exact Iff.rfl
    | some j' =>
      rcases eq_or_ne j' j with rfl | hne
      · simp only [HoldsFrom, setSlot_self, hopens]
      · simp only [HoldsFrom, setSlot_of_ne c hne]

theorem Stopping.lt_of_thread (h : Stopping slots i t) {k : Handler}
    (hk : (t.slot j).thread = some k) :
    i ≤ j ∧ j < slots := by
  constructor
  · by_contra hlt
    simp [h.done j (by omega)] at hk
  · by_contra hge
    simp [(h.outside j (by omega)).1] at hk

/-- The handler of a slot closes its descriptor. -/
theorem Stopping.handlerCloses (h : Stopping slots i t) {c : Slot} {fd : Int} (hij : i ≤ j)
    (hj : j < slots) (hlive : SlotLive c) (hold : ∀ e, Slot.Opens (t.slot j) e ↔ e = fd)
    (hnew : ∀ e, ¬ Slot.Opens c e) :
    Stopping slots i { t.setSlot j c with closed := t.closed ++ [fd] } where
  stopped := h.stopped
  live j' := by
    rcases eq_or_ne j' j with rfl | hne
    · simpa using hlive
    · simpa only [setSlot_of_ne c hne] using h.live j'
  done j' hj' := by
    have hne : j' ≠ j := by omega
    simpa only [setSlot_of_ne c hne] using h.done j' hj'
  outside j' hj' := by
    have hne : j' ≠ j := by omega
    simpa only [setSlot_of_ne c hne] using h.outside j' hj'
  accounted := by
    refine h.accounted.release (p := some j) ⟨hij, (hold fd).mpr rfl⟩ fun p e => ?_
    cases p with
    | none => simp [HoldsFrom]
    | some j' =>
      rcases eq_or_ne j' j with rfl | hne
      · simp [HoldsFrom, hold, hnew]
      · simp [HoldsFrom, setSlot_of_ne c hne, hne]

/-- The handlers of the slots that have still to be closed go on. -/
theorem Stopping.handler (h : Stopping slots i t) (j : Nat) (more : Bool) :
    Stopping slots i (HandlerSlots.step .echo slots t (.handler j more)) := by
  cases hk : (t.slot j).thread with
  | none => simpa [HandlerSlots.step, hk] using h
  | some k =>
    obtain ⟨hge, hlt⟩ := h.lt_of_thread hk
    have hsock := (h.live j).sock k hk
    have hown := (h.live j).own k hk
    obtain ⟨own, client, pc⟩ := k
    simp only [HandlerSlots.step, hk, Handler.step]
    cases pc with
    | entry =>
      refine h.setSlot ⟨?_, ?_⟩ (fun _ => by omega) (fun _ => by omega) fun fd => ?_
      all_goals simp_all [Slot.Opens, Server.keepsFd]
    | serve =>
      cases more with
      | true => exact h
      | false =>
        refine h.setSlot ⟨?_, ?_⟩ (fun _ => by omega) (fun _ => by omega) fun fd => ?_
        all_goals simp_all [Slot.Opens, Handler.goOn, Server.next, Server.keepsFd]
    | unmark =>
      refine h.setSlot ⟨?_, ?_⟩ (fun _ => by omega) (fun _ => by omega) fun fd => ?_
      all_goals simp_all [Slot.Opens, Handler.goOn, Server.next, Server.keepsFd]
    | close =>
      obtain rfl : client = own := hown.2 (by simp)
      refine h.handlerCloses hge hlt ⟨?_, ?_⟩ (fun e => ?_) fun e => ?_
      · simpa [Handler.goOn, Server.next] using hsock
      · simpa [Handler.goOn, Server.next] using hown.1
      · simpa [Slot.Opens, hk, Server.keepsFd] using eq_comm
      · simp [Slot.Opens, Handler.goOn, Server.next, Server.keepsFd]
    | unset =>
      refine h.setSlot ⟨?_, ?_⟩ (fun _ => rfl) (fun _ => by omega) fun fd => ?_
      · simp [Handler.goOn, Server.next]
      · simp [Handler.goOn, Server.next]
      · have hne : 0 ≤ fd → (-1 : Int) ≠ fd := by omega
        simpa [Slot.Opens, hk, Handler.goOn, Server.next, Server.keepsFd] using hne

/-- A handler is aborted that has not closed its descriptor: the slot still has it. -/
theorem Stopping.abortHandler (h : Stopping slots i t)
    (hopen : ∀ k, (t.slot i).thread = some k → k.pc ≠ .unset) :
    Stopping slots i (abortHandler t i) := by
  cases hk : (t.slot i).thread with
  | none =>
    refine h.setSlot ⟨by simp, by simp⟩ (fun _ => rfl) (fun hout => ⟨rfl, (h.outside i hout).2⟩) ?_
    simp [Slot.Opens, hk]
  | some k =>
    obtain ⟨_, hlt⟩ := h.lt_of_thread hk
    have hkeeps : Server.echo.keepsFd k.pc = true := by
      have hne := hopen k hk
      cases hpc : k.pc <;> simp_all [Server.keepsFd]
    have hsock := (h.live i).sock k hk
    have hown := ((h.live i).own k hk).1
    refine h.setSlot ⟨by simp, by simp⟩ (fun _ => rfl) (fun _ => by omega) fun fd => ?_
    have hpos : k.own = fd → 0 ≤ fd := fun heq => heq ▸ hown
    simpa [Slot.Opens, hk, hkeeps, hsock] using hpos

/-- The socket of a slot whose handler is not running is closed. -/
theorem Stopping.closeSlot (h : Stopping slots i t) (hnone : (t.slot i).thread = none) :
    Stopping slots (i + 1) (closeSlot t i) := by
  have hdone : ∀ j < i + 1, (t.slot j).thread = none := by
    intro j hj
    rcases Nat.lt_succ_iff_lt_or_eq.mp hj with hlt | rfl
    · exact h.done j hlt
    · exact hnone
  have hopens : ∀ fd, Slot.Opens (t.slot i) fd ↔ 0 ≤ fd ∧ (t.slot i).sock = fd := by
    simp [Slot.Opens, hnone]
  unfold EchoServer.closeSlot
  split
  case isTrue hpos =>
    refine ⟨h.stopped, h.live, hdone, h.outside, ?_⟩
    have hopen := (hopens _).mpr ⟨hpos, rfl⟩
    refine h.accounted.release (p := some i) ⟨Nat.le_refl i, hopen⟩ fun p fd => ?_
    cases p with
    | none => simp [HoldsFrom]
    | some j =>
      rcases eq_or_ne j i with rfl | hne
      · constructor
        · rintro ⟨hlt, _⟩
          omega
        · rintro ⟨⟨_, hfd⟩, hnot⟩
          exact absurd ⟨rfl, ((hopens fd).mp hfd).2.symm⟩ hnot
      · constructor
        · rintro ⟨hlt, hfd⟩
          exact ⟨⟨by omega, hfd⟩, by simp [hne]⟩
        · rintro ⟨⟨hle, hfd⟩, _⟩
          exact ⟨by omega, hfd⟩
  case isFalse hneg =>
    refine ⟨h.stopped, h.live, hdone, h.outside, h.accounted.congr fun p fd => ?_⟩
    cases p with
    | none => exact Iff.rfl
    | some j =>
      refine and_congr_left fun hfd => ⟨fun hlt => by omega, fun hle => ?_⟩
      rcases eq_or_ne j i with rfl | hne
      · have hsock := (hopens fd).mp hfd
        omega
      · omega

end EchoServer
end ZephyrSamples
