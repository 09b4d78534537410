import ZephyrSamples.CoapServer.Server

/-!
# What one event does to the CoAP server

`Act` lists what the handlers and work items do to the heap, to `pendings` and to `retransmit_work`:
allocate and free a block, hand one to an entry of `pendings`, and clear the entry that an
acknowledgement is for.  Two things are not among them: `largeGet` losing its block, and the expiry
of `retransmit_work`.
-/

namespace ZephyrSamples
namespace CoapServer

variable {P O A : Type} (lib : CoapLib P O A)

/-- What a part of an event does to the heap, to `pendings` and to `retransmit_work`. -/
inductive Act : Server P O → Server P O → Prop
  | silent {s s' : Server P O} (hheap : s'.heap = s.heap) (hpendings : s'.pendings = s.pendings)
      (hwork : s'.retransmitWork = s.retransmitWork) : Act s s'
  /-- A block is allocated, a message built in it, and the block freed. -/
  | reply {s s' : Server P O} (hheap : s'.heap = s.heap.alloc.2.free s.heap.alloc.1)
      (hpendings : s'.pendings = s.pendings) (hwork : s'.retransmitWork = s.retransmitWork) :
      Act s s'
  /-- The same, after `coap_pending_init` has failed on an unused entry. -/
  | refused {s s' : Server P O} {i : Nat} {p q : P} (hi : s.pendings[i]? = some p)
      (hp : lib.inUse p = false) (hq : lib.inUse q = false)
      (hheap : s'.heap = s.heap.alloc.2.free s.heap.alloc.1)
      (hpendings : s'.pendings = s.pendings.set i q)
      (hwork : s'.retransmitWork = s.retransmitWork) : Act s s'
  /-- A block is allocated and handed to an unused entry. -/
  | pending {s s' : Server P O} {i : Nat} {p q : P} {timeout : Int}
      (hi : s.pendings[i]? = some p) (hp : lib.inUse p = false) (hq : lib.inUse q = true)
      (hdata : lib.data q = s.heap.blocks) (hheap : s'.heap = s.heap.alloc.2)
      (hpendings : s'.pendings = s.pendings.set i q)
      (hwork : s'.retransmitWork = some timeout) : Act s s'
  /-- The entry that an acknowledgement is for. -/
  | acknowledged {s : Server P O} {i : Nat} {p : P} (hi : s.pendings[i]? = some p)
      (hp : lib.inUse p = true) : Act s (dropPending lib s i p)
  | trans {s s' s'' : Server P O} (h : Act s s') (h' : Act s' s'') : Act s s''

variable {lib}

theorem Act.rfl (s : Server P O) : Act lib s s := .silent (Eq.refl _) (Eq.refl _) (Eq.refl _)

theorem Act.foldl {α : Type} {f : Server P O → α → Server P O} (hf : ∀ s a, Act lib s (f s a))
    (as : List α) (s : Server P O) : Act lib s (as.foldl f s) := by
  induction as generalizing s with
  | nil => exact Act.rfl s
  | cons a as ih => exact (hf s a).trans (ih (f s a))

/-! ## The handlers -/

theorem withBuffer_acts (s : Server P O) (t : Trial) (k : Nat) (calls : List Call) :
    Act lib s (withBuffer s t k calls).2 := by
  unfold withBuffer
  split
  · exact Act.reply rfl rfl rfl
  · exact Act.rfl s

theorem coreGet_acts (s : Server P O) (t : Trial) (request : Request) :
    Act lib s (coreGet s t request).2 := by
  unfold coreGet
  split
  · simp only
    split
    · exact Act.reply rfl rfl rfl
    · exact Act.reply rfl rfl rfl
  · exact Act.rfl s

/-- `large_get` reaches its `coap_packet_init` with a block, and the call fails. -/
def LargeGetLeaks (t : Trial) (request : Request) : Prop :=
  0 ≤ t.outcome 0 .updateFromBlock ∧ t.malloc = true ∧
    t.outcome 1 (.packetInit .ack request.token codeContent request.id) < 0

theorem largeGet_acts (s : Server P O) {t : Trial} {request : Request}
    (h : ¬ LargeGetLeaks t request) : Act lib s (largeGet s t request).2 := by
  unfold largeGet
  split
  · exact Act.rfl s
  · next hblock =>
    split
    · next hmalloc =>
      simp only
      split
      · next hinit => exact absurd ⟨Int.not_lt.mp hblock, hmalloc, hinit⟩ h
      · exact Act.reply rfl rfl rfl
    · exact Act.rfl s

theorem largeGet_leaks (s : Server P O) {t : Trial} {request : Request}
    (h : LargeGetLeaks t request) :
    (largeGet s t request).2 = { s with heap := s.heap.alloc.2 } := by
  obtain ⟨hblock, hmalloc, hinit⟩ := h
  simp only [largeGet, if_neg (Int.not_lt.mpr hblock), if_pos hmalloc, if_pos hinit]

/-- After an entry in use was stored, `coap_pending_next_to_expire` has an entry to return. -/
theorem nextToExpire_set {ps : List P} {i : Nat} {p q : P} (hi : ps[i]? = some p)
    (hq : lib.inUse q = true) :
    ∃ next, (lib.pendingNextToExpire (ps.set i q)).bind ((ps.set i q)[·]?) = some next := by
  obtain ⟨hlt, _⟩ := List.getElem?_eq_some_iff.mp hi
  cases hnext : lib.pendingNextToExpire (ps.set i q) with
  | none =>
    have hmem : q ∈ ps.set i q := List.mem_set hlt q
    have hunused := lib.nextToExpire_none _ hnext q hmem
    rw [hq] at hunused
    cases hunused
  | some j =>
    obtain ⟨next, hj, _⟩ := lib.nextToExpire_some _ _ hnext
    exact ⟨next, hj⟩

variable (lib) in
/-- A failing `create_pending_request` leaves an unused entry unused, and one that succeeds stores
an entry in use for the response and schedules `retransmit_work`. -/
theorem createPendingRequest_cases (s : Server P O) (response : Packet) (addr : A) :
    (∃ r, r < 0 ∧ createPendingRequest lib s response addr = (r, s)) ∨
      ∃ i p q, s.pendings[i]? = some p ∧ lib.inUse p = false ∧
        ((∃ r, r < 0 ∧ lib.inUse q = false ∧
            createPendingRequest lib s response addr =
              (r, { s with pendings := s.pendings.set i q })) ∨
          ∃ timeout, lib.inUse q = true ∧ lib.data q = response.data ∧
            createPendingRequest lib s response addr =
              (0, { s with
                pendings := s.pendings.set i q
                retransmitWork := some timeout })) := by
  cases hnext : lib.pendingNextUnused s.pendings with
  | none => exact Or.inl ⟨-ENOMEM, by decide, by simp only [createPendingRequest, hnext]⟩
  | some i =>
    obtain ⟨p, hi, hp⟩ := lib.nextUnused_some _ _ hnext
    by_cases hinit : (lib.pendingInit p response addr).2 < 0
    · refine Or.inr ⟨i, p, (lib.pendingInit p response addr).1, hi, hp, Or.inl ⟨-EINVAL, ?_⟩⟩
      refine ⟨by decide, lib.init_fails p response addr hp hinit, ?_⟩
      simp only [createPendingRequest, hnext, hi, if_pos hinit]
    · have hdata := lib.init_data p response addr (Int.not_lt.mp hinit)
      have hused := lib.cycle_init p response addr (Int.not_lt.mp hinit)
      rw [← lib.cycle_data] at hdata
      obtain ⟨next, hexpire⟩ := nextToExpire_set hi hused
      refine Or.inr ⟨i, p, (lib.pendingCycle (lib.pendingInit p response addr).1).1, hi, hp, ?_⟩
      refine Or.inr ⟨lib.timeout next, hused, hdata, ?_⟩
      simp only [createPendingRequest, hnext, hi, if_neg hinit, hexpire]

theorem sendNotificationPacket_acts (s : Server P O) (t : Trial) (addr : A) (age id : Nat)
    (token : List Nat) (isResponse : Bool) :
    Act lib s (sendNotificationPacket lib s t addr age id token isResponse).2 := by
  unfold sendNotificationPacket
  generalize (if isResponse then MsgType.ack else .con) = type
  generalize (if isResponse then id else t.nextId) = id
  split
  · simp only
    split
    · exact Act.reply rfl rfl rfl
    · split
      · rcases createPendingRequest_cases lib { s with heap := s.heap.alloc.2 }
          ⟨type, token, codeContent, id, s.heap.alloc.1⟩ addr with
          ⟨r, hr, hcreate⟩ | ⟨i, p, q, hi, hp, ⟨r, hr, hq, hcreate⟩ | ⟨timeout, hq, hdata, hcreate⟩⟩
        · rw [hcreate, if_pos hr]
          exact Act.reply rfl rfl rfl
        · rw [hcreate, if_pos hr]
          exact Act.refused hi hp hq rfl rfl rfl
        · rw [hcreate, if_neg (Int.lt_irrefl 0)]
          exact Act.pending hi hp hq hdata rfl rfl rfl
      · exact Act.reply rfl rfl rfl
  · exact Act.rfl s

theorem obsGet_acts (s : Server P O) (t : Trial) (request : Request) (addr : A) :
    Act lib s (obsGet lib s t request addr).2 := by
  unfold obsGet
  split
  · split
    · exact Act.rfl s
    · refine Act.trans ?_ (sendNotificationPacket_acts ..)
      exact Act.silent rfl rfl rfl
  · exact sendNotificationPacket_acts ..

theorem callHandler_acts (s : Server P O) {t : Trial} {request : Request} (addr : A)
    {handler : Handler} (h : handler = .largeGet → ¬ LargeGetLeaks t request) :
    Act lib s (callHandler lib s t request addr handler).2 := by
  cases handler with
  | largeGet => exact largeGet_acts s (h rfl)
  | obsGet => exact obsGet_acts s t request addr
  | coreGet => exact coreGet_acts s t request
  | queryGet =>
    simp only [callHandler, queryGet]
    split
    · exact Act.rfl s
    · exact withBuffer_acts ..
  | separateGet =>
    simp only [callHandler, separateGet]
    split
    · exact Act.rfl s
    · exact withBuffer_acts ..
  | largeUpdatePut =>
    simp only [callHandler, largeUpdatePut]
    split
    · exact Act.rfl s
    · split
      · exact Act.rfl s
      · split
        · exact Act.rfl s
        · exact withBuffer_acts ..
  | largeCreatePost =>
    simp only [callHandler, largeCreatePost]
    split
    · exact Act.rfl s
    · split
      · exact Act.rfl s
      · split
        · exact Act.rfl s
        · exact withBuffer_acts ..
  | _ => exact withBuffer_acts ..

theorem coapResourceNotify_acts (s : Server P O) (trials : Nat → Trial) :
    Act lib s (coapResourceNotify lib s trials) := by
  have hage : Act lib s { s with age := lib.ageNotified s.age } := Act.silent rfl rfl rfl
  refine hage.trans (Act.foldl ?_ _ _)
  intro s entry
  split
  · exact sendNotificationPacket_acts ..
  · exact Act.rfl s

theorem updateCounter_acts (s : Server P O) (trials : Nat → Trial) :
    Act lib s (updateCounter lib s trials) := by
  have hcount : Act lib s { s with obsCounter := s.obsCounter + 1 } := Act.silent rfl rfl rfl
  unfold updateCounter
  simp only
  split
  · have hnotify := hcount.trans (coapResourceNotify_acts _ trials)
    exact hnotify.trans (Act.silent rfl rfl rfl)
  · exact Act.silent rfl rfl rfl

variable (lib) in
/-- An expiry of `retransmit_work` finds no entry in use, or sends the next one again, or ends its
retransmissions and leaves the work unscheduled. -/
theorem retransmitRequest_cases (s : Server P O) :
    (retransmitRequest lib s = { s with retransmitWork := none } ∧
      ∀ p ∈ s.pendings, lib.inUse p = false) ∨
      ∃ i p, lib.pendingNextToExpire s.pendings = some i ∧ s.pendings[i]? = some p ∧
        lib.inUse p = true ∧
        (((lib.pendingCycle p).2 = true ∧ retransmitRequest lib s =
            { s with
              pendings := s.pendings.set i (lib.pendingCycle p).1
              retransmitWork := some (lib.timeout (lib.pendingCycle p).1) }) ∨
          ((lib.pendingCycle p).2 = false ∧ retransmitRequest lib s =
            dropPending lib { s with retransmitWork := none } i (lib.pendingCycle p).1)) := by
  cases hnext : lib.pendingNextToExpire s.pendings with
  | none =>
    refine Or.inl ⟨?_, lib.nextToExpire_none _ hnext⟩
    simp only [retransmitRequest, hnext]
  | some i =>
    obtain ⟨p, hi, hp⟩ := lib.nextToExpire_some _ _ hnext
    refine Or.inr ⟨i, p, rfl, hi, hp, ?_⟩
    cases hagain : (lib.pendingCycle p).2 with
    | true =>
      refine Or.inl ⟨rfl, ?_⟩
      simp only [retransmitRequest, hnext, hi, hagain, if_true]
    | false =>
      refine Or.inr ⟨rfl, ?_⟩
      simp only [retransmitRequest, hnext, hi, hagain, Bool.false_eq_true, if_false]

variable (lib) in
/-- The handler that a message reaches, if it does: no entry of `pendings` is for its id, and it is
not the reset of a registered observer. -/
def reached (s : Server P O) (request : Request) (addr : A) : Option Handler :=
  if (lib.pendingReceived request.id s.pendings).isSome then none
  else if request.type = .reset ∧ (registeredObserver lib s addr).isSome then none
  else (lib.find resources request).toOption

variable (lib) in
theorem processCoapRequest_cases (s : Server P O) (t : Trial) (request : Request) (addr : A) :
    (∃ handler, reached lib s request addr = some handler ∧
      processCoapRequest lib s t request addr = (callHandler lib s t request addr handler).2) ∨
    (reached lib s request addr = none ∧
      Act lib s (processCoapRequest lib s t request addr)) := by
  unfold reached
  cases hreceived : lib.pendingReceived request.id s.pendings with
  | some i =>
    obtain ⟨p, hi, hp, _⟩ := lib.received_some _ _ _ hreceived
    refine Or.inr ⟨rfl, ?_⟩
    simp only [processCoapRequest, hreceived, hi]
    split
    · exact Act.acknowledged hi hp
    · exact Act.rfl s
  | none =>
    simp only [Option.isSome_none, Bool.false_eq_true, if_false]
    by_cases hreset : request.type = .reset ∧ (registeredObserver lib s addr).isSome = true
    · obtain ⟨htype, hsome⟩ := hreset
      obtain ⟨o, ho⟩ := Option.isSome_iff_exists.mp hsome
      refine Or.inr ⟨if_pos ⟨htype, hsome⟩, ?_⟩
      simp only [processCoapRequest, hreceived, htype, ho]
      exact Act.silent rfl rfl rfl
    · have hhandle : processCoapRequest lib s t request addr =
          (coapHandleRequest lib s t request addr).2 := by
        simp only [processCoapRequest, hreceived]
        split
        · next htype ho => exact absurd ⟨htype, by rw [ho]; rfl⟩ hreset
        · rfl
      rw [if_neg hreset, hhandle, coapHandleRequest]
      cases hfind : lib.find resources request with
      | error r => exact Or.inr ⟨rfl, Act.rfl s⟩
      | ok handler => exact Or.inl ⟨handler, rfl, rfl⟩

/-! ## Events -/

variable (lib) in
/-- A message that `largeGet` handles, with a block whose `coap_packet_init` fails. -/
def Leaks (s : Server P O) : Event A → Prop
  | .message request addr t => reached lib s request addr = some .largeGet ∧ LargeGetLeaks t request
  | _ => False

/-- The expiry of `retransmit_work`. -/
def Expires (s : Server P O) : Event A → Prop
  | .retransmitWork => s.retransmitWork.isSome = true
  | _ => False

variable (lib) in
theorem step_cases (s : Server P O) (e : Event A) :
    (¬ Leaks lib s e ∧ ¬ Expires s e ∧ Act lib s (step lib s e)) ∨
      (Leaks lib s e ∧ ¬ Expires s e ∧ step lib s e = { s with heap := s.heap.alloc.2 }) ∨
      (¬ Leaks lib s e ∧ Expires s e ∧ step lib s e = retransmitRequest lib s) := by
  cases e with
  | garbage => exact Or.inl ⟨id, id, Act.rfl s⟩
  | message request addr t =>
    rcases processCoapRequest_cases lib s t request addr with
      ⟨handler, hreached, hstep⟩ | ⟨hnone, hact⟩
    · by_cases hleaks : handler = .largeGet ∧ LargeGetLeaks t request
      · obtain ⟨rfl, hleaks⟩ := hleaks
        refine Or.inr (Or.inl ⟨⟨hreached, hleaks⟩, id, ?_⟩)
        exact hstep.trans (largeGet_leaks s hleaks)
      · refine Or.inl ⟨?_, id, ?_⟩
        · rintro ⟨hlarge, hlost⟩
          rw [hreached] at hlarge
          exact hleaks ⟨Option.some.inj hlarge, hlost⟩
        · show Act lib s (processCoapRequest lib s t request addr)
          rw [hstep]
          exact callHandler_acts s addr fun hlarge hlost => hleaks ⟨hlarge, hlost⟩
    · refine Or.inl ⟨?_, id, hact⟩
      rintro ⟨hlarge, _⟩
      rw [hnone] at hlarge
      cases hlarge
  | retransmitWork =>
    by_cases hwork : s.retransmitWork.isSome = true
    · exact Or.inr (Or.inr ⟨id, hwork, if_pos hwork⟩)
    · refine Or.inl ⟨id, hwork, ?_⟩
      show Act lib s (if s.retransmitWork.isSome then retransmitRequest lib s else s)
      rw [if_neg hwork]
      exact Act.rfl s
  | observerWork trials =>
    refine Or.inl ⟨id, id, ?_⟩
    show Act lib s (if s.observerWork then updateCounter lib s trials else s)
    split
    · exact updateCounter_acts s trials
    · exact Act.rfl s

end CoapServer
end ZephyrSamples
