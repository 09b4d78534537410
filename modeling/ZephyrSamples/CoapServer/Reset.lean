import Mathlib.Data.List.Nodup
import ZephyrSamples.CoapServer.Server
import ZephyrSamples.Lib.Runs

/-!
# Resets

A RST from an observer is to end its observation.  `process_coap_request` first looks for the
pending notification with its id, and returns if there is one, whatever the type of the message; and
a slot of `observers` is never given back, so the first one with an address may be of an earlier
observation. -/

namespace ZephyrSamples
namespace CoapServer

open Runs

variable {P O A : Type} {lib : CoapLib P O A}

/-- What the sample relies on for its observers; `used` tells that a slot has been initialised. -/
structure ObserverLaws (lib : CoapLib P O A) (used : O → Bool) : Prop where
  nextUnused_some : ∀ os i, lib.observerNextUnused os = some i →
    ∃ o, os[i]? = some o ∧ used o = false
  init_used : ∀ o request addr, used (lib.observerInit o request addr) = true
  find_some : ∀ os addr i, lib.findObserverByAddr os addr = some i →
    ∃ o, os[i]? = some o ∧ lib.observerAddr o = addr

/-! ## Who observes -/

/-- A part of an event that leaves the observers as they are. -/
structure SameObservers (s s' : Server P O) : Prop where
  registered : s'.registered = s.registered
  observers : s'.observers = s.observers

namespace SameObservers

variable {s s' s'' : Server P O}

theorem refl (s : Server P O) : SameObservers s s := ⟨rfl, rfl⟩

theorem trans (h : SameObservers s s') (h' : SameObservers s' s'') : SameObservers s s'' :=
  ⟨h'.registered.trans h.registered, h'.observers.trans h.observers⟩

theorem foldl {α : Type} {f : Server P O → α → Server P O} (hf : ∀ s a, SameObservers s (f s a))
    (as : List α) (s : Server P O) : SameObservers s (as.foldl f s) := by
  induction as generalizing s with
  | nil => exact SameObservers.refl s
  | cons a as ih => exact (hf s a).trans (ih (f s a))

end SameObservers

variable (lib) (s : Server P O) (t : Trial) (request : Request)

theorem withBuffer_same (k : Nat) (calls : List Call) :
    SameObservers s (withBuffer s t k calls).2 := by
  unfold withBuffer
  split <;> exact ⟨rfl, rfl⟩

theorem largeGet_same : SameObservers s (largeGet s t request).2 := by
  unfold largeGet
  split
  · exact SameObservers.refl s
  · split
    · dsimp only
      split <;> exact ⟨rfl, rfl⟩
    · exact SameObservers.refl s

theorem coreGet_same : SameObservers s (coreGet s t request).2 := by
  unfold coreGet
  split
  · dsimp only
    split <;> exact ⟨rfl, rfl⟩
  · exact SameObservers.refl s

theorem createPendingRequest_same (response : Packet) (addr : A) :
    SameObservers s (createPendingRequest lib s response addr).2 := by
  unfold createPendingRequest
  split
  · exact SameObservers.refl s
  · split
    · exact SameObservers.refl s
    · dsimp only
      split
      · exact ⟨rfl, rfl⟩
      · split <;> exact ⟨rfl, rfl⟩

theorem sendNotificationPacket_same (addr : A) (age id : Nat) (token : List Nat)
    (isResponse : Bool) :
    SameObservers s (sendNotificationPacket lib s t addr age id token isResponse).2 := by
  unfold sendNotificationPacket
  generalize (if isResponse then MsgType.ack else .con) = type
  generalize (if isResponse then id else t.nextId) = id
  split
  · dsimp only
    split
    · exact ⟨rfl, rfl⟩
    · split
      · have hcreate := createPendingRequest_same lib { s with heap := s.heap.alloc.2 }
          ⟨type, token, codeContent, id, s.heap.alloc.1⟩ addr
        split <;> exact ⟨hcreate.registered, hcreate.observers⟩
      · exact ⟨rfl, rfl⟩
  · exact SameObservers.refl s

theorem coapResourceNotify_same (trials : Nat → Trial) :
    SameObservers s (coapResourceNotify lib s trials) := by
  have hage : SameObservers s { s with age := lib.ageNotified s.age } := ⟨rfl, rfl⟩
  refine hage.trans (SameObservers.foldl ?_ _ _)
  intro s entry
  split
  · exact sendNotificationPacket_same ..
  · exact SameObservers.refl s

theorem updateCounter_same (trials : Nat → Trial) :
    SameObservers s (updateCounter lib s trials) := by
  have hcount : SameObservers s { s with obsCounter := s.obsCounter + 1 } := ⟨rfl, rfl⟩
  unfold updateCounter
  dsimp only
  split
  · have hnotify := hcount.trans (coapResourceNotify_same lib _ trials)
    exact ⟨hnotify.registered, hnotify.observers⟩
  · exact ⟨rfl, rfl⟩

theorem retransmitRequest_same : SameObservers s (retransmitRequest lib s) := by
  unfold retransmitRequest
  dsimp only
  split
  · exact ⟨rfl, rfl⟩
  · split
    · exact ⟨rfl, rfl⟩
    · split <;> exact ⟨rfl, rfl⟩

/-- What `obs_get` does to the observers: nothing, or it registers the slot it has found. -/
theorem obsGet_observers (addr : A) :
    SameObservers s (obsGet lib s t request addr).2 ∨
      ∃ i, lib.observerNextUnused s.observers = some i ∧
        (obsGet lib s t request addr).2.registered = s.registered ++ [i] ∧
        (obsGet lib s t request addr).2.observers =
          s.observers.modify i fun observer => lib.observerInit observer request addr := by
  unfold obsGet
  split
  · split
    · exact .inl (SameObservers.refl s)
    · next i hi =>
      have hsend := sendNotificationPacket_same lib
        { s with
          observers := s.observers.modify i fun observer => lib.observerInit observer request addr
          registered := s.registered ++ [i]
          age := lib.ageRegistered s.age
          resourceToNotify := true }
        t addr (lib.ageRegistered s.age) request.id request.token true
      exact .inr ⟨i, hi, hsend.registered, hsend.observers⟩
  · exact .inl (sendNotificationPacket_same ..)

/-- The other handlers leave the observers alone. -/
theorem callHandler_same (addr : A) {handler : Handler} (h : handler ≠ .obsGet) :
    SameObservers s (callHandler lib s t request addr handler).2 := by
  cases handler with
  | obsGet => exact absurd rfl h
  | largeGet => exact largeGet_same s t request
  | coreGet => exact coreGet_same s t request
  | queryGet =>
    simp only [callHandler, queryGet]
    split
    · exact SameObservers.refl s
    · exact withBuffer_same ..
  | separateGet =>
    simp only [callHandler, separateGet]
    split
    · exact SameObservers.refl s
    · exact withBuffer_same ..
  | largeUpdatePut =>
    simp only [callHandler, largeUpdatePut]
    split
    · exact SameObservers.refl s
    · split
      · exact SameObservers.refl s
      · split
        · exact SameObservers.refl s
        · exact withBuffer_same ..
  | largeCreatePost =>
    simp only [callHandler, largeCreatePost]
    split
    · exact SameObservers.refl s
    · split
      · exact SameObservers.refl s
      · split
        · exact SameObservers.refl s
        · exact withBuffer_same ..
  | _ => exact withBuffer_same ..

theorem coapHandleRequest_observers (addr : A) :
    SameObservers s (coapHandleRequest lib s t request addr).2 ∨
      ∃ i, lib.observerNextUnused s.observers = some i ∧
        (coapHandleRequest lib s t request addr).2.registered = s.registered ++ [i] ∧
        (coapHandleRequest lib s t request addr).2.observers =
          s.observers.modify i fun observer => lib.observerInit observer request addr := by
  unfold coapHandleRequest
  cases lib.find resources request with
  | error r => exact .inl (SameObservers.refl s)
  | ok handler =>
    by_cases hobs : handler = .obsGet
    · subst hobs
      exact obsGet_observers lib s t request addr
    · exact .inl (callHandler_same lib s t request addr hobs)

/-! ## Slots -/

/-- The registered slots are different, and have been initialised. -/
structure Slots (used : O → Bool) (s : Server P O) : Prop where
  nodup : s.registered.Nodup
  used : ∀ i ∈ s.registered, ∃ o, s.observers[i]? = some o ∧ used o = true

variable {lib} {used : O → Bool} {s t request}

theorem Slots.of_same {s' : Server P O} (hsame : SameObservers s s') (h : Slots used s) :
    Slots used s' := by
  constructor
  · rw [hsame.registered]
    exact h.nodup
  · rw [hsame.registered, hsame.observers]
    exact h.used

theorem Slots.register (laws : ObserverLaws lib used) {s' : Server P O} {i : Nat} {addr : A}
    (hi : lib.observerNextUnused s.observers = some i)
    (hregistered : s'.registered = s.registered ++ [i])
    (hobservers : s'.observers =
      s.observers.modify i fun observer => lib.observerInit observer request addr)
    (h : Slots used s) : Slots used s' := by
  obtain ⟨o, ho, hunused⟩ := laws.nextUnused_some _ _ hi
  have hnew : i ∉ s.registered := by
    intro hmem
    obtain ⟨o', ho', hused⟩ := h.used i hmem
    rw [ho] at ho'
    rw [Option.some.inj ho', hused] at hunused
    exact Bool.noConfusion hunused
  constructor
  · rw [hregistered]
    exact List.concat_eq_append ▸ h.nodup.concat hnew
  · intro j hj
    rw [hobservers]
    by_cases hji : j = i
    · subst hji
      refine ⟨lib.observerInit o request addr, ?_, laws.init_used o request addr⟩
      rw [List.getElem?_modify_eq, ho]
      rfl
    · have hold : j ∈ s.registered := by
        rw [hregistered, List.mem_append, List.mem_singleton] at hj
        exact hj.resolve_right hji
      rw [List.getElem?_modify_ne _ _ (Ne.symm hji)]
      exact h.used j hold

theorem Slots.handled (laws : ObserverLaws lib used) (t : Trial) (request : Request) (addr : A)
    (h : Slots used s) : Slots used (coapHandleRequest lib s t request addr).2 := by
  rcases coapHandleRequest_observers lib s t request addr with
    hsame | ⟨i, hi, hregistered, hobservers⟩
  · exact h.of_same hsame
  · exact h.register laws hi hregistered hobservers

/-- The entry that a message answers, the observer that a reset ends, or a request. -/
theorem processCoapRequest_received {i : Nat} {addr : A}
    (h : lib.pendingReceived request.id s.pendings = some i) :
    SameObservers s (processCoapRequest lib s t request addr) := by
  unfold processCoapRequest
  rw [h]
  dsimp only
  split
  · split <;> exact ⟨rfl, rfl⟩
  · exact ⟨rfl, rfl⟩

theorem processCoapRequest_reset {o : Nat} {addr : A}
    (h : lib.pendingReceived request.id s.pendings = none) (hreset : request.type = .reset)
    (ho : registeredObserver lib s addr = some o) :
    processCoapRequest lib s t request addr = { s with registered := s.registered.erase o } := by
  unfold processCoapRequest
  rw [h, hreset, ho]

theorem processCoapRequest_handled {addr : A}
    (h : lib.pendingReceived request.id s.pendings = none)
    (ho : request.type = .reset → registeredObserver lib s addr = none) :
    processCoapRequest lib s t request addr = (coapHandleRequest lib s t request addr).2 := by
  unfold processCoapRequest
  rw [h]
  dsimp only
  split
  · next o htype hsome =>
    rw [ho htype] at hsome
    cases hsome
  · rfl

theorem Slots.processed (laws : ObserverLaws lib used) (addr : A) (h : Slots used s) :
    Slots used (processCoapRequest lib s t request addr) := by
  cases hreceived : lib.pendingReceived request.id s.pendings with
  | some i => exact h.of_same (processCoapRequest_received hreceived)
  | none =>
    by_cases hreset : request.type = .reset
    · cases ho : registeredObserver lib s addr with
      | some o =>
        rw [processCoapRequest_reset hreceived hreset ho]
        exact ⟨h.nodup.erase o, fun i hi => h.used i (List.mem_of_mem_erase hi)⟩
      | none =>
        rw [processCoapRequest_handled hreceived fun _ => ho]
        exact h.handled laws t request addr
    · rw [processCoapRequest_handled hreceived fun htype => absurd htype hreset]
      exact h.handled laws t request addr

theorem slots_step (laws : ObserverLaws lib used) (s : Server P O) (e : Event A)
    (h : Slots used s) : Slots used (step lib s e) := by
  cases e with
  | garbage => exact h
  | message request addr t => exact h.processed laws addr
  | retransmitWork =>
    show Slots used (if _ then _ else _)
    split
    · exact h.of_same (retransmitRequest_same lib s)
    · exact h
  | observerWork trials =>
    show Slots used (if _ then _ else _)
    split
    · exact h.of_same (updateCounter_same lib s trials)
    · exact h

theorem slots_run (laws : ObserverLaws lib used) (es : List (Event A)) :
    Slots used (run (step lib) (boot lib) es) :=
  run_invariant _ (slots_step laws) ⟨List.nodup_nil, fun _ h => absurd h List.not_mem_nil⟩ es

/-! ## The end of an observation -/

/-- The address of the observer in a slot. -/
def Server.slotAddr (lib : CoapLib P O A) (s : Server P O) (i : Nat) : Option A :=
  (s.observers[i]?).map lib.observerAddr

/-- There was an observer with the address, and it is off the list with every slot of it; the buffer
of the notification that is answered has been freed, and the rest is unchanged. -/
structure Ended (lib : CoapLib P O A) (s s' : Server P O) (request : Request) (addr : A) :
    Prop where
  observer : ∃ o ∈ s.registered, s.slotAddr lib o = some addr
  gone : ∀ o ∈ s'.registered, s'.slotAddr lib o ≠ some addr
  listed : s'.registered.Sublist s.registered
  others : ∀ o ∈ s.registered, s.slotAddr lib o ≠ some addr → o ∈ s'.registered
  observers : ∀ j, s.slotAddr lib j ≠ some addr → s'.observers[j]? = s.observers[j]?
  answered : ∀ i p, lib.pendingReceived request.id s.pendings = some i → s.pendings[i]? = some p →
    lib.data p ∈ s'.heap.freed
  pendings : ∀ j, lib.pendingReceived request.id s.pendings ≠ some j →
    s'.pendings[j]? = s.pendings[j]?

/-- As long as the list stays as it is, no observation has ended. -/
theorem not_ended_of_same {s' : Server P O} {addr : A} (h : SameObservers s s') :
    ¬ Ended lib s s' request addr := by
  intro hended
  obtain ⟨o, ho, haddr⟩ := hended.observer
  have hslot : s'.slotAddr lib o = s.slotAddr lib o := by
    rw [Server.slotAddr, Server.slotAddr, h.observers]
  exact hended.gone o (h.registered ▸ ho) (hslot.trans haddr)

/-- Nor when it gets longer. -/
theorem not_ended_of_lt {s' : Server P O} {addr : A}
    (h : s.registered.length < s'.registered.length) : ¬ Ended lib s s' request addr :=
  fun hended => Nat.not_lt.mpr hended.listed.length_le h

theorem not_ended_handled (addr : A) :
    ¬ Ended lib s (coapHandleRequest lib s t request addr).2 request addr := by
  rcases coapHandleRequest_observers lib s t request addr with hsame | ⟨i, _, hregistered, _⟩
  · exact not_ended_of_same hsame
  · apply not_ended_of_lt
    rw [hregistered, List.length_append, List.length_singleton]
    exact Nat.lt_succ_self _

/-- Taking one slot of the address off the list ends the observation if it is the only one. -/
theorem ended_erase_iff {o : Nat} {addr : A} (hnodup : s.registered.Nodup) (ho : o ∈ s.registered)
    (haddr : s.slotAddr lib o = some addr)
    (hreceived : lib.pendingReceived request.id s.pendings = none) :
    Ended lib s { s with registered := s.registered.erase o } request addr ↔
      ∀ o' ∈ s.registered, s.slotAddr lib o' = some addr → o' = o := by
  constructor
  · intro hended o' ho' haddr'
    by_contra hne
    exact hended.gone o' ((List.mem_erase_of_ne hne).mpr ho') haddr'
  · intro honly
    refine ⟨⟨o, ho, haddr⟩, ?_, List.erase_sublist, ?_, fun _ _ => rfl, ?_, fun _ _ => rfl⟩
    · intro o' ho' haddr'
      have heq := honly o' (List.mem_of_mem_erase ho') haddr'
      rw [heq] at ho'
      exact hnodup.not_mem_erase ho'
    · intro o' ho' haddr'
      refine (List.mem_erase_of_ne ?_).mpr ho'
      rintro rfl
      exact haddr' haddr
    · intro i p hi
      rw [hreceived] at hi
      cases hi

theorem registeredObserver_eq_some {o : Nat} {addr : A} : registeredObserver lib s addr = some o ↔
    lib.findObserverByAddr s.observers addr = some o ∧ o ∈ s.registered := by
  rw [registeredObserver, Option.filter_eq_some_iff, List.contains_iff_mem]

/-- In a reachable state a reset ends the observation exactly if its id is that of no pending
notification, the slot found for its address is registered, and no other registered slot has the
address. -/
theorem reset_ends_iff (laws : ObserverLaws lib used) (es : List (Event A)) (request : Request)
    (hreset : request.type = .reset) (addr : A) (t : Trial) :
    Ended lib (run (step lib) (boot lib) es)
        (processCoapRequest lib (run (step lib) (boot lib) es) t request addr) request addr ↔
      lib.pendingReceived request.id (run (step lib) (boot lib) es).pendings = none ∧
        ∃ o ∈ (run (step lib) (boot lib) es).registered,
          lib.findObserverByAddr (run (step lib) (boot lib) es).observers addr = some o ∧
            ∀ o' ∈ (run (step lib) (boot lib) es).registered,
              (run (step lib) (boot lib) es).slotAddr lib o' = some addr → o' = o := by
  have hslots := slots_run laws es
  generalize run (step lib) (boot lib) es = s at hslots ⊢
  cases hreceived : lib.pendingReceived request.id s.pendings with
  | some i =>
    refine iff_of_false (not_ended_of_same (processCoapRequest_received hreceived)) fun h => ?_
    exact Option.some_ne_none i h.1
  | none =>
    cases ho : registeredObserver lib s addr with
    | none =>
      rw [processCoapRequest_handled hreceived fun _ => ho]
      refine iff_of_false (not_ended_handled addr) ?_
      rintro ⟨_, o, hmem, hfind, _⟩
      rw [registeredObserver_eq_some.mpr ⟨hfind, hmem⟩] at ho
      cases ho
    | some o =>
      obtain ⟨hfind, hmem⟩ := registeredObserver_eq_some.mp ho
      obtain ⟨x, hx, hxaddr⟩ := laws.find_some _ _ _ hfind
      have haddr : s.slotAddr lib o = some addr := by
        rw [Server.slotAddr, hx, Option.map_some, hxaddr]
      rw [processCoapRequest_reset hreceived hreset ho,
        ended_erase_iff hslots.nodup hmem haddr hreceived]
      constructor
      · exact fun honly => ⟨rfl, o, hmem, hfind, honly⟩
      · rintro ⟨_, o', _, hfind', honly⟩
        rw [hfind] at hfind'
        rw [Option.some.inj hfind']
        exact honly

/-! ## The library at hand -/

theorem zephyrLib_observerLaws : ObserverLaws zephyrLib Observer.used where
  nextUnused_some := by
    intro os i h
    obtain ⟨hlt, hp, _⟩ := List.findIdx?_eq_some_iff_getElem.mp h
    exact ⟨os[i], List.getElem?_eq_getElem hlt, by simpa using hp⟩
  init_used _ _ _ := rfl
  find_some := by
    intro os addr i h
    obtain ⟨hlt, hp, _⟩ := List.findIdx?_eq_some_iff_getElem.mp h
    rw [Bool.and_eq_true] at hp
    exact ⟨os[i], List.getElem?_eq_getElem hlt, of_decide_eq_true hp.2⟩

/-- A request to observe `/obs`, and a reset. -/
def observe (addr : Nat) : Event Nat :=
  .message { type := .con, code := 1, id := 1, path := ["obs"], observe := true } addr {}

def reset (id : Nat) : Request := { type := .reset, code := 0, id := id }

/-- A reset with an id of its own from one of two observers. -/
theorem reset_ends_only :
    Ended zephyrLib (run (step zephyrLib) (boot zephyrLib) [observe 7, observe 8])
      (processCoapRequest zephyrLib
        (run (step zephyrLib) (boot zephyrLib) [observe 7, observe 8]) {} (reset 5) 7)
      (reset 5) 7 :=
  (reset_ends_iff zephyrLib_observerLaws [observe 7, observe 8] (reset 5) rfl 7 {}).mpr
    ⟨by decide +kernel, 0, by decide +kernel, by decide +kernel, by decide +kernel⟩

/-- After a notification to the only observer, with the id 5. -/
def notified : Server Pending Observer :=
  run (step zephyrLib) (boot zephyrLib) [observe 7, .observerWork fun _ => { nextId := 5 }]

/-- After the second observation of a client that has ended its first. -/
def observedAgain : Server Pending Observer :=
  run (step zephyrLib) (boot zephyrLib) [observe 7, .message (reset 5) 7 {}, observe 7]

/-- After a client has asked twice to observe. -/
def observedTwice : Server Pending Observer :=
  run (step zephyrLib) (boot zephyrLib) [observe 7, observe 7]

theorem reset_goes_on :
    ¬ Ended zephyrLib notified (processCoapRequest zephyrLib notified {} (reset 5) 7) (reset 5) 7 ∧
    ¬ Ended zephyrLib observedAgain (processCoapRequest zephyrLib observedAgain {} (reset 6) 7)
      (reset 6) 7 ∧
    ¬ Ended zephyrLib observedTwice (processCoapRequest zephyrLib observedTwice {} (reset 6) 7)
      (reset 6) 7 := by
  refine ⟨fun h => h.gone 0 ?_ ?_, fun h => h.gone 1 ?_ ?_, fun h => h.gone 1 ?_ ?_⟩ <;>
    decide +kernel

end CoapServer
end ZephyrSamples
