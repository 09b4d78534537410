import ZephyrSamples.Lib.Heap

/-!
# The CoAP server sample

The resources, handlers and work items of `coap-server.c`.  The CoAP library is a parameter,
`CoapLib`, with what the sample relies on as its laws.  Whether `k_malloc` succeeds and what the
fallible calls of a handler return is a `Trial`.  A block that `k_malloc` returned is its number in
`Heap`.  The block-wise transfer contexts are left out: the outcome of `coap_update_from_block` is
the trial's.
-/

namespace ZephyrSamples
namespace CoapServer

inductive MsgType
  | con | nonCon | ack | reset
  deriving DecidableEq

/-- The value printed with `%u`. -/
def MsgType.toNat : MsgType → Nat
  | .con => 0
  | .nonCon => 1
  | .ack => 2
  | .reset => 3

/-- A code of a given class and detail, as in 2.05. -/
def responseCode (cls detail : Nat) : Nat := cls * 32 + detail

def codeCreated : Nat := responseCode 2 1
def codeDeleted : Nat := responseCode 2 2
def codeChanged : Nat := responseCode 2 4
def codeContent : Nat := responseCode 2 5
def codeContinue : Nat := responseCode 2 31

def EINVAL : Int := 22
def ENOENT : Int := 2
def ENOMEM : Int := 12

/-- A received message that `coap_packet_parse` accepts. -/
structure Request where
  type : MsgType
  code : Nat
  id : Nat
  token : List Nat := []
  path : List String := []
  observe : Bool := false
  /-- The value of the Block1 option. -/
  block1 : Option Int := none
  payload : Option (List Nat) := none

/-- The header of a packet under construction and the block it is built in. -/
structure Packet where
  type : MsgType
  token : List Nat
  code : Nat
  id : Nat
  data : Nat

inductive Call
  | findOptions
  | updateFromBlock
  | wellKnownCoreGet
  | packetInit (type : MsgType) (token : List Nat) (code id : Nat)
  | contentFormat
  | locationPath (part : String)
  | locationQuery (part : String)
  | observe (age : Nat)
  | block1
  | block2
  | payloadMarker
  | snprintk (text : List Char)
  | payload (text : List Char)
  | blockPayload
  | sendReply

/-- What the environment answers one handler: whether `k_malloc` succeeds, the result of its `k`-th
call, and what `coap_next_id` returns. -/
structure Trial where
  malloc : Bool := true
  outcome : Nat → Call → Int := fun _ _ => 0
  nextId : Nat := 0

/-- The functions of `coap-server.c` that handle a request. -/
inductive Handler
  | wellKnownCoreGet | piggybackGet | testDel | testPut | testPost | queryGet | locationQueryPost
  | separateGet | largeGet | largeUpdatePut | largeCreatePost | obsGet | coreGet
  deriving DecidableEq

structure Resource where
  path : List String
  get : Option Handler := none
  post : Option Handler := none
  put : Option Handler := none
  del : Option Handler := none

def resources : List Resource :=
  [{ path := [".well-known", "core"], get := some .wellKnownCoreGet },
   { path := ["test"], get := some .piggybackGet, post := some .testPost, del := some .testDel,
     put := some .testPut },
   { path := ["seg1", "seg2", "seg3"], get := some .piggybackGet },
   { path := ["query"], get := some .queryGet },
   { path := ["separate"], get := some .separateGet },
   { path := ["location-query"], post := some .locationQueryPost },
   { path := ["large"], get := some .largeGet },
   { path := ["large-update"], put := some .largeUpdatePut },
   { path := ["large-create"], post := some .largeCreatePost },
   { path := ["obs"], get := some .obsGet },
   { path := ["core1"], get := some .coreGet },
   { path := ["core2"], get := some .coreGet }]

/-- The CoAP library: entries `P` of `pendings`, entries `O` of `observers` and addresses `A`, the
calls the sample makes on them, and what it relies on. -/
structure CoapLib (P O A : Type) where
  /-- An entry of zeroes. -/
  zero : P
  inUse : P → Bool
  id : P → Nat
  data : P → Nat
  timeout : P → Int
  pendingNextUnused : List P → Option Nat
  pendingInit : P → Packet → A → P × Int
  pendingCycle : P → P × Bool
  pendingClear : P → P
  pendingReceived : Nat → List P → Option Nat
  pendingNextToExpire : List P → Option Nat
  noObserver : O
  observerAddr : O → A
  observerToken : O → List Nat
  observerNextUnused : List O → Option Nat
  observerInit : O → Request → A → O
  findObserverByAddr : List O → A → Option Nat
  /-- `resource->age` after `coap_register_observer` and after `coap_resource_notify`. -/
  ageRegistered : Nat → Nat
  ageNotified : Nat → Nat
  /-- `coap_handle_request`: the method it calls, or the error it returns. -/
  find : List Resource → Request → Except Int Handler
  zero_unused : inUse zero = false
  nextUnused_some : ∀ ps i, pendingNextUnused ps = some i → ∃ p, ps[i]? = some p ∧ inUse p = false
  init_data : ∀ p pkt a, 0 ≤ (pendingInit p pkt a).2 → data (pendingInit p pkt a).1 = pkt.data
  init_fails : ∀ p pkt a, inUse p = false → (pendingInit p pkt a).2 < 0 →
    inUse (pendingInit p pkt a).1 = false
  cycle_data : ∀ p, data (pendingCycle p).1 = data p
  cycle_init : ∀ p pkt a, 0 ≤ (pendingInit p pkt a).2 →
    inUse (pendingCycle (pendingInit p pkt a).1).1 = true
  cycle_again : ∀ p, (pendingCycle p).2 = true → inUse (pendingCycle p).1 = true
  clear_unused : ∀ p, inUse (pendingClear p) = false
  received_some : ∀ n ps i, pendingReceived n ps = some i →
    ∃ p, ps[i]? = some p ∧ inUse p = true ∧ id p = n
  nextToExpire_some : ∀ ps i, pendingNextToExpire ps = some i →
    ∃ p, ps[i]? = some p ∧ inUse p = true
  nextToExpire_none : ∀ ps, pendingNextToExpire ps = none → ∀ p ∈ ps, inUse p = false

/-- The static variables of the sample, and the heap. -/
structure Server (P O : Type) where
  heap : Heap
  pendings : List P
  observers : List O
  /-- The observers of the resource `/obs`, by their slots, and its age. -/
  registered : List Nat
  age : Nat
  /-- `resource_to_notify` is set. -/
  resourceToNotify : Bool
  obsCounter : Nat
  /-- The delay with which `retransmit_work` was submitted, if it is scheduled. -/
  retransmitWork : Option Int
  observerWork : Bool

variable {P O A : Type} (lib : CoapLib P O A)

/-- The state after `start_coap_server` and `k_delayed_work_init`. -/
def boot : Server P O where
  heap := {}
  pendings := List.replicate 3 lib.zero
  observers := List.replicate 3 lib.noObserver
  registered := []
  age := 0
  resourceToNotify := false
  obsCounter := 0
  retransmitWork := none
  observerWork := false

/-! ## The handlers -/

/-- Calls from the `k`-th one on, each checked with `goto end`: what `r` is at `end`. -/
def runCalls (outcome : Nat → Call → Int) : Nat → Int → List Call → Int
  | _, r, [] => r
  | k, _, call :: calls =>
    let r := outcome k call
    if r < 0 then r else runCalls outcome (k + 1) r calls

variable (s : Server P O) (t : Trial) (request : Request)

/-- A handler that allocates `data`, makes some calls with `goto end` and frees `data`. -/
def withBuffer (k : Nat) (calls : List Call) : Int × Server P O :=
  if t.malloc then
    let (data, heap) := s.heap.alloc
    (runCalls t.outcome k 0 calls, { s with heap := heap.free data })
  else (-ENOMEM, s)

def Request.replyType : MsgType :=
  if request.type = .con then .ack else .nonCon

/-- `"Type: %u\nCode: %u\nMID: %u\n"` in a buffer of 40 bytes. -/
def Request.describe (type : MsgType) : List Char :=
  (("Type: " ++ toString type.toNat ++ "\nCode: " ++ toString request.code ++ "\nMID: " ++
    toString request.id ++ "\n").toList).take 39

def wellKnownCoreGet : Int × Server P O :=
  withBuffer s t 0 [.wellKnownCoreGet, .sendReply]

/-- The calls after `coap_packet_init` of the three handlers that describe the request. -/
def describeCalls (type : MsgType) : List Call :=
  [.contentFormat, .payloadMarker, .snprintk (request.describe type),
    .payload (request.describe type), .sendReply]

def piggybackGet : Int × Server P O :=
  withBuffer s t 0
    (.packetInit request.replyType request.token codeContent request.id ::
      describeCalls request request.replyType)

def testDel : Int × Server P O :=
  withBuffer s t 0 [.packetInit request.replyType request.token codeDeleted request.id, .sendReply]

def testPut : Int × Server P O :=
  withBuffer s t 0 [.packetInit request.replyType request.token codeChanged request.id, .sendReply]

def testPost : Int × Server P O :=
  withBuffer s t 0
    [.packetInit request.replyType request.token codeCreated request.id,
      .locationPath "location1", .locationPath "location2", .locationPath "location3", .sendReply]

def queryGet : Int × Server P O :=
  if t.outcome 0 .findOptions < 0 then (-EINVAL, s)
  else
    withBuffer s t 1
      (.packetInit .ack request.token codeContent request.id :: describeCalls request request.type)

def locationQueryPost : Int × Server P O :=
  withBuffer s t 0
    [.packetInit request.replyType request.token codeCreated request.id,
      .locationQuery "first=1", .locationQuery "second=2", .sendReply]

def Request.separateType : MsgType :=
  if request.type = .con then .con else .nonCon

def separateGet : Int × Server P O :=
  if request.type = .ack then (0, s)
  else
    withBuffer s t 0
      (.packetInit .ack request.token 0 request.id :: .sendReply ::
        .packetInit request.separateType request.token codeContent request.id ::
        describeCalls request request.separateType)

def largeGet : Int × Server P O :=
  if t.outcome 0 .updateFromBlock < 0 then (-EINVAL, s)
  else if t.malloc then
    let (data, heap) := s.heap.alloc
    if t.outcome 1 (.packetInit .ack request.token codeContent request.id) < 0 then
      -- returns here, where the other handlers go to `end`
      (-EINVAL, { s with heap := heap })
    else
      (runCalls t.outcome 2 0 [.contentFormat, .block2, .payloadMarker, .blockPayload, .sendReply],
        { s with heap := heap.free data })
  else (-ENOMEM, s)

/-- `get_option_int` of the Block1 option. -/
def Request.getOptionInt : Int := request.block1.getD (-ENOENT)

/-- `GET_MORE`. -/
def getMore (v : Int) : Bool := v / 8 % 2 = 1

def largeUpdatePut : Int × Server P O :=
  let r := request.getOptionInt
  if r < 0 then (-EINVAL, s)
  else
    let lastBlock := !getMore r
    if t.outcome 0 .updateFromBlock < 0 then (-EINVAL, s)
    else if !lastBlock && request.payload.isNone then (-EINVAL, s)
    else
      let code := if lastBlock then codeChanged else codeContinue
      withBuffer s t 1 [.packetInit .ack request.token code request.id, .block1, .sendReply]

def largeCreatePost : Int × Server P O :=
  let r := request.getOptionInt
  if r < 0 then (-EINVAL, s)
  else
    let lastBlock := !getMore r
    if t.outcome 0 .updateFromBlock < 0 then (-EINVAL, s)
    -- `payload` where the handler above has `payload == NULL`
    else if !lastBlock && request.payload.isSome then (-EINVAL, s)
    else
      let code := if lastBlock then codeCreated else codeContinue
      withBuffer s t 1 [.packetInit .ack request.token code request.id, .block1, .sendReply]

/-- The calls before the last one, which turns an error into `-EINVAL`. -/
def coreGet : Int × Server P O :=
  let text := "Just a test\n".toList
  if t.malloc then
    let (data, heap) := s.heap.alloc
    let s := { s with heap := heap.free data }
    let r := runCalls t.outcome 0 0
      [.packetInit .ack request.token codeContent request.id, .payloadMarker,
        .payload (text ++ [Char.ofNat 0])]
    if r < 0 then (-EINVAL, s) else (t.outcome 3 .sendReply, s)
  else (-ENOMEM, s)

/-! ## Notifications -/

/-- Frees the data of an entry of `pendings` and clears the entry. -/
def dropPending (i : Nat) (pending : P) : Server P O :=
  { s with
    heap := s.heap.free (lib.data pending)
    pendings := s.pendings.set i (lib.pendingClear pending) }

def createPendingRequest (response : Packet) (addr : A) : Int × Server P O :=
  match lib.pendingNextUnused s.pendings with
  | none => (-ENOMEM, s)
  | some i =>
    match s.pendings[i]? with
    | none => (-ENOMEM, s)
    | some pending =>
      let (pending, r) := lib.pendingInit pending response addr
      if r < 0 then (-EINVAL, { s with pendings := s.pendings.set i pending })
      else
        let s := { s with pendings := s.pendings.set i (lib.pendingCycle pending).1 }
        match (lib.pendingNextToExpire s.pendings).bind (s.pendings[·]?) with
        | none => (0, s)
        | some next => (0, { s with retransmitWork := some (lib.timeout next) })

/-- `"Counter: %d\n"` in a buffer of 14 bytes. -/
def counterText : List Char :=
  (("Counter: " ++ toString s.obsCounter ++ "\n").toList).take 13

/-- The calls of `send_notification_packet` from `coap_packet_init` to the payload. -/
def notificationCalls (type : MsgType) (age id : Nat) (token : List Nat) : List Call :=
  .packetInit type token codeContent id ::
    ((if 2 ≤ age then [.observe age] else []) ++
      [.contentFormat, .payloadMarker, .snprintk (counterText s), .payload (counterText s)])

def sendNotificationPacket (addr : A) (age id : Nat) (token : List Nat) (isResponse : Bool) :
    Int × Server P O :=
  let type := if isResponse then MsgType.ack else .con
  let id := if isResponse then id else t.nextId
  if t.malloc then
    let (data, heap) := s.heap.alloc
    let s := { s with heap := heap }
    let calls := notificationCalls s type age id token
    let r := runCalls t.outcome 0 0 calls
    if r < 0 then (r, { s with heap := s.heap.free data })
    else if type = .con then
      let (r, s) := createPendingRequest lib s ⟨type, token, codeContent, id, data⟩ addr
      if r < 0 then (r, { s with heap := s.heap.free data })
      else (t.outcome calls.length .sendReply, { s with observerWork := true })
    else
      (t.outcome calls.length .sendReply,
        { s with observerWork := true, heap := s.heap.free data })
  else (-ENOMEM, s)

def obsGet (addr : A) : Int × Server P O :=
  if request.observe then
    match lib.observerNextUnused s.observers with
    | none => (-ENOMEM, s)
    | some i =>
      let s := { s with
        observers := s.observers.modify i fun observer => lib.observerInit observer request addr
        registered := s.registered ++ [i]
        age := lib.ageRegistered s.age
        resourceToNotify := true }
      sendNotificationPacket lib s t addr s.age request.id request.token true
  else sendNotificationPacket lib s t addr 0 request.id request.token true

def obsNotify (observer : O) : Int × Server P O :=
  sendNotificationPacket lib s t (lib.observerAddr observer) s.age 0 (lib.observerToken observer)
    false

/-- `coap_resource_notify`: `obs_notify` for each observer of the resource. -/
def coapResourceNotify (trials : Nat → Trial) : Server P O :=
  (s.registered.zipIdx).foldl
    (fun s entry =>
      match s.observers[entry.1]? with
      | some observer => (obsNotify lib s (trials entry.2) observer).2
      | none => s)
    { s with age := lib.ageNotified s.age }

/-! ## Requests and work items -/

def callHandler (addr : A) : Handler → Int × Server P O
  | .wellKnownCoreGet => wellKnownCoreGet s t
  | .piggybackGet => piggybackGet s t request
  | .testDel => testDel s t request
  | .testPut => testPut s t request
  | .testPost => testPost s t request
  | .queryGet => queryGet s t request
  | .locationQueryPost => locationQueryPost s t request
  | .separateGet => separateGet s t request
  | .largeGet => largeGet s t request
  | .largeUpdatePut => largeUpdatePut s t request
  | .largeCreatePost => largeCreatePost s t request
  | .obsGet => obsGet lib s t request addr
  | .coreGet => coreGet s t request

def coapHandleRequest (addr : A) : Int × Server P O :=
  match lib.find resources request with
  | .error r => (r, s)
  | .ok handler => callHandler lib s t request addr handler

/-- The observer of an address, if a resource has it registered. -/
def registeredObserver (addr : A) : Option Nat :=
  (lib.findObserverByAddr s.observers addr).filter fun o => s.registered.contains o

def processCoapRequest (addr : A) : Server P O :=
  match lib.pendingReceived request.id s.pendings with
  | some i =>
    match s.pendings[i]? with
    | some pending => if request.type = .ack then dropPending lib s i pending else s
    | none => s
  | none =>
    match request.type, registeredObserver lib s addr with
    | .reset, some o => { s with registered := s.registered.erase o }
    | _, _ => (coapHandleRequest lib s t request addr).2

/-- `retransmit_request`, with `retransmit_work` no longer scheduled when it runs. -/
def retransmitRequest : Server P O :=
  let s := { s with retransmitWork := none }
  match lib.pendingNextToExpire s.pendings with
  | none => s
  | some i =>
    match s.pendings[i]? with
    | none => s
    | some pending =>
      let (pending, again) := lib.pendingCycle pending
      if again then
        { s with
          pendings := s.pendings.set i pending
          retransmitWork := some (lib.timeout pending) }
      else dropPending lib s i pending

/-- `update_counter`, with the trials of the notifications that it sends. -/
def updateCounter (trials : Nat → Trial) : Server P O :=
  let s := { s with obsCounter := s.obsCounter + 1 }
  let s := if s.resourceToNotify then coapResourceNotify lib s trials else s
  { s with observerWork := true }

/-- What happens to the server: data from an address that `coap_packet_parse` rejects or accepts, or
the expiry of a work item. -/
inductive Event (A : Type)
  | garbage
  | message (request : Request) (addr : A) (t : Trial)
  | retransmitWork
  | observerWork (trials : Nat → Trial)

/-- One event; a work item expires only when it is scheduled. -/
def step (s : Server P O) : Event A → Server P O
  | .garbage => s
  | .message request addr t => processCoapRequest lib s t request addr
  | .retransmitWork => if s.retransmitWork.isSome then retransmitRequest lib s else s
  | .observerWork trials => if s.observerWork then updateCounter lib s trials else s

/-! ## A library

An instance of `CoapLib` with addresses that are numbers: an entry of `pendings` is in use while its
timeout is not zero, and a timeout that has doubled three times stays and
ends the retransmissions. -/

structure Pending where
  timeout : Int := 0
  id : Nat := 0
  data : Nat := 0
  addr : Nat := 0

structure Observer where
  used : Bool := false
  addr : Nat := 0
  token : List Nat := []

def nextTimeout (timeout : Int) : Int :=
  if timeout = 0 then 2345 else if timeout < 18760 then 2 * timeout else timeout

/-- The entry in use with the smallest timeout, and the first of these. -/
def soonest : List Pending → Option Nat
  | [] => none
  | p :: ps =>
    match soonest ps with
    | none => if p.timeout = 0 then none else some 0
    | some j =>
      if p.timeout = 0 ∨ (ps[j]?.any fun q => decide (q.timeout < p.timeout)) then some (j + 1)
      else some 0

theorem soonest_some {ps : List Pending} {i : Nat} (h : soonest ps = some i) :
    ∃ p, ps[i]? = some p ∧ decide (p.timeout ≠ 0) = true := by
  induction ps generalizing i with
  | nil => cases h
  | cons p ps ih =>
    rw [soonest] at h
    cases hrest : soonest ps with
    | none =>
      rw [hrest] at h
      by_cases hp : p.timeout = 0
      · simp [hp] at h
      · have hi : 0 = i := by simpa [hp] using h
        subst hi
        exact ⟨p, rfl, by simp [hp]⟩
    | some j =>
      rw [hrest] at h
      simp only at h
      split at h
      · cases h
        exact ih hrest
      · next hp =>
        cases h
        exact ⟨p, rfl, by simp [not_or.mp hp]⟩

theorem soonest_none {ps : List Pending} (h : soonest ps = none) :
    ∀ p ∈ ps, decide (p.timeout ≠ 0) = false := by
  induction ps with
  | nil => intro p hp; cases hp
  | cons q ps ih =>
    rw [soonest] at h
    cases hrest : soonest ps with
    | some j =>
      rw [hrest] at h
      simp only at h
      split at h <;> cases h
    | none =>
      rw [hrest] at h
      intro p hp
      rcases List.mem_cons.mp hp with rfl | hp
      · by_contra hne
        have htimeout : p.timeout ≠ 0 := by simpa using hne
        simp [htimeout] at h
      · exact ih hrest p hp

/-- `coap_handle_request` finds a resource by its path and a method by the code. -/
def findMethod (rs : List Resource) (request : Request) : Except Int Handler :=
  match rs.find? fun r => r.path == request.path with
  | none => .error (-ENOENT)
  | some r =>
    let method :=
      match request.code with
      | 1 => r.get
      | 2 => r.post
      | 3 => r.put
      | 4 => r.del
      | _ => none
    method.elim (.error (-EINVAL)) .ok

def zephyrLib : CoapLib Pending Observer Nat where
  zero := {}
  inUse p := decide (p.timeout ≠ 0)
  id p := p.id
  data p := p.data
  timeout p := p.timeout
  pendingNextUnused ps := ps.findIdx? fun p => decide (p.timeout = 0)
  pendingInit _ packet addr := ({ id := packet.id, data := packet.data, addr := addr }, 0)
  pendingCycle p :=
    ({ p with timeout := nextTimeout p.timeout }, decide (nextTimeout p.timeout ≠ p.timeout))
  pendingClear p := { p with timeout := 0 }
  pendingReceived n ps := ps.findIdx? fun p => decide (p.timeout ≠ 0) && decide (p.id = n)
  pendingNextToExpire := soonest
  noObserver := {}
  observerAddr o := o.addr
  observerToken o := o.token
  observerNextUnused os := os.findIdx? fun o => !o.used
  observerInit _ request addr := { used := true, addr := addr, token := request.token }
  findObserverByAddr os addr := os.findIdx? fun o => o.used && decide (o.addr = addr)
  ageRegistered age := if age = 0 then 2 else age
  ageNotified age := age + 1
  find := findMethod
  zero_unused := rfl
  nextUnused_some := by
    intro ps i h
    obtain ⟨hlt, hp, _⟩ := List.findIdx?_eq_some_iff_getElem.mp h
    exact ⟨ps[i], List.getElem?_eq_getElem hlt, by simpa using hp⟩
  init_data := by
    intro p packet addr _
    rfl
  init_fails := by
    intro p packet addr _ h
    exact absurd h (Int.lt_irrefl 0)
  cycle_data := by
    intro p
    rfl
  cycle_init := by
    intro p packet addr _
    rfl
  cycle_again := by
    intro p _
    have hne : nextTimeout p.timeout ≠ 0 := by
      unfold nextTimeout
      split
      · decide
      · split <;> omega
    exact decide_eq_true hne
  clear_unused := by
    intro p
    rfl
  received_some := by
    intro n ps i h
    obtain ⟨hlt, hp, _⟩ := List.findIdx?_eq_some_iff_getElem.mp h
    rw [Bool.and_eq_true] at hp
    exact ⟨ps[i], List.getElem?_eq_getElem hlt, hp.1, of_decide_eq_true hp.2⟩
  nextToExpire_some := by
    intro ps i h
    exact soonest_some h
  nextToExpire_none := by
    intro ps h
    exact soonest_none h

end CoapServer
end ZephyrSamples
