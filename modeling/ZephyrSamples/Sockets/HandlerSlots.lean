import Mathlib.Logic.Function.Basic
import ZephyrSamples.Lib.Handles
import ZephyrSamples.Lib.Runs

/-!
# The connection slots of the threaded servers

`process_tcp` of the dumb HTTP server and of the echo server, for one address family, with the
threads it starts, in any interleaving of their statements.  A slot is a socket number, a mark and a
thread object.  The mark is the thread id in one server and a flag in the other; the handlers of the
two take their slot apart in a different order, and `process_tcp` puts it together in a different
order as well.
-/

namespace ZephyrSamples
namespace HandlerSlots

open Runs Handles

inductive Server where
  | dumbHttp
  | echo
  deriving DecidableEq, Repr

/-- The statement a handler is at: reading its socket number, its loop, and those that take the slot
apart: clearing the mark, closing the socket and setting the socket number to −1. -/
inductive HandlerPc where
  | entry
  | serve
  | unmark
  | close
  | unset
  deriving DecidableEq, Repr

/-- A handler that has not returned; `own` is the descriptor it was started for and `client` its
local variable. -/
structure Handler where
  own : Int
  client : Int
  pc : HandlerPc
  deriving DecidableEq, Repr

/-- `accepted[slot]`, whether `tcp_handler_tid[slot]` is set or `tcp_handler_in_use[slot]` is true,
and the thread object. -/
structure Slot where
  sock : Int
  mark : Bool
  thread : Option Handler
  deriving DecidableEq, Repr

/-- The statement `process_tcp` is at; `pick` is `get_free_slot` with its `i`, `full` what follows
when no slot is free, `tid` the assignment of what `k_thread_create` has returned. -/
inductive Acceptor where
  | accept
  | pick (client : Int) (i : Nat)
  | full (client : Int)
  | assign (client : Int) (slot : Nat)
  | mark (client : Int) (slot : Nat)
  | create (client : Int) (slot : Nat)
  | tid (slot : Nat)
  | stopped
  deriving DecidableEq, Repr

/-- `accepted` are the descriptors `accept` has returned and `closed` those given to `close`;
`overrun` says that `k_thread_create` was called on the object of a thread that had not returned. -/
structure State where
  slot : Nat → Slot
  acceptor : Acceptor
  accepted : List Int
  closed : List Int
  overrun : Bool

/-- What `start_listener` and `start_tcp` set. -/
def start : State where
  slot _ := { sock := -1, mark := false, thread := none }
  acceptor := .accept
  accepted := []
  closed := []
  overrun := false

/-- What a handler goes on with: `none` when the statement is its last one, with which it
returns. -/
def Server.next : Server → HandlerPc → Option HandlerPc
  | _, .entry => some .serve
  | .dumbHttp, .serve => some .close
  | .dumbHttp, .close => some .unset
  | .dumbHttp, .unset => some .unmark
  | .dumbHttp, .unmark => none
  | .echo, .serve => some .unmark
  | .echo, .unmark => some .close
  | .echo, .close => some .unset
  | .echo, .unset => none

namespace State

def setSlot (s : State) (i : Nat) (c : Slot) : State :=
  { s with slot := Function.update s.slot i c }

end State

def Handler.goOn (server : Server) (h : Handler) : Option Handler :=
  (server.next h.pc).map fun pc => { h with pc := pc }

/-- A statement of the handler `h` of slot `i`; `more` says that its loop goes on. -/
def Handler.step (server : Server) (s : State) (i : Nat) (h : Handler) (more : Bool) : State :=
  let c := s.slot i
  let thread := h.goOn server
  match h.pc with
  | .entry => s.setSlot i { c with thread := some { h with client := c.sock, pc := .serve } }
  | .serve => if more then s else s.setSlot i { c with thread := thread }
  | .unmark => s.setSlot i { c with mark := false, thread := thread }
  | .close => { s.setSlot i { c with thread := thread } with closed := s.closed ++ [h.client] }
  | .unset => s.setSlot i { c with sock := -1, thread := thread }

namespace State

/-- `client` is what `accept` returns, an error or a descriptor that is not open. -/
def doAccept (server : Server) (s : State) (client : Int) : State :=
  if client < 0 then
    match server with
    | .dumbHttp => { s with acceptor := .stopped }
    | .echo => s
  else if s.accepted.count client = s.closed.count client then
    { s with acceptor := .pick client 0, accepted := s.accepted ++ [client] }
  else s

/-- `k_thread_create` -/
def threadCreate (s : State) (client : Int) (i : Nat) : State :=
  { s.setSlot i { s.slot i with thread := some { own := client, client := 0, pc := .entry } } with
    overrun := s.overrun || (s.slot i).thread.isSome }

/-- A statement of `process_tcp` with `slots` for `CONFIG_NET_SAMPLE_NUM_HANDLERS`. -/
def processTcp (server : Server) (slots : Nat) (s : State) (client : Int) : State :=
  match s.acceptor with
  | .accept => s.doAccept server client
  | .pick client i =>
    if i < slots then
      if (s.slot i).sock < 0 then { s with acceptor := .assign client i }
      else { s with acceptor := .pick client (i + 1) }
    else { s with acceptor := .full client }
  | .full client => { s with acceptor := .accept, closed := s.closed ++ [client] }
  | .assign client i =>
    let s := s.setSlot i { s.slot i with sock := client }
    match server with
    | .dumbHttp => { s with acceptor := .create client i }
    | .echo => { s with acceptor := .mark client i }
  | .mark client i =>
    { s.setSlot i { s.slot i with mark := true } with acceptor := .create client i }
  | .create client i =>
    match server with
    | .dumbHttp => { s.threadCreate client i with acceptor := .tid i }
    | .echo => { s.threadCreate client i with acceptor := .accept }
  | .tid i => { s.setSlot i { s.slot i with mark := true } with acceptor := .accept }
  | .stopped => s

end State

inductive Event where
  | acceptor (client : Int)
  | handler (i : Nat) (more : Bool)
  deriving DecidableEq, Repr

def step (server : Server) (slots : Nat) (s : State) : Event → State
  | .acceptor client => s.processTcp server slots client
  | .handler i more =>
    match (s.slot i).thread with
    | none => s
    | some h => h.step server s i more

/-! ## What is promised of the slots -/

/-- Whether a handler at this statement has not closed its descriptor, not set the socket number to
−1, and not cleared the mark. -/
def Server.keepsFd : Server → HandlerPc → Bool
  | .dumbHttp, .unset | .dumbHttp, .unmark | .echo, .unset => false
  | _, _ => true

def Server.keepsSock : Server → HandlerPc → Bool
  | .dumbHttp, .unmark => false
  | _, _ => true

def Server.keepsMark : Server → HandlerPc → Bool
  | .echo, .close | .echo, .unset => false
  | _, _ => true

/-- The descriptor `process_tcp` has not given to a handler yet. -/
def Acceptor.client? : Acceptor → Option Int
  | .pick client _ | .full client | .assign client _ | .mark client _ | .create client _ =>
    some client
  | _ => none

/-- Who has still to close a descriptor: `process_tcp` or the handler of a slot. -/
def State.Holds (server : Server) (s : State) : Option Nat → Int → Prop
  | none, fd => s.acceptor.client? = some fd
  | some i, fd => ∃ h, (s.slot i).thread = some h ∧ server.keepsFd h.pc = true ∧ h.own = fd

structure Sound (server : Server) (slots : Nat) (s : State) : Prop where
  notOverrun : s.overrun = false
  marked : s.acceptor = .accept →
    ∀ i < slots, (s.slot i).mark = true ↔ (s.slot i).thread.isSome = true
  accounted : Accounted (s.Holds server) s.accepted s.closed
  own : ∀ i h, (s.slot i).thread = some h → h.pc ≠ .entry → h.client = h.own

/-- Every handler that has not returned has its mark. -/
def State.Quiet (server : Server) (s : State) : Prop :=
  ∀ i h, (s.slot i).thread = some h → server.keepsMark h.pc = true

/-- `process_tcp` comes to a thread object only when its handler has returned, gives a thread id
only to a handler that has not, and does not go back to `accept` while a handler without its mark is
running; and no handler clears its mark before its last statement while `process_tcp` is in
`accept`. -/
def Careful (server : Server) (s : State) : Event → Prop
  | .acceptor _ =>
    match s.acceptor with
    | .full _ => s.Quiet server
    | .create _ i => (s.slot i).thread = none ∧ (server = .echo → s.Quiet server)
    | .tid i => (s.slot i).thread.isSome = true
    | _ => True
  | .handler i _ =>
    ∀ h, (s.slot i).thread = some h → h.pc = .unmark → s.acceptor = .accept →
      server.next .unmark = none

/-! ## A slot and `process_tcp` -/

/-- `process_tcp` has put the descriptor into slot `i` and not yet started its handler. -/
def Acceptor.Gives (a : Acceptor) (client : Int) (i : Nat) : Prop :=
  a = .mark client i ∨ a = .create client i

/-- What holds between a slot and the place of `process_tcp`. -/
structure SlotInv (server : Server) (a : Acceptor) (i : Nat) (c : Slot) : Prop where
  given : ∀ client, a.Gives client i →
    c.sock = client ∧ ∀ h, c.thread = some h → server.keepsSock h.pc = false
  held : ∀ h, c.thread = some h → server.keepsSock h.pc = true → c.sock = h.own
  free : (∀ client, ¬ a.Gives client i) →
    (∀ h, c.thread = some h → server.keepsSock h.pc = false) → c.sock < 0
  assign : ∀ client, a = .assign client i → c.sock < 0
  own : ∀ h, c.thread = some h → 0 ≤ h.own ∧ (h.pc ≠ .entry → h.client = h.own)
  marked : ∀ h, c.thread = some h → a ≠ .tid i → server.keepsMark h.pc = c.mark
  unmarked : c.thread = none → (c.mark = true ↔ server = .echo ∧ ∃ client, a = .create client i)

/-- `process_tcp` is at one of its own statements, with a slot and a descriptor there are. -/
structure Acceptor.Inv (server : Server) (slots : Nat) (a : Acceptor) : Prop where
  client : ∀ client, a.client? = some client → 0 ≤ client
  slot : ∀ client i, (a = .assign client i ∨ a.Gives client i) → i < slots
  tid : ∀ i, a = .tid i → server = .dumbHttp ∧ i < slots
  mark : ∀ client i, a = .mark client i → server = .echo

structure Inv (server : Server) (slots : Nat) (s : State) : Prop where
  notOverrun : s.overrun = false
  acceptor : s.acceptor.Inv server slots
  slot : ∀ i, SlotInv server s.acceptor i (s.slot i)
  inRange : ∀ i, (s.slot i).thread.isSome = true → i < slots
  accounted : Accounted (s.Holds server) s.accepted s.closed

theorem inv_start (server : Server) (slots : Nat) : Inv server slots start where
  notOverrun := rfl
  acceptor := ⟨by simp [start, Acceptor.client?], by simp [start, Acceptor.Gives], by simp [start],
    by simp [start]⟩
  slot i := by
    constructor <;> simp [start, Acceptor.Gives]
  inRange i h := by simp [start] at h
  accounted := accounted_nil fun p fd => by cases p <;> simp [State.Holds, start, Acceptor.client?]

variable {server : Server} {slots : Nat} {s : State}

theorem keepsMark_dumbHttp (pc : HandlerPc) : Server.keepsMark .dumbHttp pc = true := by
  cases pc <;> rfl

/-- Statements of `process_tcp` outside the slots leave a slot as it was. -/
theorem SlotInv.move {a a' : Acceptor} {i : Nat} {c : Slot} (h : SlotInv server a i c)
    (hgives : ∀ client, ¬ a.Gives client i) (hgives' : ∀ client, ¬ a'.Gives client i)
    (htid : a' = .tid i ↔ a = .tid i) (hassign : ∀ client, a' = .assign client i → c.sock < 0) :
    SlotInv server a' i c := by
  have hcreate : ∀ client, a ≠ .create client i := fun client ha => hgives client (.inr ha)
  have hcreate' : ∀ client, a' ≠ .create client i := fun client ha => hgives' client (.inr ha)
  exact {
    given := fun client ha => absurd ha (hgives' client)
    held := h.held
    free := fun _ => h.free hgives
    assign := hassign
    own := h.own
    marked := fun k hk hne => h.marked k hk (fun ha => hne (htid.mpr ha))
    unmarked := fun hk => by simpa [hcreate, hcreate'] using h.unmarked hk }

@[simp] theorem setSlot_self (i : Nat) (c : Slot) : (s.setSlot i c).slot i = c := by
  simp [State.setSlot]

theorem setSlot_of_ne {i j : Nat} (c : Slot) (hne : j ≠ i) : (s.setSlot i c).slot j = s.slot j := by
  simp [State.setSlot, hne]

/-- A step on slot `i` keeps the invariant of the slots. -/
theorem slotInv_setSlot {a : Acceptor} {i : Nat} {c : Slot}
    (hslots : ∀ j, SlotInv server s.acceptor j (s.slot j)) (hself : SlotInv server a i c)
    (hother : ∀ j, j ≠ i → SlotInv server s.acceptor j (s.slot j) → SlotInv server a j (s.slot j))
    (j : Nat) : SlotInv server a j ((s.setSlot i c).slot j) := by
  rcases eq_or_ne j i with rfl | hne
  · rw [setSlot_self]
    exact hself
  · rw [setSlot_of_ne c hne]
    exact hother j hne (hslots j)

theorem inRange_setSlot {i : Nat} {c : Slot}
    (hrange : ∀ j, (s.slot j).thread.isSome = true → j < slots)
    (hself : c.thread.isSome = true → i < slots) (j : Nat)
    (hj : ((s.setSlot i c).slot j).thread.isSome = true) : j < slots := by
  rcases eq_or_ne j i with rfl | hne
  · rw [setSlot_self] at hj
    exact hself hj
  · rw [setSlot_of_ne c hne] at hj
    exact hrange j hj

/-- A socket number below 0 is that of no handler that still counts on it. -/
theorem SlotInv.released {a : Acceptor} {i : Nat} {c : Slot} (h : SlotInv server a i c)
    (hsock : c.sock < 0) {k : Handler} (hk : c.thread = some k) :
    server.keepsSock k.pc = false := by
  cases hkeeps : server.keepsSock k.pc with
  | false => rfl
  | true =>
    have heq := h.held k hk hkeeps
    have hown := (h.own k hk).1
    omega

/-- Who holds what depends on the place of `process_tcp` and on the threads. -/
theorem holds_congr {s' : State} (hclient : s'.acceptor.client? = s.acceptor.client?)
    (hthread : ∀ i, (s'.slot i).thread = (s.slot i).thread) (p : Option Nat) (fd : Int) :
    s'.Holds server p fd ↔ s.Holds server p fd := by
  cases p with
  | none => simp only [State.Holds, hclient]
  | some i => simp only [State.Holds, hthread]

theorem thread_setSlot {i : Nat} {c : Slot} (h : c.thread = (s.slot i).thread) (j : Nat) :
    ((s.setSlot i c).slot j).thread = (s.slot j).thread := by
  rcases eq_or_ne j i with rfl | hne
  · rw [setSlot_self, h]
  · rw [setSlot_of_ne c hne]

theorem Inv.doAccept (h : Inv server slots s) (hat : s.acceptor = .accept) (client : Int) :
    Inv server slots (s.doAccept server client) := by
  have hmove : ∀ a, (∀ i d, ¬ a.Gives d i) → (∀ i, a ≠ .tid i) → (∀ i d, a ≠ .assign d i) →
      ∀ i, SlotInv server a i (s.slot i) := fun a hgives htid hassign i =>
    (h.slot i).move (by simp [hat, Acceptor.Gives]) (hgives i) (by simp [hat, htid])
      fun d ha => absurd ha (hassign i d)
  unfold State.doAccept
  split
  · cases server with
    | dumbHttp =>
      exact ⟨h.notOverrun, by constructor <;> simp [Acceptor.client?, Acceptor.Gives],
        hmove _ (by simp [Acceptor.Gives]) (by simp) (by simp), h.inRange,
        h.accounted.congr (holds_congr (by simp [hat, Acceptor.client?]) fun _ => rfl)⟩
    | echo => exact h
  · split
    case isTrue hpos hfree =>
      refine ⟨h.notOverrun, ?_, hmove _ (by simp [Acceptor.Gives]) (by simp) (by simp), h.inRange,
        ?_⟩
      · constructor <;> simp [Acceptor.client?, Acceptor.Gives]
        omega
      · refine h.accounted.acquire (p := none) hfree fun q fd => ?_
        cases q with
        | none => simp [State.Holds, hat, Acceptor.client?, eq_comm]
        | some i => simp [State.Holds]
    case isFalse => exact h

theorem Inv.pick (h : Inv server slots s) {client : Int} {i : Nat}
    (hat : s.acceptor = .pick client i) (a : Acceptor)
    (ha : a = .assign client i ∧ (s.slot i).sock < 0 ∧ i < slots ∨ a = .pick client (i + 1) ∨
      a = .full client) : Inv server slots { s with acceptor := a } := by
  have hpos := h.acceptor.client client (by rw [hat]; rfl)
  have hmove : ∀ j, SlotInv server a j (s.slot j) := by
    intro j
    refine (h.slot j).move (by simp [hat, Acceptor.Gives]) ?_ ?_ ?_
    · rcases ha with ⟨rfl, _⟩ | rfl | rfl <;> simp [Acceptor.Gives]
    · rcases ha with ⟨rfl, _⟩ | rfl | rfl <;> simp [hat]
    · rcases ha with ⟨rfl, hfree, _⟩ | rfl | rfl
      · rintro d ⟨⟩
        exact hfree
      · simp
      · simp
  refine ⟨h.notOverrun, ?_, hmove, h.inRange, h.accounted.congr (holds_congr ?_ fun _ => rfl)⟩
  · rcases ha with ⟨rfl, _, hlt⟩ | rfl | rfl
    · constructor <;> simp [Acceptor.client?, Acceptor.Gives, hpos, hlt]
    · constructor <;> simp [Acceptor.client?, Acceptor.Gives, hpos]
    · constructor <;> simp [Acceptor.client?, Acceptor.Gives, hpos]
  · rcases ha with ⟨rfl, _⟩ | rfl | rfl <;> simp [hat, Acceptor.client?]

theorem Inv.full (h : Inv server slots s) {client : Int} (hat : s.acceptor = .full client) :
    Inv server slots { s with acceptor := .accept, closed := s.closed ++ [client] } := by
  refine ⟨h.notOverrun, ?_, fun i => ?_, h.inRange, ?_⟩
  · constructor <;> simp [Acceptor.client?, Acceptor.Gives]
  · exact (h.slot i).move (by simp [hat, Acceptor.Gives]) (by simp [Acceptor.Gives]) (by simp [hat])
      (by simp)
  · have hholds : s.Holds server none client := by rw [State.Holds, hat]; rfl
    refine h.accounted.release hholds fun q fd => ?_
    cases q with
    | none => simp [State.Holds, hat, Acceptor.client?, eq_comm]
    | some i => simp [State.Holds]

/-- The statement before `k_thread_create`: the slot has the descriptor, or the mark as well. -/
theorem Inv.give (h : Inv server slots s) {client : Int} {i : Nat} {a : Acceptor} {c : Slot}
    (hlt : i < slots) (hsame : c.thread = (s.slot i).thread)
    (hclient : s.acceptor.client? = some client)
    (hat : s.acceptor = .assign client i ∨ s.acceptor = .mark client i)
    (ha : a = .mark client i ∧ server = .echo ∨ a = .create client i)
    (hself : SlotInv server a i c) :
    Inv server slots { s.setSlot i c with acceptor := a } := by
  have hpos := h.acceptor.client client hclient
  refine ⟨h.notOverrun, ?_, fun j => ?_, fun j => ?_, ?_⟩
  · rcases ha with ⟨rfl, hecho⟩ | rfl
    · constructor <;> simp [Acceptor.client?, Acceptor.Gives, hpos, hlt, hecho]
    · constructor <;> simp [Acceptor.client?, Acceptor.Gives, hpos, hlt]
  · refine slotInv_setSlot h.slot hself (fun j hne hj => hj.move ?_ ?_ ?_ ?_) j
    · rcases hat with hat | hat <;> simp [hat, Acceptor.Gives, hne.symm]
    · rcases ha with ⟨rfl, _⟩ | rfl <;> simp [Acceptor.Gives, hne.symm]
    · rcases hat with hat | hat <;> rcases ha with ⟨rfl, _⟩ | rfl <;> simp [hat]
    · rcases ha with ⟨rfl, _⟩ | rfl <;> simp
  · exact inRange_setSlot h.inRange (fun _ => hlt) j
  · refine h.accounted.congr (holds_congr ?_ (thread_setSlot hsame))
    rcases ha with ⟨rfl, _⟩ | rfl <;> rw [hclient] <;> rfl

theorem Inv.assign (h : Inv server slots s) {client : Int} {i : Nat}
    (hat : s.acceptor = .assign client i) {a : Acceptor}
    (ha : a = .mark client i ∧ server = .echo ∨ a = .create client i ∧ server = .dumbHttp) :
    Inv server slots { s.setSlot i { s.slot i with sock := client } with acceptor := a } := by
  have hi := h.slot i
  have hfree := hi.assign client hat
  have hlt := h.acceptor.slot client i (.inl hat)
  refine h.give hlt rfl (by rw [hat]; rfl) (.inl hat) (ha.imp_right And.left) ?_
  have hmarked : ∀ k, (s.slot i).thread = some k → server.keepsMark k.pc = (s.slot i).mark :=
    fun k hk => hi.marked k hk (by simp [hat])
  have hunmarked : (s.slot i).thread = none → (s.slot i).mark = false := fun hk => by
    simpa [hat] using hi.unmarked hk
  exact {
    given := fun d hd => by
      refine ⟨?_, fun k hk => hi.released hfree hk⟩
      rcases ha with ⟨rfl, _⟩ | ⟨rfl, _⟩ <;> simpa [Acceptor.Gives] using hd
    held := fun k hk hkeeps => by simp [hi.released hfree hk] at hkeeps
    free := fun hno => by
      rcases ha with ⟨rfl, _⟩ | ⟨rfl, _⟩
      · exact absurd (.inl rfl) (hno client)
      · exact absurd (.inr rfl) (hno client)
    assign := fun d hd => by rcases ha with ⟨rfl, _⟩ | ⟨rfl, _⟩ <;> simp at hd
    own := hi.own
    marked := fun k hk _ => hmarked k hk
    unmarked := fun hk => by
      rcases ha with ⟨rfl, _⟩ | ⟨rfl, hserver⟩
      · simpa using hunmarked hk
      · simpa [hserver] using hunmarked hk }

theorem Inv.thread_none (h : Inv .echo slots s) {client : Int} {i : Nat}
    (hgives : s.acceptor.Gives client i) : (s.slot i).thread = none := by
  cases hk : (s.slot i).thread with
  | none => rfl
  | some k => simpa [Server.keepsSock] using ((h.slot i).given client hgives).2 k hk

theorem Inv.mark (h : Inv server slots s) {client : Int} {i : Nat}
    (hat : s.acceptor = .mark client i) :
    Inv server slots
      { s.setSlot i { s.slot i with mark := true } with acceptor := .create client i } := by
  obtain rfl := h.acceptor.mark client i hat
  have hi := h.slot i
  have hnone := h.thread_none (.inl hat)
  have hsock := (hi.given client (.inl hat)).1
  have hlt := h.acceptor.slot client i (.inr (.inl hat))
  refine h.give hlt rfl (by rw [hat]; rfl) (.inr hat) (.inr rfl) ?_
  constructor <;> simp [hnone, hsock, Acceptor.Gives]

/-- The handler that is created has its slot in the state its first statement relies on. -/
theorem Inv.create (h : Inv server slots s) {client : Int} {i : Nat} {a : Acceptor}
    (hat : s.acceptor = .create client i) (hnone : (s.slot i).thread = none)
    (ha : a = .tid i ∧ server = .dumbHttp ∨ a = .accept ∧ server = .echo) :
    Inv server slots { s.threadCreate client i with acceptor := a } := by
  have hi := h.slot i
  have hsock := (hi.given client (.inr hat)).1
  have hlt := h.acceptor.slot client i (.inr (.inr hat))
  have hpos := h.acceptor.client client (by rw [hat]; rfl)
  have hclient : a.client? = none := by rcases ha with ⟨rfl, _⟩ | ⟨rfl, _⟩ <;> rfl
  have hgives : ∀ d j, ¬ a.Gives d j := by
    rcases ha with ⟨rfl, _⟩ | ⟨rfl, _⟩ <;> simp [Acceptor.Gives]
  refine ⟨?_, ?_, fun j => ?_, fun j => ?_, ?_⟩
  · simp [State.threadCreate, h.notOverrun, hnone]
  · rcases ha with ⟨rfl, hserver⟩ | ⟨rfl, _⟩
    · constructor <;> simp [Acceptor.client?, Acceptor.Gives, hserver, hlt]
    · constructor <;> simp [Acceptor.client?, Acceptor.Gives]
  · refine slotInv_setSlot h.slot ?_ (fun j hne hj => hj.move ?_ ?_ ?_ ?_) j
    · have hunmarked := hi.unmarked hnone
      rcases ha with ⟨rfl, rfl⟩ | ⟨rfl, rfl⟩
      · constructor <;> simp [Acceptor.Gives, Server.keepsSock, hsock, hpos]
      · constructor <;>
          simp [Acceptor.Gives, Server.keepsSock, Server.keepsMark, hsock, hpos, hunmarked, hat]
    · simp [hat, Acceptor.Gives, hne.symm]
    · exact fun d => hgives d j
    · rcases ha with ⟨rfl, _⟩ | ⟨rfl, _⟩ <;> simp [hat, hne.symm]
    · rcases ha with ⟨rfl, _⟩ | ⟨rfl, _⟩ <;> simp
  · exact inRange_setSlot h.inRange (fun _ => hlt) j
  · have hholds : s.Holds server none client := by rw [State.Holds, hat]; rfl
    refine h.accounted.move (q := some i) hholds fun r fd => ?_
    cases r with
    | none =>
      simp only [State.Holds, hclient, hat]
      simp [Acceptor.client?, eq_comm]
    | some j =>
      simp only [State.Holds]
      rcases eq_or_ne j i with rfl | hne
      · have hkeeps : server.keepsFd .entry = true := by cases server <;> rfl
        simp [State.threadCreate, hnone, hkeeps, eq_comm (b := fd)]
      · simp [State.threadCreate, setSlot_of_ne _ hne, hne]

theorem Inv.tid (h : Inv server slots s) {i : Nat} (hat : s.acceptor = .tid i)
    (hrunning : (s.slot i).thread.isSome = true) :
    Inv server slots { s.setSlot i { s.slot i with mark := true } with acceptor := .accept } := by
  obtain ⟨rfl, hlt⟩ := h.acceptor.tid i hat
  have hi := h.slot i
  refine ⟨h.notOverrun, ?_, fun j => ?_, fun j => ?_, ?_⟩
  · constructor <;> simp [Acceptor.client?, Acceptor.Gives]
  · refine slotInv_setSlot h.slot ?_ (fun j hne hj => hj.move ?_ ?_ ?_ ?_) j
    · have hnot : ∀ d, ¬ s.acceptor.Gives d i := by simp [hat, Acceptor.Gives]
      exact {
        given := by simp [Acceptor.Gives]
        held := hi.held
        free := fun _ => hi.free hnot
        assign := by simp
        own := hi.own
        marked := fun k _ _ => keepsMark_dumbHttp k.pc
        unmarked := fun hk => by simp [show (s.slot i).thread = none from hk] at hrunning }
    · simp [hat, Acceptor.Gives]
    · simp [Acceptor.Gives]
    · simp [hat, hne.symm]
    · simp
  · exact inRange_setSlot h.inRange (fun _ => hlt) j
  · exact h.accounted.congr (holds_congr (by simp [hat, Acceptor.client?]) (thread_setSlot rfl))

theorem Inv.processTcp (h : Inv server slots s) (client : Int)
    (hcreate : ∀ c i, s.acceptor = .create c i → (s.slot i).thread = none)
    (htid : ∀ i, s.acceptor = .tid i → (s.slot i).thread.isSome = true) :
    Inv server slots (s.processTcp server slots client) := by
  unfold State.processTcp
  cases hat : s.acceptor with
  | accept => exact h.doAccept hat client
  | pick c i =>
    by_cases hlt : i < slots
    · simp only [hlt, if_true]
      split
      case isTrue hfree => exact h.pick hat _ (.inl ⟨rfl, hfree, hlt⟩)
      case isFalse => exact h.pick hat _ (.inr (.inl rfl))
    · simp only [hlt, if_false]
      exact h.pick hat _ (.inr (.inr rfl))
  | full c => exact h.full hat
  | assign c i =>
    cases server with
    | dumbHttp => exact h.assign hat (.inr ⟨rfl, rfl⟩)
    | echo => exact h.assign hat (.inl ⟨rfl, rfl⟩)
  | mark c i => exact h.mark hat
  | create c i =>
    have hnone := hcreate c i hat
    cases server with
    | dumbHttp => exact h.create hat hnone (.inl ⟨rfl, rfl⟩)
    | echo => exact h.create hat hnone (.inr ⟨rfl, rfl⟩)
  | tid i => exact h.tid hat (htid i hat)
  | stopped => exact h

/-! ## The handlers -/

/-- The handler goes on to a statement at which it still needs what it needed of its slot. -/
theorem SlotInv.setThread {a : Acceptor} {i : Nat} {c : Slot} {k k' : Handler}
    (h : SlotInv server a i c) (hk : c.thread = some k) (hown : k'.own = k.own)
    (hclient : k'.client = k.own) (hsock : server.keepsSock k'.pc = server.keepsSock k.pc)
    (hmark : server.keepsMark k'.pc = server.keepsMark k.pc) :
    SlotInv server a i { c with thread := some k' } where
  given client ha := by
    obtain ⟨hgiven, hno⟩ := h.given client ha
    refine ⟨hgiven, fun k₀ hk₀ => ?_⟩
    obtain rfl : k' = k₀ := by simpa using hk₀
    exact hsock.trans (hno k hk)
  held k₀ hk₀ hkeeps := by
    obtain rfl : k' = k₀ := by simpa using hk₀
    exact (h.held k hk (hsock.symm.trans hkeeps)).trans hown.symm
  free hgives hno := by
    refine h.free hgives fun k₀ hk₀ => ?_
    obtain rfl : k = k₀ := by simpa [hk] using hk₀
    exact hsock.symm.trans (hno k' rfl)
  assign := h.assign
  own k₀ hk₀ := by
    obtain rfl : k' = k₀ := by simpa using hk₀
    exact ⟨hown ▸ (h.own k hk).1, fun _ => hclient.trans hown.symm⟩
  marked k₀ hk₀ htid := by
    obtain rfl : k' = k₀ := by simpa using hk₀
    exact hmark.trans (h.marked k hk htid)
  unmarked hnone := by simp at hnone

/-- A handler that counts on its socket number is not given another one. -/
theorem SlotInv.not_gives {a : Acceptor} {i : Nat} {c : Slot} {k : Handler}
    (h : SlotInv server a i c) (hk : c.thread = some k) (hkeeps : server.keepsSock k.pc = true)
    (client : Int) : ¬ a.Gives client i := by
  intro ha
  have hno := (h.given client ha).2 k hk
  simp [hkeeps] at hno

/-- The handler of the HTTP server returns, its slot without a mark. -/
theorem SlotInv.unmark_dumbHttp {a : Acceptor} {i : Nat} {c : Slot} {own client : Int}
    (h : SlotInv .dumbHttp a i c) (hk : c.thread = some ⟨own, client, .unmark⟩) :
    SlotInv .dumbHttp a i { c with mark := false, thread := none } := by
  have hreleased : ∀ k, c.thread = some k → Server.keepsSock .dumbHttp k.pc = false := by
    simp [hk, Server.keepsSock]
  exact {
    given := fun client ha => ⟨(h.given client ha).1, by simp⟩
    held := by simp
    free := fun hgives _ => h.free hgives hreleased
    assign := h.assign
    own := by simp
    marked := by simp
    unmarked := by simp }

/-- The handler of the echo server takes the mark away and has its socket still to close. -/
theorem SlotInv.unmark_echo {a : Acceptor} {i : Nat} {c : Slot} {own client : Int}
    (h : SlotInv .echo a i c) (hk : c.thread = some ⟨own, client, .unmark⟩) :
    SlotInv .echo a i { c with mark := false, thread := some ⟨own, client, .close⟩ } := by
  have hgives := h.not_gives hk rfl
  have hsock : c.sock = own := h.held _ hk rfl
  exact {
    given := fun client ha => absurd ha (hgives client)
    held := by simp [hsock]
    free := by simp [Server.keepsSock]
    assign := h.assign
    own := by simpa using h.own _ hk
    marked := by simp [Server.keepsMark]
    unmarked := by simp }

/-- The handler of the HTTP server resets its socket number and has its mark still to take away. -/
theorem SlotInv.unset_dumbHttp {a : Acceptor} {i : Nat} {c : Slot} {own client : Int}
    (h : SlotInv .dumbHttp a i c) (hk : c.thread = some ⟨own, client, .unset⟩) :
    SlotInv .dumbHttp a i { c with sock := -1, thread := some ⟨own, client, .unmark⟩ } := by
  have hgives := h.not_gives hk rfl
  exact {
    given := fun client ha => absurd ha (hgives client)
    held := by simp [Server.keepsSock]
    free := by simp
    assign := by simp
    own := by simpa using h.own _ hk
    marked := fun k _ ha => (keepsMark_dumbHttp k.pc).trans (h.marked _ hk ha)
    unmarked := by simp }

/-- The handler of the echo server returns, its slot without a socket number. -/
theorem SlotInv.unset_echo {a : Acceptor} {i : Nat} {c : Slot} {own client : Int}
    (h : SlotInv .echo a i c) (htid : a ≠ .tid i)
    (hk : c.thread = some ⟨own, client, .unset⟩) :
    SlotInv .echo a i { c with sock := -1, thread := none } := by
  have hgives := h.not_gives hk rfl
  have hmark : false = c.mark := h.marked _ hk htid
  have hcreate : ∀ client, a ≠ .create client i := fun client ha => hgives client (.inr ha)
  exact {
    given := fun client ha => absurd ha (hgives client)
    held := by simp
    free := by simp
    assign := by simp
    own := by simp
    marked := by simp
    unmarked := by simp [← hmark, hcreate] }

/-- A statement of the handler keeps what holds of its slot. -/
theorem SlotInv.handler {a : Acceptor} {i : Nat} {c : Slot} {k : Handler}
    (h : SlotInv server a i c) (htid : ∀ i, a = .tid i → server = .dumbHttp)
    (hk : c.thread = some k) :
    SlotInv server a i (match k.pc with
      | .entry => { c with thread := some { k with client := c.sock, pc := .serve } }
      | .serve => { c with thread := k.goOn server }
      | .unmark => { c with mark := false, thread := k.goOn server }
      | .close => { c with thread := k.goOn server }
      | .unset => { c with sock := -1, thread := k.goOn server }) := by
  obtain ⟨own, client, pc⟩ := k
  have hclient := (h.own _ hk).2
  cases pc with
  | entry =>
    have hsock : c.sock = own := h.held _ hk (by cases server <;> rfl)
    exact h.setThread hk rfl hsock (by cases server <;> rfl) (by cases server <;> rfl)
  | serve =>
    cases server with
    | dumbHttp => exact h.setThread hk rfl (hclient (by simp)) rfl rfl
    | echo => exact h.setThread hk rfl (hclient (by simp)) rfl rfl
  | close =>
    cases server with
    | dumbHttp => exact h.setThread hk rfl (hclient (by simp)) rfl rfl
    | echo => exact h.setThread hk rfl (hclient (by simp)) rfl rfl
  | unmark =>
    cases server with
    | dumbHttp => exact h.unmark_dumbHttp hk
    | echo => exact h.unmark_echo hk
  | unset =>
    cases server with
    | dumbHttp => exact h.unset_dumbHttp hk
    | echo => exact h.unset_echo (fun hat => by simpa using htid i hat) hk

/-- Whether a thread has still to close `fd`. -/
def Closes (server : Server) (thread : Option Handler) (fd : Int) : Prop :=
  ∃ h, thread = some h ∧ server.keepsFd h.pc = true ∧ h.own = fd

theorem Inv.setSlot (h : Inv server slots s) {i : Nat} {c : Slot}
    (hself : SlotInv server s.acceptor i c) (hlt : i < slots)
    (hcloses : ∀ fd, Closes server c.thread fd ↔ Closes server (s.slot i).thread fd) :
    Inv server slots (s.setSlot i c) := by
  refine ⟨h.notOverrun, h.acceptor, slotInv_setSlot h.slot hself fun _ _ hj => hj,
    inRange_setSlot h.inRange fun _ => hlt, h.accounted.congr fun p fd => ?_⟩
  cases p with
  | none => exact Iff.rfl
  | some j =>
    rcases eq_or_ne j i with rfl | hne
    · simpa [State.Holds, Closes] using hcloses fd
    · simp only [State.Holds, setSlot_of_ne c hne]

theorem Inv.closeSlot (h : Inv server slots s) {i : Nat} {c : Slot} {fd : Int}
    (hself : SlotInv server s.acceptor i c) (hlt : i < slots)
    (hcloses : ∀ e, Closes server (s.slot i).thread e ↔ e = fd)
    (hdone : ∀ e, ¬ Closes server c.thread e) :
    Inv server slots { s.setSlot i c with closed := s.closed ++ [fd] } := by
  have hholds : s.Holds server (some i) fd := (hcloses fd).mpr rfl
  refine ⟨h.notOverrun, h.acceptor, slotInv_setSlot h.slot hself fun _ _ hj => hj,
    inRange_setSlot h.inRange fun _ => hlt, h.accounted.release hholds fun p e => ?_⟩
  cases p with
  | none => simp [State.Holds, State.setSlot]
  | some j =>
    rcases eq_or_ne j i with rfl | hne
    · have hold := hcloses e
      have hnew := hdone e
      simp only [Closes] at hold hnew
      simp [State.Holds, hold, hnew]
    · simp [State.Holds, setSlot_of_ne c hne, hne]

theorem Inv.handler (h : Inv server slots s) (i : Nat) (more : Bool) :
    Inv server slots (step server slots s (.handler i more)) := by
  cases hk : (s.slot i).thread with
  | none => simpa [step, hk] using h
  | some k =>
    have hi := (h.slot i).handler (fun i hat => (h.acceptor.tid i hat).1) hk
    have hlt := h.inRange i (by simp [hk])
    obtain ⟨own, client, pc⟩ := k
    simp only [step, hk, Handler.step]
    cases pc with
    | entry =>
      refine h.setSlot hi hlt fun fd => ?_
      cases server <;> simp [hk, Closes, Server.keepsFd]
    | serve =>
      cases more with
      | true => exact h
      | false =>
        refine h.setSlot hi hlt fun fd => ?_
        cases server <;> simp [hk, Closes, Handler.goOn, Server.next, Server.keepsFd]
    | unmark =>
      refine h.setSlot hi hlt fun fd => ?_
      cases server <;> simp [hk, Closes, Handler.goOn, Server.next, Server.keepsFd]
    | close =>
      obtain rfl : client = own := ((h.slot i).own _ hk).2 (by simp)
      refine h.closeSlot hi hlt (fun e => ?_) fun e => ?_
      · cases server <;> simpa [hk, Closes, Server.keepsFd] using eq_comm
      · cases server <;> simp [Closes, Handler.goOn, Server.next, Server.keepsFd]
    | unset =>
      refine h.setSlot hi hlt fun fd => ?_
      cases server <;> simp [hk, Closes, Handler.goOn, Server.next, Server.keepsFd]

/-- In the echo server a slot is free only when its handler has returned, whatever the order. -/
theorem Inv.step_echo (h : Inv .echo slots s) (e : Event) :
    Inv .echo slots (step .echo slots s e) := by
  cases e with
  | acceptor client =>
    refine h.processTcp client (fun c i hat => h.thread_none (.inr hat)) fun i hat => ?_
    exact absurd (h.acceptor.tid i hat).1 (by decide)
  | handler i more => exact h.handler i more

/-! ## Runs -/

/-- What a careful run keeps: in `accept` every handler has its mark. -/
structure Settled (server : Server) (slots : Nat) (s : State) : Prop
    extends Inv server slots s where
  quiet : s.acceptor = .accept → s.Quiet server

theorem Settled.sound (h : Settled server slots s) : Sound server slots s where
  notOverrun := h.notOverrun
  marked hat i _ := by
    cases hk : (s.slot i).thread with
    | none => simpa [hat] using (h.slot i).unmarked hk
    | some k =>
      have hmark := (h.slot i).marked k hk (by simp [hat])
      simp [← hmark, h.quiet hat i k hk]
  accounted := h.accounted
  own i k hk := ((h.slot i).own k hk).2

theorem quiet_setSlot {i : Nat} {c : Slot} (hq : ∀ j, j ≠ i → ∀ k, (s.slot j).thread = some k →
    server.keepsMark k.pc = true) (hself : ∀ k, c.thread = some k → server.keepsMark k.pc = true) :
    (s.setSlot i c).Quiet server := by
  intro j k hk
  rcases eq_or_ne j i with rfl | hne
  · rw [setSlot_self] at hk
    exact hself k hk
  · rw [setSlot_of_ne c hne] at hk
    exact hq j hne k hk

/-- The statements with which `process_tcp` goes back to `accept`. -/
theorem Settled.quiet_processTcp (h : Settled server slots s) (client : Int)
    (hcareful : Careful server s (.acceptor client))
    (hat : (s.processTcp server slots client).acceptor = .accept) :
    (s.processTcp server slots client).Quiet server := by
  unfold State.processTcp at hat ⊢
  simp only [Careful] at hcareful
  cases hpc : s.acceptor with
  | accept =>
    have hq := h.quiet hpc
    simp only [hpc, State.doAccept] at hat ⊢
    split
    · cases server with
      | dumbHttp => exact hq
      | echo => exact hq
    · split
      · exact hq
      · exact hq
  | pick c i =>
    simp only [hpc] at hat
    split at hat
    · split at hat <;> simp at hat
    · simp at hat
  | full c =>
    rw [hpc] at hcareful
    exact hcareful
  | assign c i => cases server <;> simp [hpc] at hat
  | mark c i => simp [hpc] at hat
  | create c i =>
    rw [hpc] at hcareful
    cases server with
    | dumbHttp => simp [hpc] at hat
    | echo =>
      have hq := hcareful.2 rfl
      exact quiet_setSlot (fun j _ => hq j) (by simp [Server.keepsMark])
  | tid i =>
    obtain ⟨rfl, _⟩ := h.acceptor.tid i hpc
    exact fun j k _ => keepsMark_dumbHttp k.pc
  | stopped => simp [hpc] at hat

theorem Settled.quiet_handler (h : Settled server slots s) (i : Nat) (more : Bool)
    (hcareful : Careful server s (.handler i more))
    (hat : (step server slots s (.handler i more)).acceptor = .accept) :
    (step server slots s (.handler i more)).Quiet server := by
  cases hk : (s.slot i).thread with
  | none => simpa [step, hk] using h.quiet (by simpa [step, hk] using hat)
  | some k =>
    have hbefore : s.acceptor = .accept := by
      simp only [step, hk, Handler.step] at hat
      split at hat <;> try split at hat
      all_goals exact hat
    have hq := h.quiet hbefore
    have hcleared := hcareful k hk
    have hkeeps := hq i k hk
    obtain ⟨own, client, pc⟩ := k
    cases server with
    | dumbHttp => exact fun j k _ => keepsMark_dumbHttp k.pc
    | echo =>
      simp only [step, hk, Handler.step]
      cases pc with
      | entry => exact quiet_setSlot (fun j _ => hq j) (by simp [Server.keepsMark])
      | serve =>
        cases more with
        | true => exact hq
        | false =>
          exact quiet_setSlot (fun j _ => hq j)
            (by simp [Handler.goOn, Server.next, Server.keepsMark])
      | unmark => simp [Server.next, hbefore] at hcleared
      | close => simp [Server.keepsMark] at hkeeps
      | unset => simp [Server.keepsMark] at hkeeps

theorem Settled.step (h : Settled server slots s) (e : Event) (hcareful : Careful server s e) :
    Settled server slots (step server slots s e) := by
  cases e with
  | acceptor client =>
    refine ⟨h.toInv.processTcp client (fun c i hat => ?_) fun i hat => ?_,
      h.quiet_processTcp client hcareful⟩
    · simp only [Careful, hat] at hcareful
      exact hcareful.1
    · simpa only [Careful, hat] using hcareful
  | handler i more => exact ⟨h.toInv.handler i more, h.quiet_handler i more hcareful⟩

/-- A running handler has its mark where a sound state shows it. -/
theorem Settled.keepsMark_of_mark (h : Settled server slots s) {i : Nat} {k : Handler}
    (hk : (s.slot i).thread = some k) (htid : s.acceptor ≠ .tid i)
    (hmark : (s.slot i).thread.isSome = true → (s.slot i).mark = true) :
    server.keepsMark k.pc = true :=
  ((h.slot i).marked k hk htid).trans (hmark (by simp [hk]))

/-- A step that is not careful ends in a state that is not sound. -/
theorem Settled.careful (h : Settled server slots s) (e : Event)
    (hsound : Sound server slots (HandlerSlots.step server slots s e)) : Careful server s e := by
  cases e with
  | acceptor client =>
    simp only [HandlerSlots.step, State.processTcp] at hsound
    simp only [Careful]
    cases hat : s.acceptor with
    | full c =>
      simp only [hat] at hsound
      intro i k hk
      have hlt := h.inRange i (by simp [hk])
      exact h.keepsMark_of_mark hk (by simp [hat]) (hsound.marked rfl i hlt).mpr
    | create c i =>
      have hnone : (s.slot i).thread = none := by
        have hover := hsound.notOverrun
        cases server <;> simpa [hat, State.threadCreate, h.notOverrun] using hover
      refine ⟨hnone, ?_⟩
      rintro rfl j k hk
      have hne : j ≠ i := by
        rintro rfl
        simp [hnone] at hk
      simp only [hat] at hsound
      have hlt := h.inRange j (by simp [hk])
      refine h.keepsMark_of_mark hk (by simp [hat]) fun hrunning => ?_
      have hmark := hsound.marked rfl j hlt
      simp only [State.threadCreate, setSlot_of_ne _ hne] at hmark
      exact hmark.mpr hrunning
    | tid i =>
      simp only [hat] at hsound
      have hmark := hsound.marked rfl i (h.acceptor.tid i hat).2
      simpa using hmark
    | _ => trivial
  | handler i more =>
    rintro ⟨own, client, pc⟩ hk rfl hat
    cases server with
    | dumbHttp => rfl
    | echo =>
      have hlt := h.inRange i (by simp [hk])
      simp only [HandlerSlots.step, hk, Handler.step] at hsound
      have hmark := hsound.marked hat i hlt
      simp [Handler.goOn, Server.next] at hmark

/-- In either server and for any number of slots, a run keeps the slots sound exactly when its steps
are careful. -/
theorem sound_iff_careful (server : Server) (slots : Nat) (es : List Event) :
    Always (HandlerSlots.step server slots) (Sound server slots) start es ↔
      Along (HandlerSlots.step server slots) (Careful server) start es := by
  have hstart : Settled server slots start :=
    ⟨inv_start server slots, fun _ i k hk => by simp [start] at hk⟩
  exact always_iff_along_kept (HandlerSlots.step server slots) (I := Settled server slots)
    (fun s e h hcareful => h.step e hcareful)
    (fun s e h => ⟨h.careful e, fun hcareful => (h.step e hcareful).sound⟩) hstart hstart.sound es

/-- A connection comes to the echo server with one slot and ends; its handler has cleared the flag
and not closed the socket yet, and `process_tcp` is in `accept`: the flag says that no handler is
running. -/
theorem echo_unmarked_while_running :
    ¬ Always (HandlerSlots.step .echo 1) (Sound .echo 1) start
      [.acceptor 5, .acceptor 0, .acceptor 0, .acceptor 0, .acceptor 0,
        .handler 0 false, .handler 0 false, .handler 0 false] := by
  refine not_always_of_last _ rfl fun hsound => ?_
  have hmark := hsound.marked (by decide) 0 (by decide)
  exact absurd hmark (by decide)

end HandlerSlots
end ZephyrSamples
