import Mathlib.Algebra.Group.Nat.Defs
import ZephyrSamples.Lib.Memory
import ZephyrSamples.Lib.Runs
import ZephyrSamples.Sockets.Sendall

/-!
# A TCP connection of the echo server

`handle_data` of `tcp.c`, one round of its loop at a time.  A reply is postponed until `recv_buffer`
is full or a peek finds nothing to read.  The whole stream comes back exactly when no peek finds
that the client has closed its side: the bytes that are postponed then are never sent. -/

namespace ZephyrSamples
namespace EchoServer

open Runs Memory Sockets

/-- `RECV_BUFFER_SIZE` -/
def recvBufferSize : Nat := 1280

/-- What `recv` gives: bytes, 0, or an error. -/
inductive Recv where
  | data (bytes : List Byte)
  | closed
  | error
  deriving DecidableEq, Repr

/-- What `recv` with MSG_PEEK gives: a positive number, EAGAIN, 0, or another error. -/
inductive Peek where
  | data
  | again
  | closed
  | error
  deriving DecidableEq, Repr

/-- What the socket answers in a round of the loop: the results of the two calls of `recv`, and
those of `send`, the last of which takes all that is left. -/
structure Round where
  received : Recv
  peek : Peek
  outLens : List Int
  deriving DecidableEq, Repr

/-- Why the loop ended. -/
inductive Exit where
  | closed
  | connectionError
  | sendFailed
  deriving DecidableEq, Repr

/-- The thread with its slot of `accepted`; `requests` are the offset and the length of each `recv`.
`unread` is what the client sends and `recv` has not given yet, `sent` what was sent back. -/
structure Handler where
  recvBuffer : List Byte
  offset : Nat
  counter : Nat
  sock : Int
  inUse : Bool
  exit : Option Exit
  requests : List (Nat × Int)
  unread : List Byte
  sent : List Byte
  deriving DecidableEq, Repr

/-- The thread is created for a client that sends `stream`. -/
def start (sock : Int) (stream : List Byte) : Handler where
  recvBuffer := List.replicate recvBufferSize 0
  offset := 0
  counter := 0
  sock := sock
  inUse := true
  exit := none
  requests := []
  unread := stream
  sent := []

/-- What follows the loop. -/
def Handler.leave (s : Handler) (exit : Exit) : Handler :=
  { s with inUse := false, sock := -1, exit := some exit }

/-- A call of `recv`, for the room behind the bytes there are. -/
def Handler.request (s : Handler) : Handler :=
  { s with requests := s.requests ++ [(s.offset, (recvBufferSize : Int) - s.offset)] }

/-- The bytes that are not sent back yet. -/
def Handler.postponed (s : Handler) : List Byte := s.recvBuffer.take s.offset

def Handler.reply (s : Handler) (outLens : List Int) : Handler :=
  let out := sendall s.postponed outLens
  let s := { s with sent := s.sent ++ out.1 }
  if out.2 < 0 then s.leave .sendFailed
  else { s with counter := (s.counter + 1) % 2 ^ 32, offset := 0 }

def Handler.store (s : Handler) (bytes : List Byte) : Handler :=
  { s with
    recvBuffer := overwrite s.recvBuffer s.offset bytes
    offset := s.offset + bytes.length
    unread := s.unread.drop bytes.length }

/-- A round of the loop, built with CONFIG_NET_SOCKETS_SOCKOPT_TLS or without. -/
def step (tls : Bool) (s : Handler) (r : Round) : Handler :=
  if s.exit ≠ none then s
  else
    match r.received with
    | .closed => s.request.leave .closed
    | .error => s.request.leave .connectionError
    | .data bytes =>
      let s := s.request.store bytes
      if tls = true ∨ s.offset = recvBufferSize then s.reply r.outLens
      else if r.peek = .again then s.request.reply r.outLens
      else s.request

/-- The round makes a peek. -/
def Peeks (tls : Bool) (s : Handler) (r : Round) : Prop :=
  match r.received with
  | .data bytes => s.exit = none ∧ tls = false ∧ s.offset + bytes.length ≠ recvBufferSize
  | _ => False

/-- A peek after which `unread` is to come gives what has arrived of it. -/
def PeekPossible (unread : List Byte) : Peek → Prop
  | .data => unread ≠ []
  | .again => True
  | .closed => unread = []
  | .error => False

/-- The answers fit the stream: `recv` gives a positive number of its next bytes, as far as there is
room, and 0 at its end, and `send` takes any positive number. -/
def Possible (tls : Bool) (s : Handler) (r : Round) : Prop :=
  s.exit = none →
    (∀ outLen ∈ r.outLens, 0 < outLen) ∧
    match r.received with
    | .data bytes =>
      bytes ≠ [] ∧ s.offset + bytes.length ≤ recvBufferSize ∧ bytes <+: s.unread ∧
      (Peeks tls s r → PeekPossible (s.unread.drop bytes.length) r.peek)
    | .closed => s.unread = []
    | .error => True

instance (tls : Bool) (s : Handler) (r : Round) : Decidable (Peeks tls s r) := by
  unfold Peeks
  split <;> infer_instance

instance (unread : List Byte) : ∀ peek, Decidable (PeekPossible unread peek)
  | .data => inferInstanceAs (Decidable (unread ≠ []))
  | .again => inferInstanceAs (Decidable True)
  | .closed => inferInstanceAs (Decidable (unread = []))
  | .error => inferInstanceAs (Decidable False)

instance (tls : Bool) (s : Handler) (r : Round) : Decidable (Possible tls s r) := by
  unfold Possible
  cases r.received <;> infer_instance

/-- `recv` is asked for at least one byte, and for no more than there is room. -/
def InBounds (request : Nat × Int) : Prop :=
  0 < request.2 ∧ request.1 + request.2 ≤ recvBufferSize

/-- All requests are in bounds, and when `recv` has returned 0 the stream has been sent back. -/
structure Echoes (stream : List Byte) (s : Handler) : Prop where
  requests : ∀ request ∈ s.requests, InBounds request
  sent : s.exit = some .closed → s.sent = stream

/-- No peek finds that the client has closed its side. -/
def PeeksBeforeClose (tls : Bool) (s : Handler) (r : Round) : Prop :=
  Peeks tls s r → r.peek ≠ .closed

instance (tls : Bool) (s : Handler) (r : Round) : Decidable (PeeksBeforeClose tls s r) :=
  inferInstanceAs (Decidable (_ → _))

/-- While the loop runs there is room in the buffer, and every byte that was read is sent back or
postponed. -/
structure Inv (stream : List Byte) (s : Handler) : Prop where
  length : s.recvBuffer.length = recvBufferSize
  room : s.offset < recvBufferSize
  requests : ∀ request ∈ s.requests, InBounds request
  running : s.exit = none → s.sent ++ s.postponed ++ s.unread = stream
  closed : s.exit = some .closed → s.sent ++ s.postponed = stream

variable {tls : Bool} {stream : List Byte} {s : Handler} {r : Round} {bytes : List Byte}

theorem recvBufferSize_pos : 0 < recvBufferSize := by decide

theorem inv_start (sock : Int) : Inv stream (start sock stream) where
  length := List.length_replicate
  room := recvBufferSize_pos
  requests _ h := nomatch h
  running _ := rfl
  closed h := nomatch h

theorem requests_request (hroom : s.offset < recvBufferSize)
    (h : ∀ request ∈ s.requests, InBounds request) :
    ∀ request ∈ s.requests ++ [(s.offset, (recvBufferSize : Int) - s.offset)],
      InBounds request := by
  intro request hmem
  rcases List.mem_append.mp hmem with hmem | hmem
  · exact h request hmem
  · rw [List.mem_singleton.mp hmem]
    exact ⟨by show (0 : Int) < recvBufferSize - s.offset; omega,
      by show (s.offset : Int) + (recvBufferSize - s.offset) ≤ recvBufferSize; omega⟩

theorem inv_leave (h : Inv stream s) {exit : Exit}
    (hclosed : exit = .closed → s.exit = none ∧ s.unread = []) :
    Inv stream (s.request.leave exit) where
  length := h.length
  room := h.room
  requests := requests_request h.room h.requests
  running hno := nomatch hno
  closed hexit := by
    obtain ⟨hrunning, hunread⟩ := hclosed (Option.some.inj hexit)
    have hall := h.running hrunning
    rwa [hunread, List.append_nil] at hall

/-- The bytes read are postponed. -/
theorem postponed_store (h : Inv stream s) :
    (s.request.store bytes).postponed = s.postponed ++ bytes := by
  have hle : s.offset ≤ s.recvBuffer.length := by
    rw [h.length]
    exact Nat.le_of_lt h.room
  exact take_overwrite hle

/-- With the bytes read there is none that is neither sent back, postponed nor to come. -/
theorem running_store (h : Inv stream s) (hexit : s.exit = none) (hbytes : bytes <+: s.unread) :
    s.sent ++ (s.request.store bytes).postponed ++ s.unread.drop bytes.length = stream := by
  obtain ⟨rest, hrest⟩ := hbytes
  rw [← h.running hexit, postponed_store h, ← hrest, List.drop_left]
  simp only [List.append_assoc]

theorem reply_of_pos {outLens : List Int} (h : ∀ outLen ∈ outLens, 0 < outLen) :
    s.reply outLens =
      { s with
        sent := s.sent ++ s.postponed, counter := (s.counter + 1) % 2 ^ 32, offset := 0 } := by
  simp [Handler.reply, sendall_of_pos h]

/-- Bytes that are read are sent back with those postponed, or postponed if a peek is made that does
not give EAGAIN. -/
theorem step_data (h : Inv stream s) (hexit : s.exit = none) (he : Possible tls s r)
    (hdata : r.received = .data bytes) :
    Inv stream (step tls s r) ∧ (step tls s r).exit = none ∧
      (step tls s r).unread = s.unread.drop bytes.length ∧
      (if Peeks tls s r ∧ r.peek ≠ .again then 0 < (step tls s r).offset
        else (step tls s r).offset = 0) := by
  obtain ⟨hpos, hread⟩ := he hexit
  simp only [hdata] at hread
  obtain ⟨hne, hfits, hprefix, -⟩ := hread
  have hstart : s.offset + bytes.length ≤ s.recvBuffer.length := by rwa [h.length]
  have hlength : (s.request.store bytes).recvBuffer.length = recvBufferSize :=
    (length_overwrite hstart).trans h.length
  have hrunning := running_store h hexit hprefix
  have hbounds := requests_request h.room h.requests
  have hlt : 0 < bytes.length := List.length_pos_iff.mpr hne
  by_cases hreply : tls = true ∨ s.offset + bytes.length = recvBufferSize
  · have hnext : step tls s r = (s.request.store bytes).reply r.outLens := by
      simp only [step, hexit, hdata]
      exact if_pos hreply
    have hno : ¬ (Peeks tls s r ∧ r.peek ≠ .again) := by
      rintro ⟨hpeeks, -⟩
      simp only [Peeks, hdata] at hpeeks
      rcases hreply with htls | hfull
      · exact Bool.noConfusion (hpeeks.2.1.symm.trans htls)
      · exact hpeeks.2.2 hfull
    rw [if_neg hno, hnext, reply_of_pos hpos]
    refine ⟨⟨hlength, recvBufferSize_pos, hbounds, fun _ => ?_, fun hno => ?_⟩, hexit, rfl, rfl⟩
    · simpa [Handler.postponed, Handler.store, Handler.request] using hrunning
    · exact nomatch hexit.symm.trans hno
  · have hpeeks : Peeks tls s r := by
      simp only [Peeks, hdata]
      push Not at hreply
      exact ⟨hexit, by simpa using hreply.1, hreply.2⟩
    have hroom : s.offset + bytes.length < recvBufferSize := by
      push Not at hreply
      omega
    have hbounds' := requests_request (s := s.request.store bytes) hroom hbounds
    by_cases hagain : r.peek = .again
    · have hnext : step tls s r = (s.request.store bytes).request.reply r.outLens := by
        simp only [step, hexit, hdata]
        exact (if_neg hreply).trans (if_pos hagain)
      rw [if_neg fun hno => hno.2 hagain, hnext, reply_of_pos hpos]
      refine ⟨⟨hlength, recvBufferSize_pos, hbounds', fun _ => ?_, fun hno => ?_⟩, hexit, rfl, rfl⟩
      · simpa [Handler.postponed, Handler.store, Handler.request] using hrunning
      · exact nomatch hexit.symm.trans hno
    · have hnext : step tls s r = (s.request.store bytes).request := by
        simp only [step, hexit, hdata]
        exact (if_neg hreply).trans (if_neg hagain)
      rw [if_pos ⟨hpeeks, hagain⟩, hnext]
      refine ⟨⟨hlength, hroom, hbounds', fun _ => hrunning, fun hno => ?_⟩, hexit, rfl, ?_⟩
      · exact nomatch hexit.symm.trans hno
      · show 0 < s.offset + bytes.length
        omega

theorem step_of_exit (hexit : s.exit ≠ none) : step tls s r = s := if_pos hexit

theorem step_closed (hexit : s.exit = none) (hclosed : r.received = .closed) :
    step tls s r = s.request.leave .closed := by
  simp [step, hexit, hclosed]

theorem step_error (hexit : s.exit = none) (herror : r.received = .error) :
    step tls s r = s.request.leave .connectionError := by
  simp [step, hexit, herror]

theorem inv_step (h : Inv stream s) (he : Possible tls s r) : Inv stream (step tls s r) := by
  by_cases hexit : s.exit = none
  · cases hreceived : r.received with
    | data bytes => exact (step_data h hexit he hreceived).1
    | closed =>
      obtain ⟨-, hunread⟩ := he hexit
      simp only [hreceived] at hunread
      rw [step_closed hexit hreceived]
      exact inv_leave h fun _ => ⟨hexit, hunread⟩
    | error =>
      rw [step_error hexit hreceived]
      exact inv_leave h fun hno => nomatch hno
  · rwa [step_of_exit hexit]

/-- What is postponed at the end of the stream stays so. -/
theorem postponed_run {rounds : List Round} (h : Inv stream s) (hoffset : 0 < s.offset)
    (hunread : s.unread = []) (he : Along (step tls) (Possible tls) s rounds) :
    0 < (run (step tls) s rounds).offset := by
  induction rounds generalizing s with
  | nil => exact hoffset
  | cons r rounds ih =>
    have hnext : (step tls s r).offset = s.offset ∧ (step tls s r).unread = s.unread := by
      by_cases hexit : s.exit = none
      · cases hreceived : r.received with
        | data bytes =>
          obtain ⟨-, hread⟩ := he.1 hexit
          simp only [hreceived] at hread
          obtain ⟨hne, -, hprefix, -⟩ := hread
          rw [hunread] at hprefix
          exact absurd (List.prefix_nil.mp hprefix) hne
        | closed => rw [step_closed hexit hreceived]; exact ⟨rfl, rfl⟩
        | error => rw [step_error hexit hreceived]; exact ⟨rfl, rfl⟩
      · rw [step_of_exit hexit]; exact ⟨rfl, rfl⟩
    apply ih (inv_step h he.1) _ _ he.2
    · rw [hnext.1]; exact hoffset
    · rw [hnext.2]; exact hunread

theorem along_of_exit (tls : Bool) (rounds : List Round) (hexit : s.exit ≠ none) :
    run (step tls) s rounds = s ∧ Along (step tls) (PeeksBeforeClose tls) s rounds := by
  induction rounds with
  | nil => exact ⟨rfl, trivial⟩
  | cons r rounds ih =>
    rw [run_cons, Along, step_of_exit hexit]
    refine ⟨ih.1, ?_, ih.2⟩
    intro hpeeks
    unfold Peeks at hpeeks
    split at hpeeks
    · exact absurd hpeeks.1 hexit
    · exact hpeeks.elim

theorem peekPossible_of_data (hexit : s.exit = none) (he : Possible tls s r)
    (hdata : r.received = .data bytes) (hpeeks : Peeks tls s r) :
    PeekPossible (s.unread.drop bytes.length) r.peek := by
  obtain ⟨-, hread⟩ := he hexit
  simp only [hdata] at hread
  exact hread.2.2.2 hpeeks

/-- Bytes after which a peek finds the close are postponed, with none to come. -/
theorem postponed_of_peek (h : Inv stream s) (hexit : s.exit = none) (he : Possible tls s r)
    (hdata : r.received = .data bytes) (hpeeks : Peeks tls s r) (hclosed : r.peek = .closed) :
    0 < (step tls s r).offset ∧ (step tls s r).unread = [] := by
  obtain ⟨-, -, hunread, hoffset⟩ := step_data h hexit he hdata
  rw [if_pos ⟨hpeeks, by simp [hclosed]⟩] at hoffset
  have hpeek := peekPossible_of_data hexit he hdata hpeeks
  rw [hclosed] at hpeek
  exact ⟨hoffset, hunread.trans hpeek⟩

/-- Other bytes are postponed only when there is more to come. -/
theorem unread_of_postponed (h : Inv stream s) (hexit : s.exit = none) (he : Possible tls s r)
    (hdata : r.received = .data bytes) (hbefore : PeeksBeforeClose tls s r) :
    0 < (step tls s r).offset → (step tls s r).unread ≠ [] := by
  intro hpos
  obtain ⟨-, -, hunread, hoffset⟩ := step_data h hexit he hdata
  have hpeeks : Peeks tls s r ∧ r.peek ≠ .again := by
    by_contra hno
    rw [if_neg hno] at hoffset
    omega
  have hpeek := peekPossible_of_data hexit he hdata hpeeks.1
  rw [hunread]
  cases hkind : r.peek with
  | data => rwa [hkind] at hpeek
  | again => exact absurd hkind hpeeks.2
  | closed => exact absurd hkind (hbefore hpeeks.1)
  | error => rw [hkind] at hpeek; exact hpeek.elim

/-- From a state where something is postponed only if there is more to come, a run that ends with
the close of the client ends with nothing postponed, exactly when no peek finds the close. -/
theorem postponed_iff {rounds : List Round} (h : Inv stream s) (hexit : s.exit = none)
    (hready : 0 < s.offset → s.unread ≠ [])
    (he : Along (step tls) (Possible tls) s rounds)
    (hend : (run (step tls) s rounds).exit = some .closed) :
    (run (step tls) s rounds).offset = 0 ↔
      Along (step tls) (PeeksBeforeClose tls) s rounds := by
  induction rounds generalizing s with
  | nil => exact nomatch hexit.symm.trans hend
  | cons r rounds ih =>
    cases hreceived : r.received with
    | closed =>
      have hnext : step tls s r = s.request.leave .closed := step_closed hexit hreceived
      obtain ⟨hrun, halong⟩ :=
        along_of_exit tls (s := step tls s r) rounds (by simp [hnext, Handler.leave])
      obtain ⟨-, hunread⟩ := he.1 hexit
      simp only [hreceived] at hunread
      have hzero : s.offset = 0 := by
        by_contra hne
        exact hready (Nat.pos_of_ne_zero hne) hunread
      refine iff_of_true ?_ ⟨fun hpeeks => ?_, halong⟩
      · rw [run_cons, hrun, hnext]
        exact hzero
      · simp [Peeks, hreceived] at hpeeks
    | error =>
      have hnext : step tls s r = s.request.leave .connectionError := step_error hexit hreceived
      obtain ⟨hrun, -⟩ :=
        along_of_exit tls (s := step tls s r) rounds (by simp [hnext, Handler.leave])
      rw [run_cons, hrun, hnext] at hend
      exact nomatch Option.some.inj hend
    | data bytes =>
      obtain ⟨hinv, hgoes, -, -⟩ := step_data h hexit he.1 hreceived
      by_cases hlost : Peeks tls s r ∧ r.peek = .closed
      · -- The bytes read stay postponed, and no round sends them back.
        obtain ⟨hpostponed, hnone⟩ := postponed_of_peek h hexit he.1 hreceived hlost.1 hlost.2
        have hstays := postponed_run hinv hpostponed hnone he.2
        refine iff_of_false (Nat.ne_of_gt hstays) fun halong => ?_
        exact halong.1 hlost.1 hlost.2
      · have hbefore : PeeksBeforeClose tls s r := fun hpeeks hpeek => hlost ⟨hpeeks, hpeek⟩
        have hready' := unread_of_postponed h hexit he.1 hreceived hbefore
        exact (ih hinv hgoes hready' he.2 hend).trans
          ⟨fun halong => ⟨hbefore, halong⟩, fun halong => halong.2⟩

theorem Inv.sent_eq_iff (h : Inv stream s) (hclosed : s.exit = some .closed) :
    s.sent = stream ↔ s.offset = 0 := by
  have hall := h.closed hclosed
  have hroom := h.room
  have hlength : s.postponed.length = s.offset := by
    rw [Handler.postponed, List.length_take, h.length]
    omega
  constructor
  · intro hsent
    rw [hsent, List.append_right_eq_self] at hall
    rw [← hlength, hall, List.length_nil]
  · intro hzero
    rw [hzero, List.length_eq_zero_iff] at hlength
    rwa [hlength, List.append_nil] at hall

/-- The loop ends once, so that what holds at its end holds from there on. -/
theorem always_echoes_of_last {rounds : List Round} (h : Inv stream s)
    (he : Along (step tls) (Possible tls) s rounds)
    (hlast : (run (step tls) s rounds).exit = some .closed →
      (run (step tls) s rounds).sent = stream) :
    Always (step tls) (Echoes stream) s rounds := by
  induction rounds generalizing s with
  | nil => exact ⟨h.requests, hlast⟩
  | cons r rounds ih =>
    refine ⟨⟨h.requests, fun hclosed => ?_⟩, ih (inv_step h he.1) he.2 hlast⟩
    have hrun : run (step tls) s (r :: rounds) = s :=
      (along_of_exit tls (r :: rounds) (by rw [hclosed]; exact Option.some_ne_none _)).1
    rw [hrun] at hlast
    exact hlast hclosed

/-- Every connection, however the stream is split, and whatever the peeks find. -/
theorem echoes_iff_peeks_before_close (sock : Int) {rounds : List Round}
    (he : Along (step tls) (Possible tls) (start sock stream) rounds) :
    Always (step tls) (Echoes stream) (start sock stream) rounds ↔
      ((run (step tls) (start sock stream) rounds).exit = some .closed →
        Along (step tls) (PeeksBeforeClose tls) (start sock stream) rounds) := by
  have hinv : Inv stream (run (step tls) (start sock stream) rounds) :=
    Along.invariant (step tls) (fun _ _ h he => inv_step h he) (inv_start sock) he
  have hiff (hend : (run (step tls) (start sock stream) rounds).exit = some .closed) :
      (run (step tls) (start sock stream) rounds).sent = stream ↔
        Along (step tls) (PeeksBeforeClose tls) (start sock stream) rounds :=
    (hinv.sent_eq_iff hend).trans
      (postponed_iff (inv_start sock) rfl (fun hno => absurd hno (Nat.lt_irrefl 0)) he hend)
  constructor
  · intro halways hend
    exact (hiff hend).mp (halways.last.sent hend)
  · intro hpeeks
    exact always_echoes_of_last (inv_start sock) he fun hend => (hiff hend).mpr (hpeeks hend)

/-- The client waits for its echo before it closes. -/
def waits : List Round :=
  [⟨.data [1, 2], .data, []⟩, ⟨.data [3], .again, [2, 1]⟩, ⟨.closed, .again, []⟩]

theorem echoes_waits : Along (step false) (Possible false) (start 4 [1, 2, 3]) waits ∧
    Always (step false) (Echoes [1, 2, 3]) (start 4 [1, 2, 3]) waits := by
  have hpossible : Along (step false) (Possible false) (start 4 [1, 2, 3]) waits := by
    decide +kernel
  exact ⟨hpossible, (echoes_iff_peeks_before_close 4 hpossible).mpr fun _ => by decide +kernel⟩

/-- The close has arrived when the peek is made. -/
def closesEarly : List Round := [⟨.data [1, 2, 3], .closed, []⟩, ⟨.closed, .closed, []⟩]

/-- Nothing is sent back. -/
theorem closesEarly_not_echoed :
    Along (step false) (Possible false) (start 4 [1, 2, 3]) closesEarly ∧
      (run (step false) (start 4 [1, 2, 3]) closesEarly).exit = some .closed ∧
      (run (step false) (start 4 [1, 2, 3]) closesEarly).sent = [] ∧
      ¬ Always (step false) (Echoes [1, 2, 3]) (start 4 [1, 2, 3]) closesEarly := by
  have hend : (run (step false) (start 4 [1, 2, 3]) closesEarly).exit = some .closed := by
    decide +kernel
  have hsent : (run (step false) (start 4 [1, 2, 3]) closesEarly).sent = [] := by decide +kernel
  refine ⟨by decide +kernel, hend, hsent, fun h => ?_⟩
  exact nomatch hsent.symm.trans (h.last.sent hend)

end EchoServer
end ZephyrSamples
