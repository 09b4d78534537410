import Mathlib.Data.List.Basic

/-!
# Receiving the answer

The two receive loops of `websocket_client`: `recv_data_bsd_api` counts the bytes of the answer, and
`recv_data_wso_api` waits for the end of the message.
-/

namespace ZephyrSamples
namespace WebsocketClient

inductive Errno where
  | EAGAIN
  | ETIMEDOUT
  | other (errno : Nat)
  deriving DecidableEq

def Errno.TryAgain (errno : Errno) : Prop := errno = .EAGAIN ∨ errno = .ETIMEDOUT

instance (errno : Errno) : Decidable errno.TryAgain := inferInstanceAs (Decidable (_ ∨ _))

/-- What `recv` has: at least one byte, -1 with `errno`, or 0. -/
inductive Received where
  | bytes (first : UInt8) (more : List UInt8)
  | failed (errno : Errno)
  | closed

/-- The bytes it gives when there is so much space.  If there are none its result is not positive.
-/
def Received.data (space : Nat) : Received → List UInt8
  | .bytes first more => (first :: more).take space
  | _ => []

/-- `errno` after the call. -/
def Received.errno (errno : Errno) : Received → Errno
  | .failed err => err
  | _ => errno

/-- What `websocket_recv_msg` has: at least one byte and what remains of the message, a negative
error, or 0. -/
inductive Message where
  | bytes (first : UInt8) (more : List UInt8) (remaining : UInt64)
  | failed (errno : Errno)
  | closed
  deriving DecidableEq

def Message.data (space : Nat) : Message → List UInt8
  | .bytes first more _ => (first :: more).take space
  | _ => []

/-- `remaining` after the call. -/
def Message.remaining (remaining : UInt64) : Message → UInt64
  | .bytes _ _ rest => rest
  | _ => remaining

/-- The arguments of a receive function, and what `lorem_ipsum` points to. -/
structure Exchange where
  amount : Nat
  buf : List UInt8
  loremIpsum : Nat → UInt8
  amount_pos : 1 ≤ amount
  amount_le : amount ≤ buf.length

/-- `memcmp(lorem_ipsum, buf, amount - 1) == 0` -/
def Exchange.SameText (e : Exchange) (buf : List UInt8) : Prop :=
  (List.range (e.amount - 1)).map e.loremIpsum = buf.take (e.amount - 1)

instance (e : Exchange) (buf : List UInt8) : Decidable (e.SameText buf) :=
  inferInstanceAs (Decidable (_ = _))

/-- `amount` bytes were received, and all but the last are those of `lorem_ipsum`. -/
def Exchange.Matches (e : Exchange) (received : List UInt8) : Prop :=
  received.length = e.amount ∧ e.SameText received

/-- The buffer of a loop, what it has received, and the position and the space of each call. -/
structure Buffer where
  buf : List UInt8
  readPos : Nat
  received : List UInt8
  asked : List (Nat × Int)

def Buffer.space (b : Buffer) : Nat := b.buf.length - b.readPos

def Buffer.ask (b : Buffer) : Buffer :=
  { b with asked := (b.readPos, b.buf.length - b.readPos) :: b.asked }

def Buffer.store (b : Buffer) (data : List UInt8) : Buffer :=
  { b with
    buf := b.buf.take b.readPos ++ data ++ b.buf.drop (b.readPos + data.length)
    readPos := b.readPos + data.length
    received := b.received ++ data }

def Exchange.buffer (e : Exchange) : Buffer := ⟨e.buf, 0, [], []⟩

/-! ## `recv_data_bsd_api` -/

structure BsdLoop where
  buffer : Buffer
  remaining : Int
  errno : Errno

/-- Whether success is logged. -/
def BsdLoop.logs (e : Exchange) (s : BsdLoop) : Bool := s.remaining = 0 ∧ e.SameText s.buffer.buf

/-- The loop and what is logged behind it, or `none` if it waits for the next call. -/
def bsdLoop (e : Exchange) : BsdLoop → List Received → BsdLoop × Option Bool
  | s, [] => (s, if 0 < s.remaining then none else some (s.logs e))
  | s, r :: rest =>
    if 0 < s.remaining then
      let data := r.data s.buffer.space
      let s := { s with buffer := s.buffer.ask, errno := r.errno s.errno }
      if data = [] then
        if s.errno.TryAgain then bsdLoop e s rest else (s, some (s.logs e))
      else
        bsdLoop e
          { s with
            buffer := s.buffer.store data
            remaining := s.remaining - data.length } rest
    else (s, some (s.logs e))

def recvDataBsdApi (e : Exchange) (errno : Errno) : List Received → BsdLoop × Option Bool :=
  bsdLoop e ⟨e.buffer, e.amount, errno⟩

/-! ## `recv_data_wso_api` -/

structure WsoLoop where
  buffer : Buffer
  remaining : UInt64
  totalRead : Nat

def WsoLoop.logs (e : Exchange) (s : WsoLoop) : Bool :=
  s.remaining = 0 ∧ s.totalRead = e.amount ∧ e.SameText s.buffer.buf

def wsoLoop (e : Exchange) : WsoLoop → List Message → WsoLoop × Option Bool
  | s, [] => (s, if 0 < s.remaining then none else some (s.logs e))
  | s, r :: rest =>
    if 0 < s.remaining then
      let data := r.data s.buffer.space
      let s := { s with buffer := s.buffer.ask }
      if data = [] then
        if r = .failed .EAGAIN then wsoLoop e s rest else (s, some (s.logs e))
      else
        wsoLoop e
          { buffer := s.buffer.store data
            remaining := r.remaining s.remaining
            totalRead := s.totalRead + data.length } rest
    else (s, some (s.logs e))

/-- `ULLONG_MAX` -/
def ullongMax : UInt64 := -1

def recvDataWsoApi (e : Exchange) : List Message → WsoLoop × Option Bool :=
  wsoLoop e ⟨e.buffer, ullongMax, 0⟩

/-! ## What the loops promise -/

/-- The bytes that the calls give a buffer with so much space. -/
def given : Nat → List Received → List UInt8
  | _, [] => []
  | space, r :: rest => r.data space ++ given (space - (r.data space).length) rest

/-- There is a result -1, or 0, at which `errno` tells not to try again. -/
def Refused : Errno → List Received → Prop
  | _, [] => False
  | errno, .bytes _ _ :: rest => Refused errno rest
  | _, .failed err :: rest => ¬ err.TryAgain ∨ Refused err rest
  | errno, .closed :: rest => ¬ errno.TryAgain ∨ Refused errno rest

/-- A result that completes the message, or closes the connection, or tells not to try again. -/
def Message.Stops : Message → Prop
  | .bytes _ _ remaining => remaining = 0
  | .failed errno => errno ≠ .EAGAIN
  | .closed => True

/-- No call is asked for more than the space that is left. -/
def Buffer.Within (b : Buffer) (bufLen : Nat) : Prop := ∀ c ∈ b.asked, 0 ≤ c.2 ∧ c.1 + c.2 ≤ bufLen

/-- The buffer keeps what was received in front of `readPos`. -/
structure Buffer.Sound (b : Buffer) : Prop where
  readPos : b.readPos = b.received.length
  readPos_le : b.readPos ≤ b.buf.length
  keeps : b.buf.take b.readPos = b.received
  within : b.Within b.buf.length

variable {e : Exchange} {b : Buffer}

theorem Exchange.buffer_sound (e : Exchange) : e.buffer.Sound :=
  ⟨rfl, Nat.zero_le _, List.take_zero, fun _ h => absurd h List.not_mem_nil⟩

theorem Buffer.Sound.ask (h : b.Sound) : b.ask.Sound := by
  have hpos := h.readPos_le
  refine ⟨h.readPos, hpos, h.keeps, List.forall_mem_cons.mpr ⟨?_, h.within⟩⟩
  show 0 ≤ (b.buf.length : Int) - b.readPos ∧
    b.readPos + ((b.buf.length : Int) - b.readPos) ≤ (b.buf.length : Int)
  omega

theorem Buffer.length_store {data : List UInt8} (hle : b.readPos + data.length ≤ b.buf.length) :
    (b.store data).buf.length = b.buf.length := by
  show (b.buf.take b.readPos ++ data ++ b.buf.drop (b.readPos + data.length)).length = _
  rw [List.length_append, List.length_append, List.length_take, List.length_drop]
  omega

theorem Buffer.Sound.store {data : List UInt8} (h : b.Sound) (hle : data.length ≤ b.space) :
    (b.store data).Sound := by
  have hpos := h.readPos_le
  rw [Buffer.space] at hle
  have hfit : b.readPos + data.length ≤ b.buf.length := by omega
  have hlen := Buffer.length_store hfit
  refine ⟨?_, ?_, ?_, ?_⟩
  · show b.readPos + data.length = (b.received ++ data).length
    rw [List.length_append, h.readPos]
  · rw [hlen]
    exact hfit
  · have hfront : (b.buf.take b.readPos ++ data).length = b.readPos + data.length := by
      rw [List.length_append, List.length_take_of_le hpos]
    show (b.buf.take b.readPos ++ data ++ b.buf.drop (b.readPos + data.length)).take
      (b.readPos + data.length) = b.received ++ data
    rw [List.take_left' hfront, h.keeps]
  · intro c hc
    rw [hlen]
    exact h.within c hc

theorem Received.length_data_le (space : Nat) (r : Received) : (r.data space).length ≤ space := by
  cases r with
  | bytes first more => exact List.length_take_le _ _
  | failed errno => exact Nat.zero_le _
  | closed => exact Nat.zero_le _

theorem Message.length_data_le (space : Nat) (r : Message) : (r.data space).length ≤ space := by
  cases r with
  | bytes first more remaining => exact List.length_take_le _ _
  | failed errno => exact Nat.zero_le _
  | closed => exact Nat.zero_le _

/-- What is left after the bytes are stored. -/
theorem Buffer.space_store {data : List UInt8} (hle : b.readPos + data.length ≤ b.buf.length) :
    (b.store data).space = b.space - data.length := by
  have hlen := Buffer.length_store hle
  have hpos : (b.store data).readPos = b.readPos + data.length := rfl
  rw [Buffer.space, Buffer.space, hlen, hpos]
  omega

/-- What the buffer is compared with is what was received. -/
theorem Buffer.Sound.sameText_iff (h : b.Sound) (hlen : b.received.length = e.amount) :
    e.SameText b.buf ↔ e.SameText b.received := by
  have htake : b.received.take (e.amount - 1) = b.buf.take (e.amount - 1) := by
    rw [← h.keeps, List.take_take, h.readPos, hlen, Nat.min_eq_left (Nat.sub_le _ _)]
  rw [Exchange.SameText, Exchange.SameText, htake]

/-! ## Runs of `recv_data_bsd_api` -/

structure BsdLoop.Good (e : Exchange) (s : BsdLoop) : Prop where
  buffer : s.buffer.Sound
  length : s.buffer.buf.length = e.buf.length
  remaining : s.remaining = e.amount - s.buffer.received.length

theorem Exchange.bsd_good (e : Exchange) (errno : Errno) :
    BsdLoop.Good e ⟨e.buffer, e.amount, errno⟩ :=
  ⟨e.buffer_sound, rfl, (Int.sub_zero _).symm⟩

/-- A call that gives nothing. -/
def BsdLoop.fail (s : BsdLoop) (r : Received) : BsdLoop :=
  { s with buffer := s.buffer.ask, errno := r.errno s.errno }

/-- A call that gives bytes. -/
def BsdLoop.take (s : BsdLoop) (r : Received) : BsdLoop :=
  { buffer := s.buffer.ask.store (r.data s.buffer.space)
    remaining := s.remaining - (r.data s.buffer.space).length
    errno := r.errno s.errno }

variable {s : BsdLoop}

theorem BsdLoop.Good.fail (h : s.Good e) (r : Received) : (s.fail r).Good e :=
  ⟨h.buffer.ask, h.length, h.remaining⟩

theorem BsdLoop.fits (h : s.Good e) (r : Received) :
    s.buffer.readPos + (r.data s.buffer.space).length ≤ s.buffer.buf.length := by
  have hpos := h.buffer.readPos_le
  have hle : (r.data s.buffer.space).length ≤ s.buffer.buf.length - s.buffer.readPos :=
    r.length_data_le s.buffer.space
  omega

theorem BsdLoop.Good.take (h : s.Good e) (r : Received) : (s.take r).Good e := by
  refine ⟨h.buffer.ask.store (r.length_data_le _), ?_, ?_⟩
  · exact (Buffer.length_store (b := s.buffer.ask) (BsdLoop.fits h r)).trans h.length
  · have hlen : (s.take r).buffer.received.length =
        s.buffer.received.length + (r.data s.buffer.space).length := List.length_append
    have hremaining := h.remaining
    rw [hlen]
    show s.remaining - (r.data s.buffer.space).length = _
    omega

/-- How a pass continues. -/
theorem bsdLoop_cons (hpos : 0 < s.remaining) (r : Received) (rest : List Received) :
    bsdLoop e s (r :: rest) =
      if r.data s.buffer.space = [] then
        if (r.errno s.errno).TryAgain then bsdLoop e (s.fail r) rest
        else (s.fail r, some ((s.fail r).logs e))
      else bsdLoop e (s.take r) rest := by
  rw [bsdLoop, if_pos hpos]
  rfl

/-- A call that gives nothing, and tells to try again. -/
theorem bsdLoop_again (hpos : 0 < s.remaining) {r : Received} (hnil : r.data s.buffer.space = [])
    (hagain : (r.errno s.errno).TryAgain) (rest : List Received) :
    bsdLoop e s (r :: rest) = bsdLoop e (s.fail r) rest := by
  rw [bsdLoop_cons hpos, if_pos hnil, if_pos hagain]

theorem bsdLoop_done (hpos : ¬ 0 < s.remaining) (rs : List Received) :
    bsdLoop e s rs = (s, some (s.logs e)) := by
  cases rs with
  | nil => rw [bsdLoop, if_neg hpos]
  | cons r rest => rw [bsdLoop, if_neg hpos]

/-- A run logs what it finds at its end, and waits only for bytes that are missing. -/
theorem bsdLoop_run (h : s.Good e) (rs : List Received) :
    (bsdLoop e s rs).1.Good e ∧
      ((bsdLoop e s rs).2 = some ((bsdLoop e s rs).1.logs e) ∨
        (bsdLoop e s rs).2 = none ∧ 0 < (bsdLoop e s rs).1.remaining) := by
  induction rs generalizing s with
  | nil =>
    by_cases hpos : 0 < s.remaining
    · rw [bsdLoop, if_pos hpos]
      exact ⟨h, Or.inr ⟨rfl, hpos⟩⟩
    · rw [bsdLoop_done hpos]
      exact ⟨h, Or.inl rfl⟩
  | cons r rest ih =>
    by_cases hpos : 0 < s.remaining
    · rw [bsdLoop_cons hpos]
      split
      · split
        · exact ih (h.fail r)
        · exact ⟨h.fail r, Or.inl rfl⟩
      · exact ih (h.take r)
    · rw [bsdLoop_done hpos]
      exact ⟨h, Or.inl rfl⟩

theorem bsdLoop_completed (h : s.Good e) (rs : List Received)
    (hall : e.amount ≤ s.buffer.received.length + (given s.buffer.space rs).length) :
    (bsdLoop e s rs).2 ≠ none := by
  induction rs generalizing s with
  | nil =>
    have hremaining := h.remaining
    have hall' : e.amount ≤ s.buffer.received.length := hall
    rw [bsdLoop_done (by omega)]
    exact Option.some_ne_none _
  | cons r rest ih =>
    by_cases hpos : 0 < s.remaining
    · rw [given, List.length_append] at hall
      rw [bsdLoop_cons hpos]
      split
      case isTrue hnil =>
        rw [hnil] at hall
        split
        · refine ih (h.fail r) ?_
          rwa [List.length_nil, Nat.sub_zero, Nat.zero_add] at hall
        · exact Option.some_ne_none _
      case isFalse =>
        refine ih (h.take r) ?_
        have hspace : (s.take r).buffer.space = s.buffer.space - (r.data s.buffer.space).length :=
          Buffer.space_store (b := s.buffer.ask) (BsdLoop.fits h r)
        have hlen : (s.take r).buffer.received.length =
            s.buffer.received.length + (r.data s.buffer.space).length := List.length_append
        rw [hspace, hlen]
        omega
    · rw [bsdLoop_done hpos]
      exact Option.some_ne_none _

theorem bsdLoop_refused (rs : List Received) (hrefused : Refused s.errno rs) :
    (bsdLoop e s rs).2 ≠ none := by
  induction rs generalizing s with
  | nil => exact hrefused.elim
  | cons r rest ih =>
    by_cases hpos : 0 < s.remaining
    · rw [bsdLoop_cons hpos]
      split
      case isTrue hnil =>
        split
        case isTrue hagain =>
          refine ih ?_
          cases r with
          | bytes first more => exact hrefused
          | failed err => exact hrefused.resolve_left (not_not_intro hagain)
          | closed => exact hrefused.resolve_left (not_not_intro hagain)
        case isFalse => exact Option.some_ne_none _
      case isFalse hdata =>
        cases r with
        | bytes first more => exact ih hrefused
        | failed err => exact absurd rfl hdata
        | closed => exact absurd rfl hdata
    · rw [bsdLoop_done hpos]
      exact Option.some_ne_none _

/-! ## Runs of `recv_data_wso_api` -/

structure WsoLoop.Good (e : Exchange) (s : WsoLoop) : Prop where
  buffer : s.buffer.Sound
  length : s.buffer.buf.length = e.buf.length
  totalRead : s.totalRead = s.buffer.received.length

def WsoLoop.fail (s : WsoLoop) : WsoLoop := { s with buffer := s.buffer.ask }

def WsoLoop.take (s : WsoLoop) (r : Message) : WsoLoop :=
  { buffer := s.buffer.ask.store (r.data s.buffer.space)
    remaining := r.remaining s.remaining
    totalRead := s.totalRead + (r.data s.buffer.space).length }

variable {w : WsoLoop}

theorem Exchange.wso_good (e : Exchange) : WsoLoop.Good e ⟨e.buffer, ullongMax, 0⟩ :=
  ⟨e.buffer_sound, rfl, rfl⟩

theorem WsoLoop.Good.fail (h : w.Good e) : w.fail.Good e := ⟨h.buffer.ask, h.length, h.totalRead⟩

theorem WsoLoop.Good.take (h : w.Good e) (r : Message) : (w.take r).Good e := by
  have hpos := h.buffer.readPos_le
  have hle : (r.data w.buffer.space).length ≤ w.buffer.buf.length - w.buffer.readPos :=
    r.length_data_le w.buffer.space
  have hfit : w.buffer.readPos + (r.data w.buffer.space).length ≤ w.buffer.buf.length := by omega
  refine ⟨h.buffer.ask.store (r.length_data_le _), ?_, ?_⟩
  · exact (Buffer.length_store (b := w.buffer.ask) hfit).trans h.length
  · have hlen : (w.take r).buffer.received.length =
        w.buffer.received.length + (r.data w.buffer.space).length := List.length_append
    rw [hlen, ← h.totalRead]
    rfl

theorem wsoLoop_cons (hpos : 0 < w.remaining) (r : Message) (rest : List Message) :
    wsoLoop e w (r :: rest) =
      if r.data w.buffer.space = [] then
        if r = .failed .EAGAIN then wsoLoop e w.fail rest else (w.fail, some (w.fail.logs e))
      else wsoLoop e (w.take r) rest := by
  rw [wsoLoop, if_pos hpos]
  rfl

theorem wsoLoop_done (hpos : ¬ 0 < w.remaining) (rs : List Message) :
    wsoLoop e w rs = (w, some (w.logs e)) := by
  cases rs with
  | nil => rw [wsoLoop, if_neg hpos]
  | cons r rest => rw [wsoLoop, if_neg hpos]

theorem wsoLoop_run (h : w.Good e) (rs : List Message) :
    (wsoLoop e w rs).1.Good e ∧
      ((wsoLoop e w rs).2 = some ((wsoLoop e w rs).1.logs e) ∨
        (wsoLoop e w rs).2 = none ∧ 0 < (wsoLoop e w rs).1.remaining) := by
  induction rs generalizing w with
  | nil =>
    by_cases hpos : 0 < w.remaining
    · rw [wsoLoop, if_pos hpos]
      exact ⟨h, Or.inr ⟨rfl, hpos⟩⟩
    · rw [wsoLoop_done hpos]
      exact ⟨h, Or.inl rfl⟩
  | cons r rest ih =>
    by_cases hpos : 0 < w.remaining
    · rw [wsoLoop_cons hpos]
      split
      · split
        · exact ih h.fail
        · exact ⟨h.fail, Or.inl rfl⟩
      · exact ih (h.take r)
    · rw [wsoLoop_done hpos]
      exact ⟨h, Or.inl rfl⟩

theorem wsoLoop_stops (rs : List Message) (hstops : ∃ r ∈ rs, r.Stops) :
    (wsoLoop e w rs).2 ≠ none := by
  induction rs generalizing w with
  | nil =>
    obtain ⟨r, hr, _⟩ := hstops
    exact absurd hr List.not_mem_nil
  | cons r rest ih =>
    obtain ⟨r', hr', hstop⟩ := hstops
    by_cases hpos : 0 < w.remaining
    · rw [wsoLoop_cons hpos]
      rcases List.mem_cons.mp hr' with rfl | hrest
      · split
        · split
          case isTrue hagain =>
            subst hagain
            exact absurd rfl hstop
          case isFalse => exact Option.some_ne_none _
        case isFalse hdata =>
          cases r' with
          | bytes first more remaining =>
            have hzero : ¬ 0 < (w.take (.bytes first more remaining)).remaining := by
              show ¬ 0 < remaining
              rw [show remaining = 0 from hstop]
              decide
            rw [wsoLoop_done hzero]
            exact Option.some_ne_none _
          | failed errno => exact absurd rfl hdata
          | closed => exact absurd rfl hdata
      · split
        · split
          · exact ih ⟨r', hrest, hstop⟩
          · exact Option.some_ne_none _
        · exact ih ⟨r', hrest, hstop⟩
    · rw [wsoLoop_done hpos]
      exact Option.some_ne_none _

/-! ## The two functions -/

structure BsdMeets (e : Exchange) (errno : Errno) (rs : List Received) : Prop where
  completed : e.amount ≤ (given e.buf.length rs).length → (recvDataBsdApi e errno rs).2 ≠ none
  refused : Refused errno rs → (recvDataBsdApi e errno rs).2 ≠ none
  within : (recvDataBsdApi e errno rs).1.buffer.Within e.buf.length
  logs : (recvDataBsdApi e errno rs).2 = some true ↔
    e.Matches (recvDataBsdApi e errno rs).1.buffer.received

structure WsoMeets (e : Exchange) (rs : List Message) : Prop where
  stops : (∃ r ∈ rs, r.Stops) → (recvDataWsoApi e rs).2 ≠ none
  within : (recvDataWsoApi e rs).1.buffer.Within e.buf.length
  logs : (recvDataWsoApi e rs).2 = some true ↔
    (recvDataWsoApi e rs).1.remaining = 0 ∧ e.Matches (recvDataWsoApi e rs).1.buffer.received

theorem BsdLoop.logs_iff {s : BsdLoop} :
    s.logs e = true ↔ s.remaining = 0 ∧ e.SameText s.buffer.buf := decide_eq_true_iff

theorem WsoLoop.logs_iff {w : WsoLoop} :
    w.logs e = true ↔ w.remaining = 0 ∧ w.totalRead = e.amount ∧ e.SameText w.buffer.buf :=
  decide_eq_true_iff

theorem bsd_meets (e : Exchange) (errno : Errno) (rs : List Received) : BsdMeets e errno rs := by
  have hstart := e.bsd_good errno
  obtain ⟨hgood, hend⟩ := bsdLoop_run hstart rs
  refine ⟨fun hall => bsdLoop_completed hstart rs ((Nat.zero_add _).symm ▸ hall),
    bsdLoop_refused (s := ⟨e.buffer, e.amount, errno⟩) rs, hgood.length ▸ hgood.buffer.within, ?_⟩
  rw [recvDataBsdApi]
  generalize bsdLoop e ⟨e.buffer, e.amount, errno⟩ rs = out at hgood hend
  have hremaining := hgood.remaining
  constructor
  · intro hsome
    rcases hend with hlogs | ⟨hnone, _⟩
    · obtain ⟨hzero, htext⟩ := BsdLoop.logs_iff.mp (Option.some.inj (hlogs.symm.trans hsome))
      have hlen : out.1.buffer.received.length = e.amount := by omega
      exact ⟨hlen, (hgood.buffer.sameText_iff hlen).mp htext⟩
    · rw [hnone] at hsome
      cases hsome
  · rintro ⟨hlen, htext⟩
    have hzero : out.1.remaining = 0 := by omega
    rcases hend with hlogs | ⟨_, hpos⟩
    · rw [hlogs, BsdLoop.logs_iff.mpr ⟨hzero, (hgood.buffer.sameText_iff hlen).mpr htext⟩]
    · omega

theorem wso_meets (e : Exchange) (rs : List Message) : WsoMeets e rs := by
  obtain ⟨hgood, hend⟩ := wsoLoop_run e.wso_good rs
  refine ⟨wsoLoop_stops rs, hgood.length ▸ hgood.buffer.within, ?_⟩
  rw [recvDataWsoApi]
  generalize wsoLoop e ⟨e.buffer, ullongMax, 0⟩ rs = out at hgood hend
  constructor
  · intro hsome
    rcases hend with hlogs | ⟨hnone, _⟩
    · obtain ⟨hzero, htotal, htext⟩ :=
        WsoLoop.logs_iff.mp (Option.some.inj (hlogs.symm.trans hsome))
      have hlen : out.1.buffer.received.length = e.amount := hgood.totalRead.symm.trans htotal
      exact ⟨hzero, hlen, (hgood.buffer.sameText_iff hlen).mp htext⟩
    · rw [hnone] at hsome
      cases hsome
  · rintro ⟨hzero, hlen, htext⟩
    rcases hend with hlogs | ⟨_, hpos⟩
    · rw [hlogs, WsoLoop.logs_iff.mpr
        ⟨hzero, hgood.totalRead.trans hlen, (hgood.buffer.sameText_iff hlen).mpr htext⟩]
    · rw [hzero] at hpos
      exact absurd hpos (by decide)

theorem receive_loops_meet (e : Exchange) :
    (∀ errno rs, BsdMeets e errno rs) ∧ ∀ rs, WsoMeets e rs :=
  ⟨bsd_meets e, wso_meets e⟩

/-- Once `errno` tells to try again, the end of the connection is waited out for ever. -/
theorem bsdLoop_closed {s : BsdLoop} (hpos : 0 < s.remaining) (hagain : s.errno.TryAgain)
    (k : Nat) :
    (bsdLoop e s (List.replicate k .closed)).2 = none := by
  induction k generalizing s with
  | zero =>
    show (bsdLoop e s []).2 = none
    rw [bsdLoop, if_pos hpos]
  | succ k ih =>
    have hagain' : (Received.closed.errno s.errno).TryAgain := hagain
    rw [List.replicate_succ, bsdLoop_again hpos rfl hagain']
    exact ih (s := s.fail .closed) hpos hagain

/-- Three bytes are expected. -/
def threeBytes : Exchange := ⟨3, List.replicate 8 0, fun _ => 76, by decide, by decide⟩

/-- A connection that is closed after `recv` had to wait once, and one that is closed inside a
message whose first three bytes are those expected. -/
theorem closed_connections_not_met :
    (¬ ∃ k, (recvDataBsdApi threeBytes (.other 0)
        (.failed .EAGAIN :: List.replicate k .closed)).2 ≠ none) ∧
      ¬ ((recvDataWsoApi threeBytes [.bytes 76 [76, 10] 5, .closed]).2 = some true ↔
        threeBytes.Matches
          (recvDataWsoApi threeBytes [.bytes 76 [76, 10] 5, .closed]).1.buffer.received) := by
  constructor
  · rintro ⟨k, hk⟩
    refine hk ?_
    rw [recvDataBsdApi, bsdLoop_again (by decide) rfl (by decide)]
    exact bsdLoop_closed (by decide) (by decide) k
  · intro h
    have hmatches : threeBytes.Matches
        (recvDataWsoApi threeBytes [.bytes 76 [76, 10] 5, .closed]).1.buffer.received :=
      ⟨by decide, by decide⟩
    exact absurd (h.mpr hmatches) (by decide)

end WebsocketClient
end ZephyrSamples
