import ZephyrSamples.Lib.Duplex
import ZephyrSamples.Lib.Runs

/-!
# The bridge between two serial ports

`interrupt_handler` of the composite CDC ACM sample statement by statement, for two ports whose
handlers interleave in any way.  What is read from one port goes to the other one in order, but for
what is reported as dropped, and waits there with the transmit interrupt enabled, exactly when
`uart_fifo_fill` takes all it is offered and no port disables its interrupt when bytes have come
since it found its ring buffer empty. -/

namespace ZephyrSamples
namespace CdcAcmComposite

open Runs

abbrev Byte := UInt8

/-- `sizeof(buf)` -/
def bufSize : Nat := 64

/-- The statement of `interrupt_handler` that comes next, with what is in `buf`. -/
inductive Pc where
  | whilePending
  | ifRxReady
  | ringBufPut (buf : List Byte)
  | txEnable
  | ifTxReady
  | fifoFill (buf : List Byte)
  | txDisable
  deriving DecidableEq, Repr

/-- `struct serial_data` with the port and its handler: `ringbuf` is what the port has to send.
`accepted` are the bytes its FIFO has taken, and `reads` those read from it, each with the number of
bytes reported as dropped. -/
structure SerialData where
  ringbuf : List Byte
  txEnabled : Bool
  pc : Pc
  accepted : List Byte
  reads : List (List Byte × Nat)
  deriving DecidableEq, Repr

/-- After `main`. -/
def SerialData.init : SerialData where
  ringbuf := []
  txEnabled := false
  pc := .whilePending
  accepted := []
  reads := []

/-- What the port answers: whether an interrupt is pending, whether it is ready to receive and what
is read then, whether it is ready to send, and how many bytes its FIFO takes. -/
structure Answers where
  pending : Bool
  received : Option (List Byte)
  txReady : Bool
  wrote : Nat
  deriving DecidableEq, Repr

/-- A statement of the handler of `dev`: the port and its peer after it.  `size` is how many bytes a
ring buffer holds. -/
def interruptHandler (size : Nat) (dev peer : SerialData) (a : Answers) : SerialData × SerialData :=
  match dev.pc with
  | .whilePending => if a.pending then ({ dev with pc := .ifRxReady }, peer) else (dev, peer)
  | .ifRxReady =>
    match a.received with
    | none => ({ dev with pc := .ifTxReady }, peer)
    | some [] => ({ dev with pc := .ifTxReady }, peer)
    | some (b :: buf) => ({ dev with pc := .ringBufPut (b :: buf) }, peer)
  | .ringBufPut buf =>
    let wrote := min buf.length (size - peer.ringbuf.length)
    ({ dev with pc := .txEnable, reads := dev.reads ++ [(buf, buf.length - wrote)] },
      { peer with ringbuf := peer.ringbuf ++ buf.take wrote })
  | .txEnable => ({ dev with pc := .ifTxReady }, { peer with txEnabled := true })
  | .ifTxReady =>
    if a.txReady then
      match dev.ringbuf.take bufSize with
      | [] => ({ dev with pc := .txDisable }, peer)
      | b :: buf =>
        ({ dev with ringbuf := dev.ringbuf.drop bufSize, pc := .fifoFill (b :: buf) }, peer)
    else ({ dev with pc := .whilePending }, peer)
  | .fifoFill buf =>
    ({ dev with accepted := dev.accepted ++ buf.take a.wrote, pc := .whilePending }, peer)
  | .txDisable => ({ dev with txEnabled := false, pc := .whilePending }, peer)

/-- The two ports. -/
abbrev Bridge := Side → SerialData

def start : Bridge := fun _ => .init

/-- The handler of the port `dev` goes on. -/
structure Event where
  dev : Side
  answers : Answers
  deriving DecidableEq

def step (size : Nat) (peers : Bridge) (e : Event) : Bridge := fun p =>
  let next := interruptHandler size (peers e.dev) (peers e.dev.other) e.answers
  if p = e.dev then next.1 else next.2

/-- The bytes read from a port without those reported as dropped, which are the last
of each read. -/
def SerialData.kept (dev : SerialData) : List Byte :=
  dev.reads.flatMap fun read => read.1.take (read.1.length - read.2)

/-- The bytes between the ring buffer and the FIFO. -/
def Pc.taken : Pc → List Byte
  | .fifoFill buf => buf
  | _ => []

/-- The bytes read from `dev` are accepted by the FIFO of `peer`, or in its handler, or in its ring
buffer. -/
def Flows (dev peer : SerialData) : Prop :=
  peer.accepted ++ peer.pc.taken ++ peer.ringbuf = dev.kept

/-- Bytes wait in `peer` with its transmit interrupt enabled, or the handler of `dev` that has put
them there comes to enable it. -/
def Awake (dev peer : SerialData) : Prop :=
  peer.ringbuf ≠ [] → peer.txEnabled = true ∨ dev.pc = .txEnable

instance (dev peer : SerialData) : Decidable (Flows dev peer) := inferInstanceAs (Decidable (_ = _))

instance (dev peer : SerialData) : Decidable (Awake dev peer) := inferInstanceAs (Decidable (_ → _))

/-- So it is in both directions. -/
structure Conserves (dev peer : SerialData) : Prop where
  flows : Flows dev peer
  awake : Awake dev peer
  flowsBack : Flows peer dev
  awakeBack : Awake peer dev

def Sound (peers : Bridge) : Prop := ∀ dev, Conserves (peers dev) (peers dev.other)

/-- The FIFO takes all it is offered, and an interrupt is disabled with nothing in the ring buffer
unless the peer is about to enable it again. -/
def Careful (peers : Bridge) (e : Event) : Prop :=
  match (peers e.dev).pc with
  | .fifoFill buf => buf.length ≤ e.answers.wrote
  | .txDisable => (peers e.dev).ringbuf = [] ∨ (peers e.dev.other).pc = .txEnable
  | _ => True

instance (peers : Bridge) (e : Event) : Decidable (Careful peers e) := by
  unfold Careful
  cases (peers e.dev).pc <;> infer_instance

variable {size : Nat} {dev peer : SerialData} {a : Answers} {peers : Bridge} {e : Event}

theorem Conserves.symm (h : Conserves dev peer) : Conserves peer dev :=
  ⟨h.flowsBack, h.awakeBack, h.flows, h.awake⟩

theorem sound_iff (p : Side) : Sound peers ↔ Conserves (peers p) (peers p.other) := by
  constructor
  · exact fun h => h p
  · intro h dev
    rcases Side.eq_or_eq_other p dev with rfl | rfl
    · exact h
    · have hother : p.other.other = p := by cases p <;> rfl
      rw [hother]
      exact h.symm

/-- A statement that changes nothing but where the handler is, and does not leave `buf` behind. -/
theorem Conserves.move (h : Conserves dev peer) {pc : Pc} (htaken : pc.taken = dev.pc.taken)
    (henable : dev.pc ≠ .txEnable) : Conserves { dev with pc := pc } peer where
  flows := h.flows
  awake hne := (h.awake hne).imp_right fun hno => absurd hno henable
  flowsBack := by
    show dev.accepted ++ pc.taken ++ dev.ringbuf = peer.kept
    rw [htaken]
    exact h.flowsBack
  awakeBack := h.awakeBack

theorem kept_append {buf : List Byte} {wrote : Nat} (h : wrote ≤ buf.length) {pc : Pc} :
    ({ dev with pc := pc, reads := dev.reads ++ [(buf, buf.length - wrote)] } : SerialData).kept =
      dev.kept ++ buf.take wrote := by
  have hkeeps : buf.length - (buf.length - wrote) = wrote := by omega
  simp [SerialData.kept, hkeeps]

/-- The bytes that go into the ring buffer are those that are not reported. -/
theorem conserves_ringBufPut (h : Conserves dev peer) {buf : List Byte}
    (hpc : dev.pc = .ringBufPut buf) :
    Conserves (interruptHandler size dev peer a).1 (interruptHandler size dev peer a).2 := by
  simp only [interruptHandler, hpc]
  refine ⟨?_, fun _ => .inr rfl, ?_, h.awakeBack⟩
  · rw [Flows, kept_append (Nat.min_le_left _ _), ← h.flows, List.append_assoc, List.append_assoc,
      List.append_assoc]
  · have hback : dev.accepted ++ [] ++ dev.ringbuf = peer.kept := by
      simpa [Flows, hpc, Pc.taken] using h.flowsBack
    exact hback

theorem conserves_txEnable (h : Conserves dev peer) (hpc : dev.pc = .txEnable) :
    Conserves (interruptHandler size dev peer a).1 (interruptHandler size dev peer a).2 := by
  simp only [interruptHandler, hpc]
  refine ⟨h.flows, fun _ => .inl rfl, ?_, h.awakeBack⟩
  have hback : dev.accepted ++ [] ++ dev.ringbuf = peer.kept := by
    simpa [Flows, hpc, Pc.taken] using h.flowsBack
  exact hback

/-- Bytes are taken from the start of the ring buffer. -/
theorem conserves_ifTxReady (h : Conserves dev peer) (hpc : dev.pc = .ifTxReady) :
    Conserves (interruptHandler size dev peer a).1 (interruptHandler size dev peer a).2 := by
  have hback : dev.accepted ++ [] ++ dev.ringbuf = peer.kept := by
    simpa [Flows, hpc, Pc.taken] using h.flowsBack
  have henable : dev.pc ≠ .txEnable := by simp [hpc]
  have htaken (pc : Pc) (hpc' : pc.taken = []) : pc.taken = dev.pc.taken := by
    rw [hpc', hpc]
    rfl
  simp only [interruptHandler, hpc]
  split
  · split
    · exact h.move (htaken _ rfl) henable
    · rename_i b buf hget
      refine ⟨h.flows, fun hne => .inl ((h.awake hne).resolve_right henable), ?_, ?_⟩
      · show dev.accepted ++ (b :: buf) ++ dev.ringbuf.drop bufSize = peer.kept
        rw [← hget, List.append_assoc, List.take_append_drop]
        simpa using hback
      · intro hne
        refine h.awakeBack fun hnil => hne ?_
        rw [hnil, List.drop_nil]
  · exact h.move (htaken _ rfl) henable

/-- Bytes that the FIFO does not take are lost. -/
theorem conserves_fifoFill_iff (h : Conserves dev peer) {buf : List Byte}
    (hpc : dev.pc = .fifoFill buf) :
    Conserves (interruptHandler size dev peer a).1 (interruptHandler size dev peer a).2 ↔
      buf.length ≤ a.wrote := by
  have hback : dev.accepted ++ buf ++ dev.ringbuf = peer.kept := by
    simpa [Flows, hpc, Pc.taken] using h.flowsBack
  have henable : dev.pc ≠ .txEnable := by simp [hpc]
  simp only [interruptHandler, hpc]
  constructor
  · intro hnext
    have hflows : dev.accepted ++ buf.take a.wrote ++ [] ++ dev.ringbuf = peer.kept :=
      hnext.flowsBack
    rw [← hback, List.append_nil] at hflows
    have htake : buf.take a.wrote = buf :=
      List.append_cancel_left (List.append_cancel_right hflows)
    have hlength := congrArg List.length htake
    rw [List.length_take] at hlength
    omega
  · intro hall
    refine ⟨h.flows, fun hne => .inl ((h.awake hne).resolve_right henable), ?_, h.awakeBack⟩
    show dev.accepted ++ buf.take a.wrote ++ [] ++ dev.ringbuf = peer.kept
    rw [List.take_of_length_le hall, List.append_nil]
    exact hback

/-- Bytes that have come since the ring buffer was found empty wait with the interrupt disabled. -/
theorem conserves_txDisable_iff (h : Conserves dev peer) (hpc : dev.pc = .txDisable) :
    Conserves (interruptHandler size dev peer a).1 (interruptHandler size dev peer a).2 ↔
      dev.ringbuf = [] ∨ peer.pc = .txEnable := by
  have hback : dev.accepted ++ [] ++ dev.ringbuf = peer.kept := by
    simpa [Flows, hpc, Pc.taken] using h.flowsBack
  have henable : dev.pc ≠ .txEnable := by simp [hpc]
  simp only [interruptHandler, hpc]
  constructor
  · intro hnext
    by_cases hempty : dev.ringbuf = []
    · exact .inl hempty
    · exact .inr ((hnext.awakeBack hempty).resolve_left Bool.false_ne_true)
  · intro hsafe
    refine ⟨h.flows, fun hne => .inl ((h.awake hne).resolve_right henable), hback, fun hne => ?_⟩
    exact .inr (hsafe.resolve_left hne)

/-- What a statement needs of the answers to conserve the bytes. -/
theorem conserves_interruptHandler_iff (h : Conserves dev peer) :
    Conserves (interruptHandler size dev peer a).1 (interruptHandler size dev peer a).2 ↔
      match dev.pc with
      | .fifoFill buf => buf.length ≤ a.wrote
      | .txDisable => dev.ringbuf = [] ∨ peer.pc = .txEnable
      | _ => True := by
  cases hpc : dev.pc with
  | whilePending =>
    refine iff_of_true ?_ trivial
    simp only [interruptHandler, hpc]
    split
    · exact h.move (by rw [hpc]; rfl) (by simp [hpc])
    · exact h
  | ifRxReady =>
    refine iff_of_true ?_ trivial
    simp only [interruptHandler, hpc]
    split
    · exact h.move (by rw [hpc]; rfl) (by simp [hpc])
    · exact h.move (by rw [hpc]; rfl) (by simp [hpc])
    · exact h.move (by rw [hpc]; rfl) (by simp [hpc])
  | ringBufPut buf => exact iff_of_true (conserves_ringBufPut h hpc) trivial
  | txEnable => exact iff_of_true (conserves_txEnable h hpc) trivial
  | ifTxReady => exact iff_of_true (conserves_ifTxReady h hpc) trivial
  | fifoFill buf => exact conserves_fifoFill_iff h hpc
  | txDisable => exact conserves_txDisable_iff h hpc

theorem sound_step_iff (h : Sound peers) : Sound (step size peers e) ↔ Careful peers e := by
  rw [sound_iff e.dev]
  have hown : step size peers e e.dev =
      (interruptHandler size (peers e.dev) (peers e.dev.other) e.answers).1 := if_pos rfl
  have hpeer : step size peers e e.dev.other =
      (interruptHandler size (peers e.dev) (peers e.dev.other) e.answers).2 :=
    if_neg e.dev.other_ne
  rw [hown, hpeer]
  exact conserves_interruptHandler_iff (h e.dev)

theorem sound_start : Sound start :=
  fun _ => ⟨rfl, fun hne => absurd rfl hne, rfl, fun hne => absurd rfl hne⟩

/-- Every run, for ring buffers of any size. -/
theorem bridge_sound_iff_careful (size : Nat) (es : List Event) :
    Always (step size) Sound start es ↔ Along (step size) Careful start es :=
  always_iff_along (step size) (I := fun _ => True) (fun _ _ _ => trivial)
    (fun _ _ _ h => sound_step_iff h) trivial sound_start es

/-- The handler of `dev` goes on with nothing but an interrupt pending. -/
def goOn (dev : Side) : Event := ⟨dev, ⟨true, none, false, 0⟩⟩

/-- Two bytes are read from the left port, and the FIFO of the right one takes one of them. -/
def shortWrite : List Event :=
  [goOn .left, ⟨.left, ⟨true, some [1, 2], false, 0⟩⟩, goOn .left, goOn .left, goOn .left,
    goOn .right, goOn .right, ⟨.right, ⟨true, none, true, 0⟩⟩, ⟨.right, ⟨true, none, false, 1⟩⟩]

/-- The right port has found its ring buffer empty when a byte is read from the left one, and
disables its interrupt after that. -/
def lateDisable : List Event :=
  [goOn .right, goOn .right, ⟨.right, ⟨true, none, true, 0⟩⟩, goOn .left,
    ⟨.left, ⟨true, some [1], false, 0⟩⟩, goOn .left, goOn .left, goOn .left, goOn .right]

/-- After them no handler is under way; a byte is lost that no report names, or one waits with the
interrupt disabled. -/
theorem bridge_not_sound :
    (∀ p, (run (step 128) start shortWrite p).pc = .whilePending) ∧
      (run (step 128) start shortWrite .left).kept = [1, 2] ∧
      (run (step 128) start shortWrite .right).accepted = [1] ∧
      (run (step 128) start shortWrite .right).ringbuf = [] ∧
      (∀ p, (run (step 128) start lateDisable p).pc = .whilePending) ∧
      (run (step 128) start lateDisable .right).ringbuf = [1] ∧
      (run (step 128) start lateDisable .right).txEnabled = false ∧
      ¬ Always (step 128) Sound start shortWrite ∧ ¬ Always (step 128) Sound start lateDisable := by
  refine ⟨fun p => by cases p <;> decide, by decide, by decide, by decide,
    fun p => by cases p <;> decide, by decide, by decide, fun h => ?_, fun h => ?_⟩
  · have hlast : Sound (run (step 128) start shortWrite) := h.last
    exact absurd (hlast .left).flows (by decide)
  · have hlast : Sound (run (step 128) start lateDisable) := h.last
    exact absurd (hlast .left).awake (by decide)

end CdcAcmComposite
end ZephyrSamples
