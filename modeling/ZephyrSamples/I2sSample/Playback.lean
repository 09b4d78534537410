import Mathlib.Data.Fintype.Basic
import ZephyrSamples.Lib.Custody
import ZephyrSamples.Lib.Runs

/-!
# Playback of tones or of the host's audio

`i2s_prepare_audio` for the two devices and `i2s_play_audio`, one call at a time with what the code
does on its result, and between the calls what the devices do with their blocks.  `needs` are the
buffers that the thread has at a place of its code.  `i2s_play_audio` passes the size of a block in
bytes where `audio_playback_buffer_fill` counts samples of each channel.
-/

namespace ZephyrSamples
namespace I2sSample

open Custody Runs

/-- `AUDIO_SAMPLE_FREQ` -/
def audioSampleFreq : Nat := 48000

/-- `AUDIO_SAMPLES_PER_CH_PER_FRAME` -/
def audioSamplesPerChPerFrame : Nat := 64

/-- `AUDIO_NUM_CHANNELS` -/
def audioNumChannels : Nat := 2

/-- `AUDIO_SAMPLE_BYTES` -/
def audioSampleBytes : Nat := 4

/-- `AUDIO_FRAME_BUF_BYTES` -/
def audioFrameBufBytes : Nat := audioSamplesPerChPerFrame * audioNumChannels * audioSampleBytes

/-- `I2S_PLAY_BUF_COUNT` -/
abbrev i2sPlayBufCount : Nat := 6

/-- `I2S_TX_PRELOAD_BUF_COUNT` -/
def i2sTxPreloadBufCount : Nat := 2

/-- `TONES_TO_PLAY` -/
def tonesToPlay : List Nat := [0, 2, 4, 5, 7, 9, 10, 12, 12, 10, 9, 7, 5, 4, 2, 0]

/-- `AUDIO_FRAMES_PER_TONE_DURATION`, for tones of one second -/
def audioFramesPerToneDuration : Nat := 1 * (audioSampleFreq / audioSamplesPerChPerFrame)

/-! ## The samples -/

/-- What the code computes with `float`: `toneDelta t` is `BASE_TONE_PHASE_DELTA * powf(2.0, t /
12.0)`, `sample` the scaled sine of a phase and `nextPhase` the phase after a sample. -/
structure Synth (F : Type) where
  zero : F
  toneDelta : Nat → F
  toneDelta_ne : ∀ t, toneDelta t ≠ zero
  sample : F → BitVec 32
  nextPhase : F → F → F

/-- The words stored from `buffer` on, the samples counted, and `phase`. -/
structure Fill (F : Type) where
  words : List (BitVec 32)
  sampleIndex : Nat
  phase : F

variable {F : Type} (synth : Synth F)

def audioPlaybackBufferFill [DecidableEq F] (phaseDelta : F) (channels : Nat) : Nat → F → Fill F
  | 0, phase => ⟨[], 0, phase⟩
  | samples + 1, phase =>
    if phaseDelta = synth.zero then ⟨[], 0, phase⟩
    else
      let rest := audioPlaybackBufferFill phaseDelta channels samples
        (synth.nextPhase phase phaseDelta)
      { rest with
        words := List.replicate channels (synth.sample phase) ++ rest.words
        sampleIndex := rest.sampleIndex + 1 }

variable {synth} in
/-- Each sample counted is stored once for every channel. -/
theorem length_fill [DecidableEq F] {phaseDelta : F} (h : phaseDelta ≠ synth.zero)
    (channels samples : Nat) (phase : F) :
    (audioPlaybackBufferFill synth phaseDelta channels samples phase).words.length =
        samples * channels ∧
      (audioPlaybackBufferFill synth phaseDelta channels samples phase).sampleIndex = samples := by
  induction samples generalizing phase with
  | zero => exact ⟨(Nat.zero_mul channels).symm, rfl⟩
  | succ samples ih =>
    obtain ⟨hwords, hindex⟩ := ih (synth.nextPhase phase phaseDelta)
    rw [audioPlaybackBufferFill, if_neg h]
    refine ⟨?_, congrArg (· + 1) hindex⟩
    show (List.replicate channels _ ++ _).length = _
    rw [List.length_append, List.length_replicate, hwords, Nat.succ_mul, Nat.add_comm]

/-- `audio_playback_tone_get_next`, with its `index` and `frame`. -/
def audioPlaybackToneGetNext (index frame : Nat) : F × Nat × Nat :=
  let frame := frame + 1
  let (index, frame) :=
    if frame = audioFramesPerToneDuration then (index + 1, 0) else (index, frame)
  if index = tonesToPlay.length then (synth.zero, 0, frame)
  else (synth.toneDelta (tonesToPlay.getD index 0), index, frame)

/-! ## The thread and the devices -/

/-- A block of `i2s_mem_slab`. -/
abbrev Block := Fin i2sPlayBufCount

inductive Device where
  | spk
  | host
  deriving DecidableEq, Repr

inductive Party where
  | thread
  | device (d : Device)
  deriving DecidableEq, Repr

/-- The next call.  `n` is the `frame_counter` of `i2s_prepare_audio(dev)`. -/
inductive Pc where
  | prepareAlloc (dev : Device) (n : Nat)
  | prepareMemset (dev : Device) (n : Nat)
  | prepareWrite (dev : Device) (n : Nat)
  | read
  | alloc
  | copy
  | hostWrite
  | fill
  | spkWrite
  | returned
  deriving DecidableEq, Repr

/-- Bytes stored from the start of a block on. -/
structure Store where
  block : Block
  bytes : Nat
  deriving DecidableEq, Repr

/-- The thread with its locals (`none` where one has not been set), its `static` variables, and the
owners of the blocks.  `misused` says that a function was given something that was not a block of
the thread. -/
structure Playback (F : Type) where
  pc : Pc
  buffer : Option Block
  inBuf : Option Block
  copyBuf : Option Block
  phase : F
  index : Nat
  frame : Nat
  owner : Block → Option Party
  stores : List Store
  misused : Bool

/-- At `i2s_prepare_audio(spk_i2s_dev)`. -/
def start : Playback F where
  pc := .prepareAlloc .spk 1
  buffer := none
  inBuf := none
  copyBuf := none
  phase := synth.zero
  index := 0
  frame := 0
  owner _ := none
  stores := []
  misused := false

/-- The thread goes on, with the block that an allocation or a read gives, if it succeeds, and
whether a write succeeds; or a device takes a block to fill or gives up one. -/
inductive Event where
  | thread (got : Option Block) (ok : Bool)
  | takes (d : Device) (b : Block)
  | releases (d : Device) (b : Block)
  deriving DecidableEq, Repr

namespace Playback

def hands (s : Playback F) (b : Block) (o : Option Party) : Playback F :=
  { s with owner := Function.update s.owner b o }

/-- A function is given the buffer. -/
def use (s : Playback F) (buf : Option Block) : Playback F :=
  match buf with
  | some b => { s with misused := s.misused || !decide (s.owner b = some .thread) }
  | none => { s with misused := true }

/-- A function is given the buffer and stores bytes in it. -/
def store (s : Playback F) (buf : Option Block) (bytes : Nat) : Playback F :=
  match buf with
  | some b => { s.use buf with stores := ⟨b, bytes⟩ :: s.stores }
  | none => s.use buf

/-- The block that a successful `k_mem_slab_alloc` or `i2s_read` returns. -/
def receive (s : Playback F) : Option Block → Playback F
  | some b => s.hands b (some .thread)
  | none => s

def memSlabFree (s : Playback F) (buf : Option Block) : Playback F :=
  match buf with
  | some b => (s.use buf).hands b none
  | none => s.use buf

def i2sWrite (s : Playback F) (d : Device) (buf : Option Block) (ok : Bool) : Playback F :=
  match buf, ok with
  | some b, true => (s.use buf).hands b (some (.device d))
  | _, _ => s.use buf

end Playback

/-- Behind a return of `i2s_prepare_audio(dev)`. -/
def prepareReturn : Device → Pc
  | .spk => .prepareAlloc .host 1
  | .host => .read

/-- The loop's test after `n` frames. -/
def prepareNext (dev : Device) (n : Nat) : Pc :=
  if n < i2sTxPreloadBufCount then .prepareAlloc dev (n + 1) else prepareReturn dev

/-- The thread's next call and what follows it; `fromHost` is `AUDIO_PLAY_FROM_HOST`. -/
def threadStep [DecidableEq F] (fromHost : Bool) (s : Playback F) (got : Option Block) (ok : Bool) :
    Playback F :=
  match s.pc with
  -- i2s_prepare_audio
  | .prepareAlloc dev n =>
    if got = none then { s with pc := prepareReturn dev }
    else { s.receive got with buffer := got, pc := .prepareMemset dev n }
  | .prepareMemset dev n => { s.store s.buffer audioFrameBufBytes with pc := .prepareWrite dev n }
  | .prepareWrite dev n =>
    let s' := s.i2sWrite dev s.buffer ok
    { (if ok then s' else s'.memSlabFree s.buffer) with pc := prepareNext dev n }
  -- i2s_play_audio
  | .read =>
    if got = none then { s with pc := .returned }
    else { s.receive got with inBuf := got, pc := .alloc }
  | .alloc =>
    if got = none then { s.memSlabFree s.inBuf with pc := .returned }
    else { s.receive got with copyBuf := got, pc := .copy }
  | .copy => { (s.use s.inBuf).store s.copyBuf audioFrameBufBytes with pc := .hostWrite }
  | .hostWrite =>
    let s' := s.i2sWrite .host s.copyBuf ok
    if ok then { s' with pc := if fromHost then .spkWrite else .fill }
    else { s'.memSlabFree s.copyBuf with pc := .returned }
  | .fill =>
    let (phaseDelta, index, frame) := audioPlaybackToneGetNext synth s.index s.frame
    let fill := audioPlaybackBufferFill synth phaseDelta audioNumChannels audioFrameBufBytes s.phase
    let s' := { s.store s.inBuf (audioSampleBytes * fill.words.length) with
      phase := fill.phase, index := index, frame := frame }
    if fill.sampleIndex < audioFrameBufBytes then { s'.memSlabFree s.inBuf with pc := .returned }
    else { s' with pc := .spkWrite }
  | .spkWrite =>
    let s' := s.i2sWrite .spk s.inBuf ok
    { (if ok then s' else s'.memSlabFree s.inBuf) with pc := .read }
  | .returned => s

def step [DecidableEq F] (fromHost : Bool) (s : Playback F) : Event → Playback F
  | .thread got ok => threadStep synth fromHost s got ok
  | .takes d b => s.hands b (some (.device d))
  | .releases _ b => s.hands b none

/-- An allocation gives a free block, a read one that the host's device has. -/
def Gives (s : Playback F) (b : Block) : Prop :=
  match s.pc with
  | .prepareAlloc _ _ => s.owner b = none
  | .alloc => s.owner b = none
  | .read => s.owner b = some (.device .host)
  | _ => True

instance (s : Playback F) (b : Block) : Decidable (Gives s b) := by
  unfold Gives
  split <;> infer_instance

/-- A device takes free blocks and gives up its own. -/
def Possible (s : Playback F) : Event → Prop
  | .thread got _ => ∀ b ∈ got, Gives s b
  | .takes _ b => s.owner b = none
  | .releases d b => s.owner b = some (.device d)

instance (s : Playback F) : ∀ e, Decidable (Possible s e)
  | .thread got _ => inferInstanceAs (Decidable (∀ b ∈ got, Gives s b))
  | .takes _ b => inferInstanceAs (Decidable (s.owner b = none))
  | .releases d b => inferInstanceAs (Decidable (s.owner b = some (.device d)))

/-- Where an iteration begins, or a function has returned. -/
def Pc.between : Pc → Bool
  | prepareAlloc _ _ => true
  | read => true
  | returned => true
  | _ => false

/-- The thread gave away and used only its own blocks, no store went over the end of its block, and
between two iterations the thread has none. -/
structure Clean (s : Playback F) : Prop where
  given : s.misused = false
  within : ∀ w ∈ s.stores, w.bytes ≤ audioFrameBufBytes
  between : s.pc.between = true → ∀ b, s.owner b ≠ some .thread

/-- The host takes the copy, and the block is not filled with a tone. -/
def GoesWell (s : Playback F) : Event → Prop
  | .thread _ ok =>
    match s.pc with
    | .hostWrite => ok = true
    | .fill => False
    | _ => True
  | .takes _ _ => True
  | .releases _ _ => True

instance (s : Playback F) : ∀ e, Decidable (GoesWell s e)
  | .thread _ _ => by
    unfold GoesWell
    dsimp only
    split <;> infer_instance
  | .takes _ _ => inferInstanceAs (Decidable True)
  | .releases _ _ => inferInstanceAs (Decidable True)

/-! ## What the thread has -/

/-- The locals that hold a block of the thread at a place of its code. -/
def needs (s : Playback F) : List (Option Block) :=
  match s.pc with
  | .prepareMemset _ _ => [s.buffer]
  | .prepareWrite _ _ => [s.buffer]
  | .alloc => [s.inBuf]
  | .copy => [s.inBuf, s.copyBuf]
  | .hostWrite => [s.copyBuf, s.inBuf]
  | .fill => [s.inBuf]
  | .spkWrite => [s.inBuf]
  | _ => []

/-- The thread has the blocks of these locals and no others, and no tone has been played. -/
structure Keeps (s : Playback F) : Prop where
  given : s.misused = false
  within : ∀ w ∈ s.stores, w.bytes ≤ audioFrameBufBytes
  blocks : Holds Party.thread s.owner (needs s)
  first : s.index = 0 ∧ s.frame = 0

theorem keeps_start : Keeps (start synth) where
  given := rfl
  within := fun _ h => (nomatch h)
  blocks := holds_nil.mpr fun _ h => (nomatch h)
  first := ⟨rfl, rfl⟩

theorem needs_of_between {s : Playback F} (h : s.pc.between = true) : needs s = [] := by
  unfold needs
  cases hpc : s.pc <;> simp_all [Pc.between]

theorem Keeps.clean {s : Playback F} (h : Keeps s) : Clean s where
  given := h.given
  within := h.within
  between := by
    intro hbetween
    have hblocks := h.blocks
    rw [needs_of_between hbetween] at hblocks
    exact holds_nil.mp hblocks

theorem prepareReturn_between (dev : Device) : (prepareReturn dev).between = true := by
  cases dev <;> rfl

theorem prepareNext_between (dev : Device) (n : Nat) : (prepareNext dev n).between = true := by
  unfold prepareNext
  split
  · rfl
  · exact prepareReturn_between dev

/-! ## One call -/

section Rules

variable {s s' : Playback F} {x : Option Block} {b : Block}

theorem use_owned (h : s.owner b = some .thread) : s.use (some b) = s := by
  simp only [Playback.use, h, decide_true, Bool.not_true, Bool.or_false]

theorem store_owned (h : s.owner b = some .thread) (bytes : Nat) :
    s.store (some b) bytes = { s with stores := ⟨b, bytes⟩ :: s.stores } := by
  rw [Playback.store, use_owned h]

theorem memSlabFree_owned (h : s.owner b = some .thread) :
    s.memSlabFree (some b) = s.hands b none := by
  rw [Playback.memSlabFree, use_owned h]

theorem i2sWrite_owned (h : s.owner b = some .thread) (d : Device) :
    s.i2sWrite d (some b) true = s.hands b (some (.device d)) := by
  rw [Playback.i2sWrite, use_owned h]

theorem i2sWrite_fails (h : s.owner b = some .thread) (d : Device) :
    s.i2sWrite d (some b) false = s :=
  use_owned h

/-- A block written is the device's; one that is not taken is freed. -/
theorem writeOrFree_owned (h : s.owner b = some .thread) (d : Device) (ok : Bool) :
    (if ok then s.i2sWrite d (some b) ok else (s.i2sWrite d (some b) ok).memSlabFree (some b)) =
      s.hands b (if ok then some (.device d) else none) := by
  cases ok with
  | true => exact i2sWrite_owned h d
  | false =>
    show (s.i2sWrite d (some b) false).memSlabFree (some b) = s.hands b none
    rw [i2sWrite_fails h, memSlabFree_owned h]

/-- What concerns neither the blocks nor the place of the code. -/
structure Alike (s s' : Playback F) : Prop where
  misused : s'.misused = s.misused
  stores : s'.stores = s.stores
  tone : s'.index = s.index ∧ s'.frame = s.frame

theorem Keeps.alike (h : Keeps s) (halike : Alike s s')
    (hblocks : Holds Party.thread s'.owner (needs s')) : Keeps s' where
  given := halike.misused.trans h.given
  within := by
    rw [halike.stores]
    exact h.within
  blocks := hblocks
  first := ⟨halike.tone.1.trans h.first.1, halike.tone.2.trans h.first.2⟩

theorem Keeps.moves (h : Keeps s) (halike : Alike s s') (hneeds : needs s' = needs s)
    (howner : s'.owner = s.owner) : Keeps s' := by
  refine h.alike halike ?_
  rw [hneeds, howner]
  exact h.blocks

theorem Keeps.gets (h : Keeps s) (hb : s.owner b ≠ some .thread) (halike : Alike s s')
    (hneeds : needs s' = needs s ++ [some b])
    (howner : s'.owner = Function.update s.owner b (some .thread)) : Keeps s' := by
  refine h.alike halike ?_
  rw [hneeds, howner]
  exact h.blocks.gets hb

theorem Keeps.gives {o : Option Party} (h : Keeps s) (ho : o ≠ some .thread) (halike : Alike s s')
    (hneeds : needs s = some b :: needs s') (howner : s'.owner = Function.update s.owner b o) :
    Keeps s' := by
  refine h.alike halike ?_
  have hblocks := h.blocks
  rw [hneeds] at hblocks
  rw [howner]
  exact hblocks.gives ho

theorem Keeps.elsewhere {b : Block} {o : Option Party} (h : Keeps s) (hb : s.owner b ≠ some .thread)
    (ho : o ≠ some .thread) : Keeps (s.hands b o) :=
  h.alike ⟨rfl, rfl, rfl, rfl⟩ (h.blocks.elsewhere hb ho)

theorem Keeps.uses (h : Keeps s) (hx : x ∈ needs s) : s.use x = s := by
  obtain ⟨b, rfl, hb⟩ := h.blocks.some_of_mem hx
  exact use_owned hb

/-- Stores into a block of the thread, from its start up to its end. -/
theorem Keeps.stores {pc : Pc} (h : Keeps s) (hx : x ∈ needs s)
    (hneeds : (needs s).Perm (needs { s with pc := pc })) :
    Keeps { s.store x audioFrameBufBytes with pc := pc } := by
  obtain ⟨b, rfl, hb⟩ := h.blocks.some_of_mem hx
  rw [store_owned hb]
  exact ⟨h.given, List.forall_mem_cons.mpr ⟨le_refl _, h.within⟩, h.blocks.perm hneeds, h.first⟩

/-- A buffer that a device takes, or that is freed. -/
theorem Keeps.writesOrFrees {pc : Pc} {d : Device} {ok : Bool} (h : Keeps s)
    (hneeds : needs s = [x]) (hpc : pc.between = true) :
    Keeps { (if ok then s.i2sWrite d x ok else (s.i2sWrite d x ok).memSlabFree x) with
      pc := pc } := by
  obtain ⟨b, rfl, hb⟩ := h.blocks.some_of_mem (by rw [hneeds]; exact List.mem_singleton_self x)
  rw [writeOrFree_owned hb]
  refine h.gives (o := if ok then some (.device d) else none) ?_ ⟨rfl, rfl, rfl, rfl⟩ ?_ rfl
  · cases ok <;> simp
  · rw [hneeds, needs_of_between hpc]

end Rules

section Step

variable [DecidableEq F] {synth} {fromHost : Bool} {s : Playback F} {got : Option Block} {ok : Bool}

theorem keeps_thread (h : Keeps s) (he : Possible s (.thread got ok))
    (hG : GoesWell s (.thread got ok)) : Keeps (threadStep synth fromHost s got ok) := by
  have hgives : ∀ b, got = some b → Gives s b := fun b hb => he b hb
  unfold threadStep
  unfold Gives at hgives
  unfold GoesWell at hG
  cases hpc : s.pc <;> simp only [hpc] at hgives hG
  case prepareAlloc dev n =>
    cases got with
    | none =>
      have hnone : needs { s with pc := prepareReturn dev } = [] :=
        needs_of_between (prepareReturn_between dev)
      exact h.moves ⟨rfl, rfl, rfl, rfl⟩ (hnone.trans (by simp [needs, hpc])) rfl
    | some b => exact h.gets (by simp [hgives]) ⟨rfl, rfl, rfl, rfl⟩ (by simp [needs, hpc]) rfl
  case prepareMemset dev n => exact h.stores (by simp [needs, hpc]) (by simp [needs, hpc])
  case prepareWrite dev n =>
    exact h.writesOrFrees (by simp [needs, hpc]) (prepareNext_between dev n)
  case read =>
    cases got with
    | none => exact h.moves ⟨rfl, rfl, rfl, rfl⟩ (by simp [needs, hpc]) rfl
    | some b => exact h.gets (by simp [hgives]) ⟨rfl, rfl, rfl, rfl⟩ (by simp [needs, hpc]) rfl
  case alloc =>
    cases got with
    | none =>
      obtain ⟨b, hb, hown⟩ := h.blocks.some_of_mem (x := s.inBuf) (by simp [needs, hpc])
      simp only [hb, memSlabFree_owned hown, ↓reduceIte]
      exact h.gives (o := none) (by simp) ⟨rfl, rfl, rfl, rfl⟩ (by simp [needs, hpc, hb]) rfl
    | some b =>
      exact h.gets (by simp [hgives]) ⟨rfl, rfl, rfl, rfl⟩
        (by simp [needs, hpc, Playback.receive, Playback.hands]) rfl
  case copy =>
    have hin : s.use s.inBuf = s := h.uses (by simp [needs, hpc])
    rw [hin]
    exact h.stores (by simp [needs, hpc]) (by simpa [needs, hpc] using List.Perm.swap _ _ [])
  case hostWrite =>
    subst hG
    obtain ⟨b, hb, hown⟩ := h.blocks.some_of_mem (x := s.copyBuf) (by simp [needs, hpc])
    simp only [hb, i2sWrite_owned hown, ↓reduceIte]
    refine h.gives (o := some (.device .host)) (by simp) ⟨rfl, rfl, rfl, rfl⟩ ?_ rfl
    cases fromHost <;> simp [needs, hpc, hb, Playback.hands]
  case spkWrite => exact h.writesOrFrees (by simp [needs, hpc]) rfl
  case returned => exact h

theorem keeps_step {e : Event} (h : Keeps s) (he : Possible s e) (hG : GoesWell s e) :
    Keeps (step synth fromHost s e) := by
  cases e with
  | thread got ok => exact keeps_thread h he hG
  | takes d b =>
    have hb : s.owner b = none := he
    exact h.elsewhere (by simp [hb]) (by simp)
  | releases d b =>
    have hb : s.owner b = some (.device d) := he
    exact h.elsewhere (by simp [hb]) (by simp)

/-! ## The two ways it goes wrong -/

/-- The copy that the host does not take is freed, and what was read from the host is not. -/
theorem hostWrite_not_clean (h : Keeps s) (hpc : s.pc = .hostWrite) :
    ¬ Clean (threadStep synth fromHost s got false) := by
  intro hclean
  obtain ⟨c, hc, hcown⟩ := h.blocks.some_of_mem (x := s.copyBuf) (by simp [needs, hpc])
  obtain ⟨b, hb, hbown⟩ := h.blocks.some_of_mem (x := s.inBuf) (by simp [needs, hpc])
  have hne : b ≠ c := by
    have hnodup := h.blocks.nodup
    simp only [needs, hpc, hb, hc] at hnodup
    simpa [eq_comm] using hnodup
  have hstep : threadStep synth fromHost s got false = { s.hands c none with pc := .returned } := by
    unfold threadStep
    simp only [hpc, hc, i2sWrite_fails hcown, memSlabFree_owned hcown, Bool.false_eq_true, if_false]
  rw [hstep] at hclean
  exact hclean.between rfl b (keeps_of_ne hbown hne)

/-- The first tone is not zero: the loop stores as many samples for each channel as the block has
bytes. -/
theorem fill_not_clean (h : Keeps s) (hpc : s.pc = .fill) :
    ¬ Clean (threadStep synth fromHost s got ok) := by
  intro hclean
  obtain ⟨b, hb, hown⟩ := h.blocks.some_of_mem (x := s.inBuf) (by simp [needs, hpc])
  have htone : audioPlaybackToneGetNext synth s.index s.frame = (synth.toneDelta 0, 0, 1) := by
    rw [h.first.1, h.first.2]
    rfl
  obtain ⟨hwords, hindex⟩ := length_fill (synth.toneDelta_ne 0) audioNumChannels audioFrameBufBytes
    s.phase
  have hstores : (threadStep synth fromHost s got ok).stores =
      ⟨b, audioSampleBytes * (audioFrameBufBytes * audioNumChannels)⟩ :: s.stores := by
    unfold threadStep
    simp only [hpc, htone, hb, hindex, hwords, lt_irrefl, if_false]
    rw [store_owned hown]
  have hwithin := hclean.within
  rw [hstores] at hwithin
  have hfits := hwithin _ List.mem_cons_self
  simp [audioSampleBytes, audioFrameBufBytes, audioSamplesPerChPerFrame, audioNumChannels] at hfits

theorem clean_step_iff {e : Event} (h : Keeps s) (he : Possible s e) :
    Clean (step synth fromHost s e) ↔ GoesWell s e := by
  refine ⟨fun hclean => ?_, fun hG => (keeps_step h he hG).clean⟩
  cases e with
  | takes d b => trivial
  | releases d b => trivial
  | thread got ok =>
    unfold GoesWell
    dsimp only
    split
    case h_1 hpc =>
      cases ok with
      | true => rfl
      | false => exact absurd hclean (hostWrite_not_clean h hpc)
    case h_2 hpc => exact fill_not_clean h hpc hclean
    case h_3 => trivial

/-- Any number of iterations, with any pattern of failures, in both modes. -/
theorem playback_clean_iff {es : List Event}
    (he : Along (step synth fromHost) Possible (start synth) es) :
    Always (step synth fromHost) Clean (start synth) es ↔
      Along (step synth fromHost) GoesWell (start synth) es :=
  always_iff_along_of_kept _ (fun _ _ h he hG => keeps_step h he hG) (fun _ _ => clean_step_iff)
    (keeps_start synth) (keeps_start synth).clean he

end Step

/-- Phases that are counted. -/
def countedSynth : Synth Nat where
  zero := 0
  toneDelta t := t + 1
  toneDelta_ne _ := Nat.succ_ne_zero _
  sample phase := BitVec.ofNat 32 phase
  nextPhase phase phaseDelta := phase + phaseDelta

/-- Silence in two blocks for the speaker, none for the host, and the first read fails. -/
theorem playback_clean_without_host :
    Always (step countedSynth false) Clean (start countedSynth)
      [.thread (some 0) true, .thread none true, .thread none true, .thread (some 1) true,
        .thread none true, .thread none true, .thread none true, .thread none true] :=
  (playback_clean_iff (by decide)).mpr (by decide)

/-- Every call succeeds, up to the first tone. -/
def untilTone : List Event :=
  [.thread (some 0) true, .thread none true, .thread none true, .thread (some 1) true,
    .thread none true, .thread none true, .thread (some 2) true, .thread none true,
    .thread none true, .thread (some 3) true, .thread none true, .thread none true,
    .takes .host 4, .thread (some 4) true, .thread (some 5) true, .thread none true,
    .thread none true]

theorem first_tone_overruns :
    Along (step countedSynth false) Possible (start countedSynth)
        (untilTone ++ [.thread none true]) ∧
      ¬ Always (step countedSynth false) Clean (start countedSynth)
        (untilTone ++ [.thread none true]) := by
  refine ⟨by decide, fun h => ?_⟩
  have halong : Along (step countedSynth false) (fun s e => Possible s e ∧ GoesWell s e)
      (start countedSynth) untilTone := by decide
  have hkeeps : Keeps (run (step countedSynth false) (start countedSynth) untilTone) :=
    Along.invariant _ (fun _ _ h he => keeps_step h he.1 he.2) (keeps_start countedSynth) halong
  have hlast := h.last
  rw [run_append, run_cons, run_nil, step] at hlast
  exact fill_not_clean hkeeps rfl hlast

end I2sSample
end ZephyrSamples
