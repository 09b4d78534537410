import Mathlib.Data.List.Nodup
import Mathlib.Data.Option.Basic
import Mathlib.Data.Sigma.Basic
import ZephyrSamples.Lib.Custody
import ZephyrSamples.Lib.Runs

/-!
# Audio buffers

The driver thread from `audio_driver_start` on, one call that concerns a buffer at a time, and
between its calls what the devices do with theirs.  `needs` are the buffers the thread has at a
place of its code; it loses none exactly as long as no call fails behind which it has one. -/

namespace ZephyrSamples
namespace AudioCrb

open Custody Runs

inductive Slab where
  | micIn
  | hostInout
  | spkOut
  deriving DecidableEq, Repr

/-- `MIC_IN_BUF_COUNT`, `HOST_INOUT_BUF_COUNT`, `SPK_OUT_BUF_COUNT` -/
def Slab.bufCount : Slab → Nat
  | micIn => 2
  | hostInout => 4
  | spkOut => 2

abbrev Block := (slab : Slab) × Fin slab.bufCount

inductive Device where
  | dmic
  | i2sHost
  | i2sSpkOut
  deriving DecidableEq, Repr

inductive Party where
  | driver
  | device (d : Device)
  deriving DecidableEq, Repr

/-- The next statement of the thread.  `more` says that `audio_driver_start` has another frame of
zeros to send after this one. -/
inductive Pc where
  | zerosSpkAlloc (more : Bool)
  | zerosHostAlloc (more : Bool)
  | zerosSpkWrite (more : Bool)
  | zerosHostWrite (more : Bool)
  | loop
  | dmicRead
  | i2sRead
  | sources
  | freeMicIn
  | freeHostIn
  | spkAlloc
  | hostAlloc
  | speakerSink
  | hostSink
  | spkWrite
  | hostWrite
  deriving DecidableEq, Repr

/-- The thread with its locals (`none` where one has not been set) and the owners of the blocks.
`misused` says that a function was given something that was not a block of the driver. -/
structure Io where
  pc : Pc
  micInBuf : Option Block
  hostInBuf : Option Block
  spkOutBuf : Option Block
  hostOutBuf : Option Block
  owner : Block → Option Party
  misused : Bool

/-- At `audio_driver_start`. -/
def start : Io where
  pc := .zerosSpkAlloc true
  micInBuf := none
  hostInBuf := none
  spkOutBuf := none
  hostOutBuf := none
  owner _ := none
  misused := false

/-- The thread goes on, with the block that an allocation or a read gives, if it succeeds, and
whether a write succeeds; or a device takes a block to fill or gives up one. -/
inductive Event where
  | thread (got : Option Block) (ok : Bool)
  | takes (d : Device) (b : Block)
  | releases (d : Device) (b : Block)
  deriving DecidableEq, Repr

def Io.hands (s : Io) (b : Block) (o : Option Party) : Io :=
  { s with owner := Function.update s.owner b o }

/-- A function is given the buffer. -/
def Io.use (s : Io) (buf : Option Block) : Io :=
  match buf with
  | some b => { s with misused := s.misused || !decide (s.owner b = some .driver) }
  | none => { s with misused := true }

/-- The block that a successful `k_mem_slab_alloc`, `dmic_read` or `i2s_read` returns. -/
def Io.receive (s : Io) : Option Block → Io
  | some b => s.hands b (some .driver)
  | none => s

def memSlabFree (s : Io) (buf : Option Block) : Io :=
  match buf with
  | some b => (s.use buf).hands b none
  | none => s.use buf

def i2sWrite (s : Io) (d : Device) (buf : Option Block) (ok : Bool) : Io :=
  match buf, ok with
  | some b, true => (s.use buf).hands b (some (.device d))
  | _, _ => s.use buf

/-- After `audio_driver_send_zeros_frame`. -/
def zerosNext (more : Bool) : Pc := if more then .zerosSpkAlloc false else .loop

/-- The thread's next statement. -/
def threadStep (s : Io) (got : Option Block) (ok : Bool) : Io :=
  match s.pc with
  | .zerosSpkAlloc more =>
    if got = none then { s with pc := zerosNext more }
    else { s.receive got with spkOutBuf := got, pc := .zerosHostAlloc more }
  | .zerosHostAlloc more =>
    if got = none then { s with pc := zerosNext more }
    else { s.receive got with hostOutBuf := got, pc := .zerosSpkWrite more }
  | .zerosSpkWrite more =>
    { i2sWrite s .i2sSpkOut s.spkOutBuf ok with
      pc := if ok then .zerosHostWrite more else zerosNext more }
  | .zerosHostWrite more => { i2sWrite s .i2sHost s.hostOutBuf ok with pc := zerosNext more }
  | .loop =>
    { s with micInBuf := none, hostInBuf := none, spkOutBuf := none, hostOutBuf := none,
             pc := .dmicRead }
  -- audio_driver_process_audio_input
  | .dmicRead =>
    if got = none then { s with pc := .spkAlloc }
    else { s.receive got with micInBuf := got, pc := .i2sRead }
  | .i2sRead =>
    if got = none then { s with pc := .spkAlloc }
    else { s.receive got with hostInBuf := got, pc := .sources }
  | .sources => { (s.use s.micInBuf).use s.hostInBuf with pc := .freeMicIn }
  | .freeMicIn => { memSlabFree s s.micInBuf with pc := .freeHostIn }
  | .freeHostIn => { memSlabFree s s.hostInBuf with pc := .spkAlloc }
  -- audio_driver_process_audio_output
  | .spkAlloc => { s.receive got with spkOutBuf := got, pc := .hostAlloc }
  | .hostAlloc => { s.receive got with hostOutBuf := got, pc := .speakerSink }
  | .speakerSink => { s.use s.spkOutBuf with pc := .hostSink }
  | .hostSink => { s.use s.hostOutBuf with pc := .spkWrite }
  | .spkWrite => { i2sWrite s .i2sSpkOut s.spkOutBuf ok with pc := .hostWrite }
  | .hostWrite => { i2sWrite s .i2sHost s.hostOutBuf ok with pc := .loop }

def step (s : Io) : Event → Io
  | .thread got ok => threadStep s got ok
  | .takes d b => s.hands b (some (.device d))
  | .releases _ b => s.hands b none

/-- An allocation gives a free block of its slab, a read one that the device has. -/
def Gives (s : Io) (b : Block) : Prop :=
  match s.pc with
  | .zerosSpkAlloc _ => b.1 = .spkOut ∧ s.owner b = none
  | .zerosHostAlloc _ => b.1 = .hostInout ∧ s.owner b = none
  | .spkAlloc => b.1 = .spkOut ∧ s.owner b = none
  | .hostAlloc => b.1 = .hostInout ∧ s.owner b = none
  | .dmicRead => b.1 = .micIn ∧ s.owner b = some (.device .dmic)
  | .i2sRead => b.1 = .hostInout ∧ s.owner b = some (.device .i2sHost)
  | _ => True

instance (s : Io) (b : Block) : Decidable (Gives s b) := by
  unfold Gives
  split <;> infer_instance

/-- A device takes free blocks and gives up its own. -/
def Possible (s : Io) : Event → Prop
  | .thread got _ => ∀ b ∈ got, Gives s b
  | .takes _ b => s.owner b = none
  | .releases d b => s.owner b = some (.device d)

instance (s : Io) : ∀ e, Decidable (Possible s e)
  | .thread got _ => inferInstanceAs (Decidable (∀ b ∈ got, Gives s b))
  | .takes _ b => inferInstanceAs (Decidable (s.owner b = none))
  | .releases d b => inferInstanceAs (Decidable (s.owner b = some (.device d)))

/-- At the end of an iteration the thread has no block, and it gave away only its own. -/
structure Clean (s : Io) : Prop where
  given : s.misused = false
  loop : s.pc = .loop → ∀ b, s.owner b ≠ some .driver

/-- No call fails while the thread has a block, or needs the one asked for. -/
def Succeeds (s : Io) : Event → Prop
  | .thread got ok =>
    match s.pc with
    | .zerosHostAlloc _ => got ≠ none
    | .zerosSpkWrite _ => ok = true
    | .zerosHostWrite _ => ok = true
    | .i2sRead => got ≠ none
    | .spkAlloc => got ≠ none
    | .hostAlloc => got ≠ none
    | .spkWrite => ok = true
    | .hostWrite => ok = true
    | _ => True
  | .takes _ _ => True
  | .releases _ _ => True

/-! ## What the thread has -/

/-- The locals that hold a block of the thread at a place of its code. -/
def needs (s : Io) : List (Option Block) :=
  match s.pc with
  | .zerosSpkAlloc _ => []
  | .zerosHostAlloc _ => [s.spkOutBuf]
  | .zerosSpkWrite _ => [s.spkOutBuf, s.hostOutBuf]
  | .zerosHostWrite _ => [s.hostOutBuf]
  | .loop => []
  | .dmicRead => []
  | .i2sRead => [s.micInBuf]
  | .sources => [s.micInBuf, s.hostInBuf]
  | .freeMicIn => [s.micInBuf, s.hostInBuf]
  | .freeHostIn => [s.hostInBuf]
  | .spkAlloc => []
  | .hostAlloc => [s.spkOutBuf]
  | .speakerSink => [s.spkOutBuf, s.hostOutBuf]
  | .hostSink => [s.spkOutBuf, s.hostOutBuf]
  | .spkWrite => [s.spkOutBuf, s.hostOutBuf]
  | .hostWrite => [s.hostOutBuf]

/-- The thread has the blocks of these locals and no others. -/
structure Keeps (s : Io) : Prop where
  given : s.misused = false
  blocks : ∃ bs : List Block, needs s = bs.map some ∧ bs.Nodup ∧ Owns Party.driver s.owner bs

theorem keeps_start : Keeps start where
  given := rfl
  blocks := holds_nil.mpr fun _ h => (nomatch h)

theorem Keeps.holds {s : Io} (h : Keeps s) : Holds Party.driver s.owner (needs s) := h.blocks

theorem Keeps.clean {s : Io} (h : Keeps s) : Clean s where
  given := h.given
  loop := by
    intro hpc b hb
    have hneeds : needs s = [] := by simp only [needs, hpc]
    have hholds := h.holds
    rw [hneeds] at hholds
    exact holds_nil.mp hholds b hb

/-- A block of the driver that no local holds. -/
def Lost (s : Io) (b : Block) : Prop := s.owner b = some .driver ∧ some b ∉ needs s

/-- Something that the rest of the iteration cannot put right: a wrong buffer was given away, a
block of the driver is in none of the locals, or a local that will be given away was not set. -/
def Doomed (s : Io) : Prop :=
  s.misused = true ∨ (∃ b, Lost s b) ∨
    match s.pc with
    | .hostAlloc => none ∈ needs s
    | .speakerSink => none ∈ needs s
    | .hostSink => none ∈ needs s
    | .spkWrite => none ∈ needs s
    | .hostWrite => none ∈ needs s
    | _ => False

theorem Doomed.not_clean {s : Io} (h : Doomed s) (hpc : s.pc = .loop) : ¬ Clean s := by
  intro hclean
  rcases h with hmis | ⟨b, hb, -⟩ | hnone
  · rw [hclean.given] at hmis
    cases hmis
  · exact hclean.loop hpc b hb
  · rw [hpc] at hnone
    exact hnone

/-! ## One statement -/

variable {s s' : Io} {x y : Option Block} {b c : Block}

/-- The statements that can give the thread a block. -/
def Pc.gets : Pc → Bool
  | .zerosSpkAlloc _ => true
  | .zerosHostAlloc _ => true
  | .dmicRead => true
  | .i2sRead => true
  | .spkAlloc => true
  | .hostAlloc => true
  | _ => false

/-! The locals change where the code assigns them, and nowhere else. -/

@[simp] theorem use_micInBuf (s : Io) (buf : Option Block) : (s.use buf).micInBuf = s.micInBuf := by
  cases buf <;> rfl

@[simp] theorem use_hostInBuf (s : Io) (buf : Option Block) :
    (s.use buf).hostInBuf = s.hostInBuf := by
  cases buf <;> rfl

@[simp] theorem use_spkOutBuf (s : Io) (buf : Option Block) :
    (s.use buf).spkOutBuf = s.spkOutBuf := by
  cases buf <;> rfl

@[simp] theorem use_hostOutBuf (s : Io) (buf : Option Block) :
    (s.use buf).hostOutBuf = s.hostOutBuf := by
  cases buf <;> rfl

@[simp] theorem receive_micInBuf (s : Io) (got : Option Block) :
    (s.receive got).micInBuf = s.micInBuf := by
  cases got <;> rfl

@[simp] theorem receive_spkOutBuf (s : Io) (got : Option Block) :
    (s.receive got).spkOutBuf = s.spkOutBuf := by
  cases got <;> rfl

@[simp] theorem memSlabFree_hostInBuf (s : Io) (buf : Option Block) :
    (memSlabFree s buf).hostInBuf = s.hostInBuf := by
  cases buf <;> rfl

@[simp] theorem i2sWrite_hostOutBuf (s : Io) (d : Device) (buf : Option Block) (ok : Bool) :
    (i2sWrite s d buf ok).hostOutBuf = s.hostOutBuf := by
  cases buf <;> cases ok <;> rfl

@[simp] theorem use_owner (s : Io) (buf : Option Block) : (s.use buf).owner = s.owner := by
  cases buf <;> rfl

theorem use_owned (h : s.owner b = some .driver) : s.use (some b) = s := by
  simp only [Io.use, h, decide_true, Bool.not_true, Bool.or_false]

theorem memSlabFree_owned (h : s.owner b = some .driver) :
    memSlabFree s (some b) = s.hands b none := by
  rw [memSlabFree, use_owned h]

theorem i2sWrite_owned (h : s.owner b = some .driver) (d : Device) :
    i2sWrite s d (some b) true = s.hands b (some (.device d)) := by
  rw [i2sWrite, use_owned h]

theorem not_driver_of_gives (h : Gives s b) (hgets : s.pc.gets = true) :
    s.owner b ≠ some .driver := by
  unfold Gives at h
  cases hpc : s.pc <;> simp only [hpc, Pc.gets, Bool.false_eq_true] at h hgets <;> simp [h.2]

theorem Keeps.some_of_mem (h : Keeps s) (hx : x ∈ needs s) :
    ∃ b, x = some b ∧ s.owner b = some .driver :=
  h.holds.some_of_mem hx

/-! A statement moves on, gets a block that it keeps in one more local, or gives the first one away.
-/

theorem Keeps.moves (h : Keeps s) (hneeds : needs s' = needs s) (howner : s'.owner = s.owner)
    (hgiven : s'.misused = s.misused) : Keeps s' where
  given := hgiven.trans h.given
  blocks := by
    rw [hneeds, howner]
    exact h.holds

theorem Keeps.gets (h : Keeps s) (hc : s.owner c ≠ some .driver)
    (hneeds : needs s' = needs s ++ [some c])
    (howner : s'.owner = Function.update s.owner c (some .driver))
    (hgiven : s'.misused = s.misused) : Keeps s' where
  given := hgiven.trans h.given
  blocks := by
    rw [hneeds, howner]
    exact h.holds.gets hc

theorem Keeps.gives {o : Option Party} (h : Keeps s) (hneeds : needs s = some b :: needs s')
    (ho : o ≠ some .driver) (howner : s'.owner = Function.update s.owner b o)
    (hgiven : s'.misused = s.misused) : Keeps s' where
  given := hgiven.trans h.given
  blocks := by
    have hholds := h.holds
    rw [hneeds] at hholds
    rw [howner]
    exact hholds.gives ho

theorem Keeps.uses (h : Keeps s) (hx : x ∈ needs s) : s.use x = s := by
  obtain ⟨b, rfl, hb⟩ := h.some_of_mem hx
  exact use_owned hb

theorem Keeps.writes {pc : Pc} {d : Device} (h : Keeps s)
    (hneeds : needs s = x :: needs { i2sWrite s d x true with pc := pc }) :
    Keeps { i2sWrite s d x true with pc := pc } := by
  obtain ⟨b, rfl, hb⟩ := h.some_of_mem (by rw [hneeds]; exact List.mem_cons_self)
  rw [i2sWrite_owned hb] at hneeds ⊢
  exact h.gives hneeds (by simp) rfl rfl

theorem Keeps.frees {pc : Pc} (h : Keeps s)
    (hneeds : needs s = x :: needs { memSlabFree s x with pc := pc }) :
    Keeps { memSlabFree s x with pc := pc } := by
  obtain ⟨b, rfl, hb⟩ := h.some_of_mem (by rw [hneeds]; exact List.mem_cons_self)
  rw [memSlabFree_owned hb] at hneeds ⊢
  exact h.gives hneeds (by simp) rfl rfl

theorem needs_zerosNext {more : Bool} (h : s.pc = zerosNext more) : needs s = [] := by
  cases more with
  | true =>
    have hpc : s.pc = .zerosSpkAlloc false := h
    simp only [needs, hpc]
  | false =>
    have hpc : s.pc = .loop := h
    simp only [needs, hpc]

theorem notMem_of_nil (h : needs s = []) : x ∉ needs s := by
  rw [h]
  exact List.not_mem_nil

theorem keeps_thread {got : Option Block} {ok : Bool} (h : Keeps s)
    (he : Possible s (.thread got ok)) (hG : Succeeds s (.thread got ok)) :
    Keeps (threadStep s got ok) := by
  have hfree : s.pc.gets = true → ∀ b, got = some b → s.owner b ≠ some .driver :=
    fun hgets b hb => not_driver_of_gives (he b hb) hgets
  unfold threadStep
  unfold Succeeds at hG
  cases hpc : s.pc <;> rw [hpc] at hfree hG
  case zerosSpkAlloc more =>
    cases got with
    | none => exact h.moves ((needs_zerosNext rfl).trans (by simp [needs, hpc])) rfl rfl
    | some b => exact h.gets (hfree rfl b rfl) (by simp [needs, hpc]) rfl rfl
  case zerosHostAlloc more =>
    obtain ⟨b, rfl⟩ := Option.ne_none_iff_exists'.mp hG
    exact h.gets (hfree rfl b rfl) (by simp [needs, hpc, Io.receive, Io.hands]) rfl rfl
  case zerosSpkWrite more =>
    subst hG
    exact h.writes (by simp [needs, hpc])
  case zerosHostWrite more =>
    have hnone := needs_zerosNext
      (s := { i2sWrite s .i2sHost s.hostOutBuf true with pc := zerosNext more }) rfl
    subst hG
    exact h.writes (by rw [hnone]; simp [needs, hpc])
  case loop => exact h.moves (by simp [needs, hpc]) rfl rfl
  case dmicRead =>
    cases got with
    | none => exact h.moves (by simp [needs, hpc]) rfl rfl
    | some b => exact h.gets (hfree rfl b rfl) (by simp [needs, hpc]) rfl rfl
  case i2sRead =>
    obtain ⟨b, rfl⟩ := Option.ne_none_iff_exists'.mp hG
    exact h.gets (hfree rfl b rfl) (by simp [needs, hpc, Io.receive, Io.hands]) rfl rfl
  case sources =>
    rw [h.uses (x := s.micInBuf) (by simp [needs, hpc]),
      h.uses (x := s.hostInBuf) (by simp [needs, hpc])]
    exact h.moves (by simp [needs, hpc]) rfl rfl
  case freeMicIn => exact h.frees (by simp [needs, hpc])
  case freeHostIn => exact h.frees (by simp [needs, hpc])
  case spkAlloc =>
    obtain ⟨b, rfl⟩ := Option.ne_none_iff_exists'.mp hG
    exact h.gets (hfree rfl b rfl) (by simp [needs, hpc]) rfl rfl
  case hostAlloc =>
    obtain ⟨b, rfl⟩ := Option.ne_none_iff_exists'.mp hG
    exact h.gets (hfree rfl b rfl) (by simp [needs, hpc, Io.receive, Io.hands]) rfl rfl
  case speakerSink =>
    rw [h.uses (x := s.spkOutBuf) (by simp [needs, hpc])]
    exact h.moves (by simp [needs, hpc]) rfl rfl
  case hostSink =>
    rw [h.uses (x := s.hostOutBuf) (by simp [needs, hpc])]
    exact h.moves (by simp [needs, hpc]) rfl rfl
  case spkWrite =>
    subst hG
    exact h.writes (by simp [needs, hpc])
  case hostWrite =>
    subst hG
    exact h.writes (by simp [needs, hpc])

theorem needs_hands (s : Io) (b : Block) (o : Option Party) : needs (s.hands b o) = needs s := rfl

theorem Keeps.elsewhere {o : Option Party} (h : Keeps s) (hb : s.owner b ≠ some .driver)
    (ho : o ≠ some .driver) : Keeps (s.hands b o) where
  given := h.given
  blocks := by
    rw [needs_hands]
    exact h.holds.elsewhere hb ho

theorem keeps_step {e : Event} (h : Keeps s) (he : Possible s e) (hG : Succeeds s e) :
    Keeps (step s e) := by
  cases e with
  | thread got ok => exact keeps_thread h he hG
  | takes d b =>
    have hb : s.owner b = none := he
    exact h.elsewhere (by simp [hb]) (by simp)
  | releases d b =>
    have hb : s.owner b = some (.device d) := he
    exact h.elsewhere (by simp [hb]) (by simp)

/-! ## After a call that fails -/

theorem use_misused (s : Io) (buf : Option Block) (h : s.misused = true) :
    (s.use buf).misused = true := by
  cases buf with
  | none => rfl
  | some b => simp [Io.use, h]

theorem i2sWrite_misused (s : Io) (d : Device) (buf : Option Block) (ok : Bool)
    (h : s.misused = true) : (i2sWrite s d buf ok).misused = true := by
  cases buf with
  | none => rfl
  | some b =>
    cases ok with
    | false => exact use_misused s (some b) h
    | true => exact use_misused s (some b) h

theorem memSlabFree_misused (s : Io) (buf : Option Block) (h : s.misused = true) :
    (memSlabFree s buf).misused = true := by
  cases buf with
  | none => rfl
  | some b => exact use_misused s (some b) h

theorem receive_misused (s : Io) (got : Option Block) : (s.receive got).misused = s.misused := by
  cases got <;> rfl

theorem misused_thread {got : Option Block} {ok : Bool} (h : s.misused = true) :
    (threadStep s got ok).misused = true := by
  unfold threadStep
  have hreceive : (s.receive got).misused = true := by rw [receive_misused, h]
  cases hpc : s.pc with
  | zerosSpkAlloc more =>
    simp only
    split
    · exact h
    · exact hreceive
  | zerosHostAlloc more =>
    simp only
    split
    · exact h
    · exact hreceive
  | zerosSpkWrite more => exact i2sWrite_misused s _ _ ok h
  | zerosHostWrite more => exact i2sWrite_misused s _ _ ok h
  | loop => exact h
  | dmicRead =>
    simp only
    split
    · exact h
    · exact hreceive
  | i2sRead =>
    simp only
    split
    · exact h
    · exact hreceive
  | sources => exact use_misused _ _ (use_misused s _ h)
  | freeMicIn => exact memSlabFree_misused s _ h
  | freeHostIn => exact memSlabFree_misused s _ h
  | spkAlloc => exact hreceive
  | hostAlloc => exact hreceive
  | speakerSink => exact use_misused s _ h
  | hostSink => exact use_misused s _ h
  | spkWrite => exact i2sWrite_misused s _ _ ok h
  | hostWrite => exact i2sWrite_misused s _ _ ok h

theorem i2sWrite_owner_of_ne {d : Device} {buf : Option Block} {ok : Bool} (h : some b ≠ buf) :
    (i2sWrite s d buf ok).owner b = s.owner b := by
  cases buf with
  | none => rfl
  | some c =>
    have hne : b ≠ c := fun hbc => h (congrArg some hbc)
    cases ok with
    | false => rfl
    | true => exact Function.update_of_ne hne _ _

theorem i2sWrite_owner_of_fails (s : Io) (d : Device) (buf : Option Block) :
    (i2sWrite s d buf false).owner = s.owner := by
  cases buf <;> rfl

theorem memSlabFree_owner_of_ne {buf : Option Block} (h : some b ≠ buf) :
    (memSlabFree s buf).owner b = s.owner b := by
  cases buf with
  | none => rfl
  | some c => exact Function.update_of_ne (fun hbc => h (congrArg some hbc)) _ _

theorem receive_owner_of_ne {got : Option Block} (h : some b ≠ got) :
    (s.receive got).owner b = s.owner b := by
  cases got with
  | none => rfl
  | some c => exact Function.update_of_ne (fun hbc => h (congrArg some hbc)) _ _

/-- The thread comes to need what it has needed, and what it is given. -/
theorem needs_thread {got : Option Block} {ok : Bool} (hx : x ∈ needs (threadStep s got ok)) :
    x ∈ needs s ∨ (s.pc.gets = true ∧ x = got) := by
  have hzeros : ∀ {more} {s' : Io}, s'.pc = zerosNext more → x ∉ needs s' :=
    fun hpc => notMem_of_nil (needs_zerosNext hpc)
  unfold threadStep at hx
  cases hpc : s.pc <;> simp only [hpc] at hx
  case zerosSpkAlloc more =>
    split at hx
    · exact absurd hx (hzeros rfl)
    · exact .inr ⟨rfl, by simpa [needs] using hx⟩
  case zerosHostAlloc more =>
    split at hx
    · exact absurd hx (hzeros rfl)
    · simpa [needs, hpc, Pc.gets] using hx
  case zerosSpkWrite more =>
    cases ok with
    | false => exact absurd hx (hzeros rfl)
    | true => exact .inl (by simp_all [needs])
  case zerosHostWrite more => exact absurd hx (hzeros rfl)
  case loop => exact absurd hx List.not_mem_nil
  case dmicRead =>
    split at hx
    · exact absurd hx List.not_mem_nil
    · exact .inr ⟨rfl, by simpa [needs] using hx⟩
  case i2sRead =>
    split at hx
    · exact absurd hx List.not_mem_nil
    · simpa [needs, hpc, Pc.gets] using hx
  case spkAlloc => exact .inr ⟨rfl, by simpa [needs] using hx⟩
  case hostAlloc => simpa [needs, hpc, Pc.gets] using hx
  -- The others give away what they have, or nothing.
  all_goals exact .inl (by simp_all [needs])

/-- A block in none of the locals, and not given to the thread, stays where it is. -/
theorem owner_thread {got : Option Block} {ok : Bool} (hb : some b ∉ needs s)
    (hgot : s.pc.gets = true → some b ≠ got) : (threadStep s got ok).owner b = s.owner b := by
  unfold threadStep
  cases hpc : s.pc <;> simp only [needs, hpc, List.mem_cons, List.not_mem_nil, or_false,
    not_or, Pc.gets, forall_const] at hb hgot
  case zerosSpkAlloc more =>
    simp only
    split
    · rfl
    · exact receive_owner_of_ne hgot
  case zerosHostAlloc more =>
    simp only
    split
    · rfl
    · exact receive_owner_of_ne hgot
  case zerosSpkWrite more => exact i2sWrite_owner_of_ne hb.1
  case zerosHostWrite more => exact i2sWrite_owner_of_ne hb
  case loop => rfl
  case dmicRead =>
    simp only
    split
    · rfl
    · exact receive_owner_of_ne hgot
  case i2sRead =>
    simp only
    split
    · rfl
    · exact receive_owner_of_ne hgot
  case sources => exact congrFun ((use_owner _ _).trans (use_owner s _)) b
  case freeMicIn => exact memSlabFree_owner_of_ne hb.1
  case freeHostIn => exact memSlabFree_owner_of_ne hb
  case spkAlloc => exact receive_owner_of_ne hgot
  case hostAlloc => exact receive_owner_of_ne hgot
  case speakerSink => exact congrFun (use_owner s _) b
  case hostSink => exact congrFun (use_owner s _) b
  case spkWrite => exact i2sWrite_owner_of_ne hb.1
  case hostWrite => exact i2sWrite_owner_of_ne hb

/-- Nothing finds a lost block again. -/
theorem lost_thread {got : Option Block} {ok : Bool} (h : Lost s b)
    (he : Possible s (.thread got ok)) : Lost (threadStep s got ok) b := by
  obtain ⟨hb, hneeds⟩ := h
  have hgot : s.pc.gets = true → some b ≠ got := by
    rintro hgets rfl
    exact not_driver_of_gives (he b rfl) hgets hb
  refine ⟨(owner_thread hneeds hgot).trans hb, fun hx => ?_⟩
  rcases needs_thread hx with hold | ⟨hgets, hnew⟩
  · exact hneeds hold
  · exact hgot hgets hnew

theorem doomed_thread {got : Option Block} {ok : Bool} (h : Doomed s)
    (he : Possible s (.thread got ok)) : Doomed (threadStep s got ok) := by
  rcases h with hmis | ⟨b, hb⟩ | hunset
  · exact .inl (misused_thread hmis)
  · exact .inr (.inl ⟨b, lost_thread hb he⟩)
  · unfold threadStep
    cases hpc : s.pc <;> simp only [hpc, needs, List.mem_cons, List.not_mem_nil, or_false] at hunset
    case hostAlloc =>
      refine .inr (.inr ?_)
      simp [needs, ← hunset]
    case speakerSink =>
      rcases hunset with hspk | hhost
      · refine .inl ?_
        simp [← hspk, Io.use]
      · refine .inr (.inr ?_)
        simp [needs, ← hhost]
    case hostSink =>
      rcases hunset with hspk | hhost
      · refine .inr (.inr ?_)
        simp [needs, ← hspk]
      · refine .inl ?_
        simp [← hhost, Io.use]
    case spkWrite =>
      rcases hunset with hspk | hhost
      · refine .inl ?_
        simp [← hspk, i2sWrite, Io.use]
      · refine .inr (.inr ?_)
        simp [needs, ← hhost]
    case hostWrite =>
      refine .inl ?_
      simp [← hunset, i2sWrite, Io.use]

theorem doomed_hands {o : Option Party} (h : Doomed s) (hb : s.owner b ≠ some .driver) :
    Doomed (s.hands b o) := by
  rcases h with hmis | ⟨c, hc⟩ | hunset
  · exact .inl hmis
  · refine .inr (.inl ⟨c, ?_, hc.2⟩)
    exact keeps_of_ne hc.1 fun hcb => hb (hcb ▸ hc.1)
  · exact .inr (.inr hunset)

theorem doomed_step {e : Event} (h : Doomed s) (he : Possible s e) : Doomed (step s e) := by
  cases e with
  | thread got ok => exact doomed_thread h he
  | takes d b =>
    have hb : s.owner b = none := he
    exact doomed_hands h (by simp [hb])
  | releases d b =>
    have hb : s.owner b = some (.device d) := he
    exact doomed_hands h (by simp [hb])

/-- A call that fails while the thread has a block loses it; one that gives no buffer to fill leaves
the local for it unset. -/
theorem doomed_of_fails {e : Event} (h : Keeps s) (hG : ¬ Succeeds s e) : Doomed (step s e) := by
  have hlost : ∀ {x} {s' : Io}, x ∈ needs s → s.owner = s'.owner → x ∉ needs s' → Doomed s' := by
    intro x s' hx howner hnot
    obtain ⟨b, rfl, hb⟩ := h.some_of_mem hx
    exact .inr (.inl ⟨b, howner ▸ hb, hnot⟩)
  cases e with
  | takes d b => exact absurd trivial hG
  | releases d b => exact absurd trivial hG
  | thread got ok =>
    unfold Succeeds at hG
    unfold step threadStep
    cases hpc : s.pc <;> simp only [hpc, not_true_eq_false, not_not, Bool.not_eq_true] at hG
    case zerosHostAlloc more =>
      subst hG
      exact hlost (x := s.spkOutBuf) (by simp [needs, hpc]) rfl
        (notMem_of_nil (needs_zerosNext rfl))
    case zerosSpkWrite more =>
      subst hG
      exact hlost (x := s.spkOutBuf) (by simp [needs, hpc]) (i2sWrite_owner_of_fails s _ _).symm
        (notMem_of_nil (needs_zerosNext rfl))
    case zerosHostWrite more =>
      subst hG
      exact hlost (x := s.hostOutBuf) (by simp [needs, hpc]) (i2sWrite_owner_of_fails s _ _).symm
        (notMem_of_nil (needs_zerosNext rfl))
    case i2sRead =>
      subst hG
      exact hlost (x := s.micInBuf) (by simp [needs, hpc]) rfl List.not_mem_nil
    case spkAlloc =>
      subst hG
      exact .inr (.inr (by simp [needs]))
    case hostAlloc =>
      subst hG
      exact .inr (.inr (by simp [needs]))
    case spkWrite =>
      subst hG
      have hne : s.spkOutBuf ≠ s.hostOutBuf := by simpa [needs, hpc] using h.holds.nodup
      exact hlost (x := s.spkOutBuf) (by simp [needs, hpc]) (i2sWrite_owner_of_fails s _ _).symm
        (by simpa [needs] using hne)
    case hostWrite =>
      subst hG
      exact hlost (x := s.hostOutBuf) (by simp [needs, hpc]) (i2sWrite_owner_of_fails s _ _).symm
        List.not_mem_nil

/-! ## Every run -/

theorem doomed_run {es : List Event} (h : Doomed s) (he : Along step Possible s es) :
    Doomed (run step s es) :=
  Along.invariant step (fun _ _ h he => doomed_step h he) h he

theorem along_succeeds_of_clean {es : List Event} (h : Keeps s) (he : Along step Possible s es)
    (hend : (run step s es).pc = .loop) (hclean : Clean (run step s es)) :
    Along step Succeeds s es := by
  induction es generalizing s with
  | nil => trivial
  | cons e es ih =>
    by_cases hG : Succeeds s e
    · exact ⟨hG, ih (keeps_step h he.1 hG) he.2 hend hclean⟩
    · exact absurd hclean ((doomed_run (doomed_of_fails h hG) he.2).not_clean hend)

/-- Any number of iterations, with any pattern of successes and failures: what is said of the end of
an iteration holds if no such call fails, and it holds of no run of whole iterations otherwise. -/
theorem buffers_clean_iff {es : List Event} (he : Along step Possible start es) :
    (Along step Succeeds start es → Always step Clean start es) ∧
      ((run step start es).pc = .loop → Always step Clean start es →
        Along step Succeeds start es) := by
  constructor
  · intro hG
    exact Along.always_of_invariant step (fun _ _ h he => keeps_step h he.1 he.2)
      (fun _ h => h.clean) keeps_start (he.and step hG)
  · exact fun hend h => along_succeeds_of_clean keeps_start he hend h.last

def spkBlock : Block := ⟨.spkOut, ⟨0, by decide⟩⟩

def hostBlock : Block := ⟨.hostInout, ⟨0, by decide⟩⟩

def micBlock : Block := ⟨.micIn, ⟨0, by decide⟩⟩

/-- No zeros are sent, the microphones give nothing, and an iteration plays its two buffers. -/
theorem buffers_clean_after_output :
    Along step Possible start [.thread none true, .thread none true, .thread none true,
      .thread none true, .thread (some spkBlock) true, .thread (some hostBlock) true,
      .thread none true, .thread none true, .thread none true, .thread none true] ∧
    Always step Clean start [.thread none true, .thread none true, .thread none true,
      .thread none true, .thread (some spkBlock) true, .thread (some hostBlock) true,
      .thread none true, .thread none true, .thread none true, .thread none true] :=
  ⟨by decide, (buffers_clean_iff (by decide)).1 ⟨trivial, trivial, trivial, trivial,
    Option.some_ne_none _, Option.some_ne_none _, trivial, trivial, rfl, rfl, trivial⟩⟩

/-- The host's read fails after the one of the microphones: their buffer is not freed. -/
theorem failed_host_read_loses_mic_buffer :
    Along step Possible start [.takes .dmic micBlock, .thread none true, .thread none true,
      .thread none true, .thread (some micBlock) true, .thread none true,
      .thread (some spkBlock) true, .thread (some hostBlock) true, .thread none true,
      .thread none true, .thread none true, .thread none true] ∧
    ¬ Always step Clean start [.takes .dmic micBlock, .thread none true, .thread none true,
      .thread none true, .thread (some micBlock) true, .thread none true,
      .thread (some spkBlock) true, .thread (some hostBlock) true, .thread none true,
      .thread none true, .thread none true, .thread none true] := by
  refine ⟨by decide, fun h => ?_⟩
  exact h.last.loop rfl micBlock rfl

end AudioCrb
end ZephyrSamples
