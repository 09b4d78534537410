import Mathlib.Data.Fin.VecNotation
import ZephyrSamples.Lib.Custody
import ZephyrSamples.Lib.Runs

/-!
# Four LEDs and a FIFO

The four threads that blink an LED each and the one that prints what they report.  A report is
written into a block of the heap, which goes through the FIFO to the thread that prints and frees
it.  The threads take their statements in any order. -/

namespace ZephyrSamples
namespace Threads

open Custody Runs

/-- `blink1` to `blink4` -/
abbrev BlinkId := Fin 4

/-- The argument `id` of `blink`. -/
def ledId : BlinkId → Nat := ![0, 1, 1, 1]

/-- A block that `k_malloc` returns. -/
abbrev Block := Nat

/-- `struct printk_data_t` with the thread that has filled it in; its first word is the FIFO's. -/
structure PrintkData where
  led : Nat
  cnt : BitVec 32
  source : BlinkId
  deriving DecidableEq, Repr

/-- The statement `blink` is at; `ended` is behind the return or an assertion that fails. -/
inductive BlinkPc where
  | configure
  | set
  | malloc
  | memcpy (b : Block)
  | put (b : Block)
  | sleep
  | ended
  deriving DecidableEq, Repr

/-- `cnt` is an `int`, which goes on from its largest value with its smallest one. -/
structure Blink where
  pc : BlinkPc
  cnt : BitVec 32
  deriving DecidableEq, Repr

/-- The statement `uart_out` is at. -/
inductive UartPc where
  | get
  | print (b : Block)
  | free (b : Block)
  deriving DecidableEq, Repr

/-- `used` are the blocks that are allocated, and `pins` the levels of the LEDs. -/
structure State where
  blinks : BlinkId → Blink
  uart : UartPc
  fifo : List Block
  used : Block → Bool
  mem : Block → PrintkData
  pins : BlinkId → Bool
  printed : List PrintkData

/-- The threads are started, with anything in the memory and on the pins. -/
def start (mem : Block → PrintkData) (pins : BlinkId → Bool) : State where
  blinks _ := ⟨.configure, 0⟩
  uart := .get
  fifo := []
  used _ := false
  mem := mem
  pins := pins
  printed := []

def State.goto (s : State) (t : BlinkId) (pc : BlinkPc) : State :=
  { s with blinks := Function.update s.blinks t { s.blinks t with pc := pc } }

/-- The level that `gpio_pin_set` makes of `cnt % 2`: that of any value but 0 is high. -/
def level (cnt : BitVec 32) : Bool := cnt.srem 2 != 0

/-- A statement of `blink`: `ok` is whether the pin is there and can be configured, and `got` what
`k_malloc` returns. -/
def State.blink (s : State) (t : BlinkId) (ok : Bool) (got : Option Block) : State :=
  match (s.blinks t).pc with
  | .configure => s.goto t (if ok then .set else .ended)
  | .set => { s.goto t .malloc with pins := Function.update s.pins t (level (s.blinks t).cnt) }
  | .malloc =>
    match got with
    | some b => { s.goto t (.memcpy b) with used := Function.update s.used b true }
    | none => s.goto t .ended
  | .memcpy b =>
    { s.goto t (.put b) with mem := Function.update s.mem b ⟨ledId t, (s.blinks t).cnt, t⟩ }
  | .put b => { s.goto t .sleep with fifo := s.fifo ++ [b] }
  | .sleep => { s with blinks := Function.update s.blinks t ⟨.set, (s.blinks t).cnt + 1⟩ }
  | .ended => s

/-- A statement of `uart_out`. -/
def State.uartOut (s : State) : State :=
  match s.uart with
  | .get =>
    match s.fifo with
    | [] => s
    | b :: fifo => { s with uart := .print b, fifo := fifo }
  | .print b => { s with uart := .free b, printed := s.printed ++ [s.mem b] }
  | .free b => { s with uart := .get, used := Function.update s.used b false }

inductive Event where
  | blink (t : BlinkId) (ok : Bool) (got : Option Block)
  | uartOut
  deriving DecidableEq, Repr

def step (s : State) : Event → State
  | .blink t ok got => s.blink t ok got
  | .uartOut => s.uartOut

/-- `k_malloc` returns a block that is not allocated, if it returns one. -/
def Possible (s : State) : Event → Prop
  | .blink t _ (some b) => (s.blinks t).pc = .malloc → s.used b = false
  | _ => True

instance : ∀ (s : State) (e : Event), Decidable (Possible s e)
  | s, .blink t _ (some b) =>
    inferInstanceAs (Decidable ((s.blinks t).pc = .malloc → s.used b = false))
  | _, .blink _ _ none => inferInstanceAs (Decidable True)
  | _, .uartOut => inferInstanceAs (Decidable True)

/-- Where a block can be. -/
inductive Party where
  | blink (t : BlinkId)
  | fifo
  | uart
  deriving DecidableEq, Repr

def BlinkPc.held : BlinkPc → List Block
  | .memcpy b => [b]
  | .put b => [b]
  | _ => []

def UartPc.held : UartPc → List Block
  | .get => []
  | .print b => [b]
  | .free b => [b]

def State.holds (s : State) : Party → List Block
  | .blink t => (s.blinks t).pc.held
  | .fifo => s.fifo
  | .uart => s.uart.held

/-- The block that is still to be printed. -/
def UartPc.toPrint : UartPc → List Block
  | .print b => [b]
  | _ => []

/-- The reports that were printed, and then those on their way. -/
def State.sent (s : State) : List PrintkData :=
  s.printed ++ (s.uart.toPrint ++ s.fifo).map s.mem

/-- The number of the next report that a thread puts. -/
def Blink.next (b : Blink) : BitVec 32 := if b.pc = .sleep then b.cnt + 1 else b.cnt

/-- The numbers of the first `n` reports of a thread. -/
def numbers (n : Nat) : List (BitVec 32) := (List.range n).map (BitVec.ofNat 32)

/-- A thread has set its pin for the number it has come to. -/
def BlinkPc.lit : BlinkPc → Bool
  | .malloc => true
  | .memcpy _ => true
  | .put _ => true
  | .sleep => true
  | _ => false

/-- A block that is allocated is at one place, and the others are at none. -/
def State.Owned (s : State) : Prop :=
  ∃ owner : Block → Option Party, (∀ p, Owns p owner (s.holds p)) ∧
    ∀ b, s.used b = (owner b).isSome

structure Inv (s : State) : Prop where
  owned : s.Owned
  nodup : s.fifo.Nodup
  filled : ∀ t b, (s.blinks t).pc = .put b → s.mem b = ⟨ledId t, (s.blinks t).cnt, t⟩
  lines : ∀ t, ∃ n, (s.sent.filter (·.source = t)).map PrintkData.cnt = numbers n ∧
    (s.blinks t).next = BitVec.ofNat 32 n
  led : ∀ d ∈ s.sent, d.led = ledId d.source
  pins : ∀ t, (s.blinks t).pc.lit = true → s.pins t = level (s.blinks t).cnt

theorem numbers_succ (n : Nat) : numbers (n + 1) = numbers n ++ [BitVec.ofNat 32 n] := by
  rw [numbers, List.range_succ, List.map_append]
  rfl

/-- A pin is at the last bit of the number. -/
theorem level_eq (cnt : BitVec 32) : level cnt = cnt.getLsbD 0 := by
  have hzero : cnt.srem 2 = 0 ↔ cnt.toNat % 2 = 0 := by
    rw [← BitVec.toInt_inj, BitVec.toInt_srem]
    have hint := BitVec.toInt_eq_toNat_cond cnt
    have hlt := cnt.isLt
    show cnt.toInt.tmod 2 = 0 ↔ _
    rw [← Int.dvd_iff_tmod_eq_zero]
    split at hint <;> omega
  rw [level, Bool.eq_iff_iff, bne_iff_ne, Ne, hzero, BitVec.getLsbD, Nat.testBit_zero,
    decide_eq_true_eq]
  omega

variable {s : State} {t : BlinkId} {b : Block}

theorem State.Owned.used (h : s.Owned) {p : Party} (hb : b ∈ s.holds p) : s.used b = true := by
  obtain ⟨owner, howns, hused⟩ := h
  rw [hused b, (howns p).mem hb]
  rfl

theorem State.Owned.eq (h : s.Owned) {p q : Party} (hp : b ∈ s.holds p) (hq : b ∈ s.holds q) :
    p = q := by
  obtain ⟨owner, howns, -⟩ := h
  exact Option.some.inj (((howns p).mem hp).symm.trans ((howns q).mem hq))

theorem State.Owned.congr (h : s.Owned) {s' : State} (hholds : ∀ p, s'.holds p = s.holds p)
    (hused : s'.used = s.used) : s'.Owned := by
  obtain ⟨owner, howns, hused'⟩ := h
  refine ⟨owner, fun p => ?_, fun b => ?_⟩
  · rw [hholds p]
    exact howns p
  · rw [hused]
    exact hused' b

theorem State.Owned.moved (h : s.Owned) {s' : State} {o : Option Party}
    (hmem : ∀ p, b ∈ s'.holds p ↔ o = some p)
    (hrest : ∀ p c, c ≠ b → (c ∈ s'.holds p ↔ c ∈ s.holds p)) (hused : s'.used b = o.isSome)
    (hothers : ∀ c, c ≠ b → s'.used c = s.used c) : s'.Owned := by
  obtain ⟨owner, howns, hused'⟩ := h
  refine ⟨Function.update owner b o, owns_moved howns b o hmem hrest, fun c => ?_⟩
  rcases eq_or_ne c b with rfl | hne
  · rw [Function.update_self]
    exact hused
  · rw [Function.update_of_ne hne, hothers c hne]
    exact hused' c

theorem inv_start (mem : Block → PrintkData) (pins : BlinkId → Bool) : Inv (start mem pins) where
  owned := by
    refine ⟨fun _ => none, fun p b => ?_, fun _ => rfl⟩
    have hnone : b ∉ (start mem pins).holds p := by
      cases p <;> exact List.not_mem_nil
    exact ⟨fun hb => absurd hb.symm (Option.some_ne_none p), fun hb => absurd hb hnone⟩
  nodup := List.nodup_nil
  filled t b hpc := BlinkPc.noConfusion hpc
  lines _ := ⟨0, rfl, rfl⟩
  led _ hd := absurd hd List.not_mem_nil
  pins t hlit := Bool.noConfusion hlit

theorem holds_goto (pc : BlinkPc) (p : Party) :
    (s.goto t pc).holds p = if p = .blink t then pc.held else s.holds p := by
  cases p with
  | blink x =>
    rcases eq_or_ne x t with rfl | hne
    · simp only [State.holds, State.goto, Function.update_self, if_true]
    · simp only [State.holds, State.goto, Function.update_of_ne hne, Party.blink.injEq, hne,
        if_false]
  | fifo => rfl
  | uart => rfl

/-- A thread that has no block goes on, and gets none. -/
theorem Inv.next (h : Inv s) {blink : Blink} {pins : BlinkId → Bool}
    (hheld : (s.blinks t).pc.held = []) (hheld' : blink.pc.held = [])
    (hnext : blink.next = (s.blinks t).next)
    (hpins : ∀ x, x ≠ t → pins x = s.pins x)
    (hlit : blink.pc.lit = true → pins t = level blink.cnt) :
    Inv { s with blinks := Function.update s.blinks t blink, pins := pins } where
  owned := by
    refine h.owned.congr (fun p => ?_) rfl
    cases p with
    | blink x =>
      rcases eq_or_ne x t with rfl | hne
      · simp only [State.holds, Function.update_self, hheld, hheld']
      · simp only [State.holds, Function.update_of_ne hne]
    | fifo => rfl
    | uart => rfl
  nodup := h.nodup
  filled x c hpc := by
    rcases eq_or_ne x t with rfl | hne
    · simp only [Function.update_self] at hpc
      rw [hpc] at hheld'
      exact absurd hheld' (List.cons_ne_nil c [])
    · simp only [Function.update_of_ne hne] at hpc ⊢
      exact h.filled x c hpc
  lines x := by
    rcases eq_or_ne x t with rfl | hne
    · simp only [Function.update_self, hnext]
      exact h.lines x
    · simp only [Function.update_of_ne hne]
      exact h.lines x
  led := h.led
  pins x hx := by
    rcases eq_or_ne x t with rfl | hne
    · simp only [Function.update_self] at hx ⊢
      exact hlit hx
    · simp only [Function.update_of_ne hne] at hx ⊢
      rw [hpins x hne]
      exact h.pins x hx

/-- A thread that goes on with the same number has put as many reports, and its pin is set. -/
theorem Inv.goto (h : Inv s) {pc : BlinkPc} (hheld : (s.blinks t).pc.held = [])
    (hheld' : pc.held = []) (hsleep : (s.blinks t).pc ≠ .sleep) (hsleep' : pc ≠ .sleep)
    (hlit : pc.lit = true → (s.blinks t).pc.lit = true) : Inv (s.goto t pc) := by
  refine h.next hheld hheld' ?_ (fun _ _ => rfl) fun hpc => h.pins t (hlit hpc)
  rw [Blink.next, Blink.next, if_neg hsleep, if_neg hsleep']

/-- What a step of a thread with its block leaves of the other threads and of the numbers. -/
theorem goto_others {pc : BlinkPc} {x : BlinkId} (hne : x ≠ t) :
    (s.goto t pc).blinks x = s.blinks x := by
  simp only [State.goto, Function.update_of_ne hne]

theorem goto_self (pc : BlinkPc) : (s.goto t pc).blinks t = ⟨pc, (s.blinks t).cnt⟩ := by
  simp only [State.goto, Function.update_self]

theorem next_goto (pc : BlinkPc) (hsleep : (s.blinks t).pc ≠ .sleep) (hsleep' : pc ≠ .sleep)
    (x : BlinkId) : ((s.goto t pc).blinks x).next = (s.blinks x).next := by
  rcases eq_or_ne x t with rfl | hne
  · rw [goto_self, Blink.next, Blink.next, if_neg hsleep, if_neg hsleep']
  · rw [goto_others hne]

theorem Inv.pins_goto (h : Inv s) {pc : BlinkPc} (hlit : (s.blinks t).pc.lit = true)
    (x : BlinkId) (hx : ((s.goto t pc).blinks x).pc.lit = true) :
    s.pins x = level ((s.goto t pc).blinks x).cnt := by
  rcases eq_or_ne x t with rfl | hne
  · rw [goto_self]
    exact h.pins x hlit
  · rw [goto_others hne] at hx ⊢
    exact h.pins x hx

/-- What the other threads have filled in is theirs. -/
theorem Inv.filled_goto (h : Inv s) {pc : BlinkPc} (hput : ∀ c, pc ≠ .put c) (x : BlinkId)
    (c : Block) (hx : ((s.goto t pc).blinks x).pc = .put c) :
    s.mem c = ⟨ledId x, ((s.goto t pc).blinks x).cnt, x⟩ := by
  rcases eq_or_ne x t with rfl | hne
  · rw [goto_self] at hx
    exact absurd hx (hput c)
  · rw [goto_others hne] at hx ⊢
    exact h.filled x c hx

theorem mem_holds_blink {pc : BlinkPc} (hpc : (s.blinks t).pc = pc) (hb : b ∈ pc.held) :
    b ∈ s.holds (.blink t) := by
  rw [State.holds, hpc]
  exact hb

theorem mem_holds_uart {pc : UartPc} (hpc : s.uart = pc) (hb : b ∈ pc.held) :
    b ∈ s.holds .uart := by
  rw [State.holds, hpc]
  exact hb

/-- `k_malloc` returns a block. -/
theorem Inv.malloc (h : Inv s) (hpc : (s.blinks t).pc = .malloc) (hfree : s.used b = false) :
    Inv { s.goto t (.memcpy b) with used := Function.update s.used b true } where
  owned := by
    have hnone (p : Party) : b ∉ s.holds p := by
      intro hmem
      have hused := h.owned.used hmem
      rw [hfree] at hused
      exact Bool.noConfusion hused
    have hholds (p : Party) : State.holds { s.goto t (.memcpy b) with
        used := Function.update s.used b true } p = if p = .blink t then [b] else s.holds p :=
      holds_goto (.memcpy b) p
    refine h.owned.moved (b := b) (o := some (.blink t)) (fun p => ?_) (fun p c hne => ?_)
      (Function.update_self b true s.used) fun c hne => Function.update_of_ne hne true s.used
    · rw [hholds p]
      split
      · rename_i heq
        simp [heq]
      · rename_i hother
        exact iff_of_false (hnone p) fun heq => hother (Option.some.inj heq).symm
    · rw [hholds p]
      split
      · rename_i heq
        rw [heq, State.holds, hpc]
        exact iff_of_false (fun hc => hne (List.mem_singleton.mp hc)) List.not_mem_nil
      · exact Iff.rfl
  nodup := h.nodup
  filled := h.filled_goto fun _ hput => BlinkPc.noConfusion hput
  lines x := by
    have hnext := next_goto (s := s) (t := t) (.memcpy b) (by simp [hpc]) (by simp) x
    rw [hnext]
    exact h.lines x
  led := h.led
  pins := h.pins_goto (by rw [hpc]; rfl)

/-- A thread fills in its block. -/
theorem Inv.memcpy (h : Inv s) (hpc : (s.blinks t).pc = .memcpy b) :
    Inv { s.goto t (.put b) with
      mem := Function.update s.mem b ⟨ledId t, (s.blinks t).cnt, t⟩ } := by
  have hmine : b ∈ s.holds (.blink t) := mem_holds_blink hpc (List.mem_singleton_self b)
  have hsent : (s.uart.toPrint ++ s.fifo).map
      (Function.update s.mem b ⟨ledId t, (s.blinks t).cnt, t⟩) =
        (s.uart.toPrint ++ s.fifo).map s.mem := by
    refine List.map_congr_left fun c hc => Function.update_of_ne ?_ _ _
    rintro rfl
    rcases List.mem_append.mp hc with hprint | hfifo
    · have huart : c ∈ s.holds .uart := by
        show c ∈ s.uart.held
        cases hu : s.uart with
        | get => rw [hu] at hprint; exact absurd hprint List.not_mem_nil
        | print d => rw [hu] at hprint; exact hprint
        | free d => rw [hu] at hprint; exact absurd hprint List.not_mem_nil
      exact Party.noConfusion (h.owned.eq hmine huart)
    · exact Party.noConfusion (h.owned.eq hmine (q := .fifo) hfifo)
  refine ⟨h.owned.congr (fun p => ?_) rfl, h.nodup, fun x c hx => ?_, fun x => ?_, ?_, ?_⟩
  · refine (holds_goto (.put b) p).trans ?_
    split
    · rename_i heq
      rw [heq, State.holds, hpc]
      rfl
    · rfl
  · rcases eq_or_ne x t with rfl | hne
    · simp only [goto_self] at hx ⊢
      obtain rfl := BlinkPc.put.inj hx
      exact Function.update_self _ _ _
    · simp only [goto_others hne] at hx ⊢
      have hcb : c ≠ b := by
        rintro rfl
        have hother : c ∈ s.holds (.blink x) := mem_holds_blink hx (List.mem_singleton_self c)
        exact hne (Party.blink.inj (h.owned.eq hother hmine))
      rw [Function.update_of_ne hcb]
      exact h.filled x c hx
  · have hnext := next_goto (s := s) (t := t) (.put b) (by simp [hpc]) (by simp) x
    have hlines := h.lines x
    rw [State.sent, ← hsent] at hlines
    rw [hnext]
    exact hlines
  · have hled := h.led
    rw [State.sent, ← hsent] at hled
    exact hled
  · exact h.pins_goto (by rw [hpc]; rfl)

/-- The block goes from the thread into the FIFO. -/
theorem Inv.owned_put (h : Inv s) (hpc : (s.blinks t).pc = .put b) :
    State.Owned { s.goto t .sleep with fifo := s.fifo ++ [b] } := by
  have hmine : b ∈ s.holds (.blink t) := mem_holds_blink hpc (List.mem_singleton_self b)
  refine h.owned.moved (b := b) (o := some .fifo) (fun p => ?_) (fun p c hne => ?_)
    (h.owned.used hmine) fun _ _ => rfl
  · cases p with
    | blink x =>
      refine iff_of_false (fun hmem => ?_) fun heq => Party.noConfusion (Option.some.inj heq)
      have hold : b ∈ if Party.blink x = .blink t then BlinkPc.sleep.held
          else s.holds (.blink x) := by
        rw [← holds_goto]
        exact hmem
      split at hold
      · exact List.not_mem_nil hold
      · rename_i hother
        exact hother (h.owned.eq hold hmine)
    | fifo => exact iff_of_true (List.mem_append_right _ (List.mem_singleton_self b)) rfl
    | uart =>
      refine iff_of_false (fun hmem => ?_) fun heq => Party.noConfusion (Option.some.inj heq)
      exact Party.noConfusion (h.owned.eq hmine (q := .uart) hmem)
  · cases p with
    | blink x =>
      show c ∈ (s.goto t .sleep).holds (.blink x) ↔ _
      rw [holds_goto]
      split
      · rename_i heq
        rw [heq, State.holds, hpc]
        exact iff_of_false List.not_mem_nil fun hc => hne (List.mem_singleton.mp hc)
      · exact Iff.rfl
    | fifo =>
      show c ∈ s.fifo ++ [b] ↔ c ∈ s.fifo
      rw [List.mem_append, List.mem_singleton]
      exact or_iff_left hne
    | uart => exact Iff.rfl

theorem Inv.sent_put (h : Inv s) (hpc : (s.blinks t).pc = .put b) :
    State.sent { s.goto t .sleep with fifo := s.fifo ++ [b] } =
      s.sent ++ [⟨ledId t, (s.blinks t).cnt, t⟩] := by
  rw [State.sent, State.sent, ← List.append_assoc, List.map_append, ← List.append_assoc]
  exact congrArg (fun d => _ ++ [d]) (h.filled t b hpc)

/-- A thread puts its block into the FIFO. -/
theorem Inv.put (h : Inv s) (hpc : (s.blinks t).pc = .put b) :
    Inv { s.goto t .sleep with fifo := s.fifo ++ [b] } := by
  have hsent := h.sent_put hpc
  have hcnt : (s.blinks t).next = (s.blinks t).cnt := if_neg (by simp [hpc])
  refine ⟨h.owned_put hpc, ?_, h.filled_goto fun _ hput => BlinkPc.noConfusion hput, fun x => ?_,
    fun d hd => ?_, ?_⟩
  · have hmine : b ∈ s.holds (.blink t) := mem_holds_blink hpc (List.mem_singleton_self b)
    have hnew : b ∉ s.fifo := fun hmem =>
      Party.noConfusion (h.owned.eq hmine (q := .fifo) hmem)
    exact List.nodup_append.mpr ⟨h.nodup, List.nodup_singleton b, fun c hc d hd => by
      rw [List.mem_singleton.mp hd]
      rintro rfl
      exact hnew hc⟩
  · obtain ⟨n, hlines, hnext⟩ := h.lines x
    rw [hsent, List.filter_append, List.map_append, hlines]
    rcases eq_or_ne x t with rfl | hne
    · rw [hcnt] at hnext
      refine ⟨n + 1, ?_, ?_⟩
      · rw [numbers_succ, hnext]
        simp
      · rw [goto_self, Blink.next, if_pos rfl, hnext, BitVec.ofNat_add]
        rfl
    · rw [goto_others hne]
      exact ⟨n, by simp [hne.symm], hnext⟩
  · rw [hsent] at hd
    rcases List.mem_append.mp hd with hold | hnew
    · exact h.led d hold
    · rw [List.mem_singleton.mp hnew]
  · exact h.pins_goto (by rw [hpc]; rfl)

theorem Inv.blink (h : Inv s) {ok : Bool} {got : Option Block}
    (hgot : Possible s (.blink t ok got)) : Inv (s.blink t ok got) := by
  unfold State.blink
  cases hpc : (s.blinks t).pc with
  | configure =>
    refine h.goto (by rw [hpc]; rfl) ?_ (by simp [hpc]) ?_ fun hlit => ?_
    · split <;> rfl
    · split <;> simp
    · split at hlit <;> exact Bool.noConfusion hlit
  | set =>
    refine h.next (by rw [hpc]; rfl) rfl ?_ (fun x hne => Function.update_of_ne hne _ _) fun _ =>
      Function.update_self _ _ _
    rw [Blink.next, Blink.next, hpc]
    rfl
  | malloc =>
    cases got with
    | some b => exact h.malloc hpc (hgot hpc)
    | none =>
      exact h.goto (by rw [hpc]; rfl) rfl (by simp [hpc]) (by simp) fun hlit =>
        Bool.noConfusion hlit
  | memcpy b => exact h.memcpy hpc
  | put b => exact h.put hpc
  | sleep =>
    refine h.next (by rw [hpc]; rfl) rfl ?_ (fun _ _ => rfl) fun hlit => Bool.noConfusion hlit
    rw [Blink.next, Blink.next, hpc]
    rfl
  | ended => exact h

/-- `uart_out` gets a block. -/
theorem Inv.get (h : Inv s) (hpc : s.uart = .get) {fifo : List Block} (hfifo : s.fifo = b :: fifo) :
    Inv { s with uart := .print b, fifo := fifo } := by
  have hnodup := h.nodup
  rw [hfifo, List.nodup_cons] at hnodup
  have hmine : b ∈ s.holds .fifo := by
    rw [State.holds, hfifo]
    exact List.mem_cons_self
  have hsent : State.sent { s with uart := .print b, fifo := fifo } = s.sent := by
    rw [State.sent, State.sent, hpc, hfifo]
    rfl
  refine ⟨?_, hnodup.2, h.filled, fun x => ?_, fun d hd => ?_, h.pins⟩
  · refine h.owned.moved (b := b) (o := some .uart) (fun p => ?_) (fun p c hne => ?_)
      (h.owned.used hmine) fun _ _ => rfl
    · cases p with
      | blink x =>
        refine iff_of_false (fun hmem => ?_) fun heq => Party.noConfusion (Option.some.inj heq)
        exact Party.noConfusion (h.owned.eq hmine (q := .blink x) hmem)
      | fifo =>
        exact iff_of_false hnodup.1 fun heq => Party.noConfusion (Option.some.inj heq)
      | uart => exact iff_of_true (List.mem_singleton_self b) rfl
    · cases p with
      | blink x => exact Iff.rfl
      | fifo =>
        show c ∈ fifo ↔ c ∈ s.fifo
        rw [hfifo, List.mem_cons]
        exact (or_iff_right hne).symm
      | uart =>
        show c ∈ [b] ↔ c ∈ s.uart.held
        rw [hpc]
        exact iff_of_false (fun hc => hne (List.mem_singleton.mp hc)) List.not_mem_nil
  · rw [hsent]
    exact h.lines x
  · rw [hsent] at hd
    exact h.led d hd

theorem Inv.print (h : Inv s) (hpc : s.uart = .print b) :
    Inv { s with uart := .free b, printed := s.printed ++ [s.mem b] } := by
  have hsent : State.sent { s with uart := .free b, printed := s.printed ++ [s.mem b] } =
      s.sent := by
    rw [State.sent, State.sent, hpc, List.append_assoc]
    rfl
  refine ⟨h.owned.congr (fun p => ?_) rfl, h.nodup, h.filled, fun x => ?_, fun d hd => ?_, h.pins⟩
  · cases p with
    | blink x => rfl
    | fifo => rfl
    | uart =>
      rw [State.holds, State.holds, hpc]
      rfl
  · rw [hsent]
    exact h.lines x
  · rw [hsent] at hd
    exact h.led d hd

theorem Inv.free (h : Inv s) (hpc : s.uart = .free b) :
    Inv { s with uart := .get, used := Function.update s.used b false } := by
  have hmine : b ∈ s.holds .uart := mem_holds_uart hpc (List.mem_singleton_self b)
  have hsent : State.sent { s with uart := .get, used := Function.update s.used b false } =
      s.sent := by
    rw [State.sent, State.sent, hpc]
    rfl
  refine ⟨?_, h.nodup, h.filled, fun x => ?_, fun d hd => ?_, h.pins⟩
  · refine h.owned.moved (b := b) (o := none) (fun p => ?_) (fun p c hne => ?_)
      (Function.update_self b false s.used) fun c hne => Function.update_of_ne hne false s.used
    · refine iff_of_false (fun hmem => ?_) (Option.some_ne_none p).symm
      cases p with
      | blink x => exact Party.noConfusion (h.owned.eq hmine (q := .blink x) hmem)
      | fifo => exact Party.noConfusion (h.owned.eq hmine (q := .fifo) hmem)
      | uart => exact List.not_mem_nil hmem
    · cases p with
      | blink x => exact Iff.rfl
      | fifo => exact Iff.rfl
      | uart =>
        show c ∈ [] ↔ c ∈ s.uart.held
        rw [hpc]
        exact iff_of_false List.not_mem_nil fun hc => hne (List.mem_singleton.mp hc)
  · rw [hsent]
    exact h.lines x
  · rw [hsent] at hd
    exact h.led d hd

theorem Inv.uartOut (h : Inv s) : Inv s.uartOut := by
  unfold State.uartOut
  cases hpc : s.uart with
  | get =>
    cases hfifo : s.fifo with
    | nil => exact h
    | cons b fifo => exact h.get hpc hfifo
  | print b => exact h.print hpc
  | free b => exact h.free hpc

theorem Inv.step (h : Inv s) {e : Event} (he : Possible s e) : Inv (step s e) := by
  cases e with
  | blink t ok got => exact h.blink he
  | uartOut => exact h.uartOut

/-- However the threads interleave and whatever blocks the heap gives: what each thread has put is
printed in its order, or on its way, and nothing else; every block that is allocated is at exactly
one place; and a pin that its thread has set is at the last bit of the number it has come to. -/
theorem reports_printed (mem : Block → PrintkData) (pins : BlinkId → Bool) (es : List Event)
    (h : Along step Possible (start mem pins) es) :
    let s := run step (start mem pins) es
    (∀ t, ∃ n, (s.sent.filter (·.source = t)).map PrintkData.cnt = numbers n ∧
      (s.blinks t).next = BitVec.ofNat 32 n) ∧
    (∀ d ∈ s.sent, d.led = ledId d.source) ∧
    (∀ b, s.used b = true ↔ ∃! p, b ∈ s.holds p) ∧ s.fifo.Nodup ∧
    ∀ t, (s.blinks t).pc.lit = true → s.pins t = (s.blinks t).cnt.getLsbD 0 := by
  intro s
  have hinv : Inv s := h.invariant step (fun _ _ hs he => hs.step he) (inv_start mem pins)
  refine ⟨hinv.lines, hinv.led, fun b => ⟨fun hb => ?_, fun hb => ?_⟩, hinv.nodup,
    fun t hlit => (hinv.pins t hlit).trans (level_eq _)⟩
  · obtain ⟨owner, howns, hused⟩ := hinv.owned
    rw [hused b] at hb
    obtain ⟨p, hp⟩ := Option.isSome_iff_exists.mp hb
    have hmem := (howns p b).mp hp
    exact ⟨p, hmem, fun q hq => hinv.owned.eq hq hmem⟩
  · obtain ⟨p, hmem, -⟩ := hb
    exact hinv.owned.used hmem

/-- Two threads report their first numbers, the second one in the block that the first one had. -/
def twoReports : List Event :=
  List.replicate 3 (.blink 0 true (some 7)) ++ List.replicate 2 (.blink 2 true none) ++
    List.replicate 2 (.blink 0 true none) ++ List.replicate 3 .uartOut ++
    List.replicate 3 (.blink 2 true (some 7))

theorem reports_printed_twoReports :
    (run step (start (fun _ => ⟨0, 0, 0⟩) fun _ => false) twoReports).printed = [⟨0, 0, 0⟩] ∧
      ∃! p, 7 ∈ (run step (start (fun _ => ⟨0, 0, 0⟩) fun _ => false) twoReports).holds p :=
  ⟨by decide, ((reports_printed (fun _ => ⟨0, 0, 0⟩) (fun _ => false) twoReports
    (by decide)).2.2.1 7).mp (by decide)⟩

end Threads
end ZephyrSamples
