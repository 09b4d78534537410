import ZephyrSamples.SharedMem.Threads
import ZephyrSamples.Lib.Runs

/-!
# What the threads of `shared_mem` keep

`Sched`: one thread has the token, it can run, and `enc` and `ct` queue for the token whenever they
do not run.  `Order`: while `BUFOUT` is full, `ct` gets the token before `enc` does, so `enc` finds
it empty.  `Flow`: what `pt` wrote, encrypted, is what `ct` has read and what is
still on its way. -/

namespace ZephyrSamples
namespace SharedMem

open Runs

/-- The thread has the token. -/
def Pc.Holds : Pc → Prop
  | .test _ | .loop | .store | .give _ => True
  | .start | .take _ | .sleep => False

/-- `enc` with a message that it has not stored. -/
def Pc.BeforeStore : Pc → Prop
  | .test _ | .loop | .store => True
  | .start | .take _ | .give _ | .sleep => False

/-- `enc` with an encrypted message in `enc_ct`. -/
def Pc.carries : Pc → Bool
  | .loop | .store => true
  | _ => false

/-- The threads that `main` has yet to start. -/
def MainPc.unstarted : MainPc → List Thread
  | .startEnc => [.enc, .pt, .ct]
  | .startPt => [.pt, .ct]
  | .startCt => [.ct]
  | .give | .done => []

namespace System

/-- The encryption of a buffer. -/
def encrypt (m : Enigma) (b : Buffer) : Buffer := (encode m b).1

/-- What waits in `BUFOUT`, in `enc_ct` and in `BUFIN`, in the order in which `ct` is to read it. -/
def inFlight (m : Enigma) (s : System) : List Buffer :=
  (if s.fBUFOUT then [s.bufout] else []) ++
    ((if (s.pc .enc).carries then [s.encCt] else []) ++
      if s.fBUFIN then [encrypt m s.bufin] else [])

/-- One token, which a thread that can run has once `main` has given it. -/
structure Sched (s : System) : Prop where
  count : s.count = 0
  nodup : s.waiting.Nodup
  mem_waiting : ∀ t, t ∈ s.waiting ↔ s.place t = .waiting
  single : ∀ t u, s.place t = .running → s.place u = .running → t = u
  waiting_take : ∀ t, s.place t = .waiting → ∃ second, s.pc t = .take second
  one_holder : ∀ t u, (s.pc t).Holds → (s.pc u).Holds → t = u
  no_holder : s.main ≠ .done → ∀ t, ¬ (s.pc t).Holds
  holder : s.main = .done → ∃ t, (s.pc t).Holds
  active : ∀ t, (s.pc t).Holds → s.place t = .ready ∨ s.place t = .running
  queued : ∀ t, t ≠ .pt → s.main = .done → ¬ (s.pc t).Holds →
    s.place t = .waiting ∨ s.place t = .running
  unstarted : ∀ t, s.place t = .unstarted ↔ t ∈ s.main.unstarted
  asleep : ∀ t, s.place t = .asleep → t = .pt

/-- Those of `enc` and `ct` that wait, in the order in which they get the token. -/
def line (s : System) : List Thread := s.waiting.filter (· ≠ .pt)

/-- `enc` finds `BUFOUT` empty, and while it is full `ct` is next. -/
structure Order (s : System) : Prop where
  empty : (s.pc .enc).BeforeStore → s.fBUFOUT = false
  next : s.fBUFOUT = true → (∃ second, s.pc .ct = .test second) ∨ s.line.head? = some .ct

/-- What was written is what was read and what is in flight. -/
structure Flow (m : Enigma) (s : System) : Prop where
  machine : s.machine.setWheels 7 2 3 = m.setWheels 7 2 3
  flow : s.written.map (encrypt m) = s.read ++ s.inFlight m

variable {m : Enigma} {s s' : System} {t : Thread}

/-! ## The scheduler -/

namespace Sched

theorem congr (h : Sched s) (hmain : s'.main = s.main) (hpc : s'.pc = s.pc)
    (hplace : s'.place = s.place) (hwaiting : s'.waiting = s.waiting)
    (hcount : s'.count = s.count) :
    Sched s' := by
  obtain ⟨h1, h2, h3, h4, h5, h6, h7, h8, h9, h10, h11, h12⟩ := h
  constructor <;> simp only [hmain, hpc, hplace, hwaiting, hcount] <;> assumption

theorem setPc (h : Sched s) (hrun : s.place t = .running) {pc : Pc}
    (hpc : pc.Holds ↔ (s.pc t).Holds) : Sched (s.setPc t pc) := by
  obtain ⟨h1, h2, h3, h4, h5, h6, h7, h8, h9, h10, h11, h12⟩ := h
  constructor <;>
    simp only [setPc_pc, setPc_place, setPc_waiting, setPc_count, setPc_main] <;> grind

/-- A thread that finds no token waits for it. -/
theorem semTake_eq (h : Sched s) :
    s.semTake t = { s with waiting := s.waiting ++ [t] }.setPlace t .waiting := by
  rw [System.semTake, h.count, if_neg (Nat.lt_irrefl 0)]

theorem semTake (h : Sched s) (hrun : s.place t = .running) {second : Bool}
    (htake : s.pc t = .take second) : Sched (s.semTake t) := by
  rw [h.semTake_eq]
  have hfresh : t ∉ s.waiting := by
    rw [h.mem_waiting, hrun]
    exact Place.noConfusion
  have hnot : ¬ (s.pc t).Holds := by
    rw [htake]
    exact id
  obtain ⟨h1, h2, h3, h4, h5, h6, h7, h8, h9, h10, h11, h12⟩ := h
  constructor <;>
    simp only [setPlace_pc, setPlace_place, setPlace_waiting, setPlace_count, setPlace_main] <;>
    grind

theorem sleep (h : Sched s) (hrun : s.place .pt = .running) (hnot : ¬ (s.pc .pt).Holds) {pc : Pc}
    (hpc : ¬ pc.Holds) : Sched (s.sleep .pt pc) := by
  obtain ⟨h1, h2, h3, h4, h5, h6, h7, h8, h9, h10, h11, h12⟩ := h
  unfold System.sleep
  constructor <;>
    simp only [setPlace_pc, setPlace_place, setPlace_waiting, setPlace_count, setPlace_main,
      setPc_pc, setPc_place, setPc_waiting, setPc_count, setPc_main] <;>
    grind

/-- The token goes to the first of the threads that wait, when `enc` and `ct` wait or run and none
else has it. -/
theorem give (h : Sched s) {first : Thread} (hmain : s.main.unstarted = [])
    (hqueued : ∀ u, u ≠ .pt → s.place u = .waiting ∨ s.place u = .running)
    (hmain' : s'.main = .done) (hcount : s'.count = s.count)
    (hwaiting : s.waiting = first :: s'.waiting)
    (hplace : ∀ u, s'.place u = if u = first then .ready else s.place u)
    (hholds : ∀ u, (s'.pc u).Holds ↔ u = first)
    (hpc : ∀ u, u ≠ first → s.place u = .waiting → s'.pc u = s.pc u) : Sched s' := by
  have hunstarted : s'.main.unstarted = [] := by rw [hmain']; rfl
  have hfirst : (s'.pc first).Holds := (hholds first).mpr rfl
  obtain ⟨h1, h2, h3, h4, h5, h6, h7, h8, h9, h10, h11, h12⟩ := h
  constructor <;> grind

/-- While some thread waits, the first one in the queue is about to take the token. -/
theorem exists_first (h : Sched s) (hplace : s.place t = .waiting) :
    ∃ first rest second, s.waiting = first :: rest ∧ s.place first = .waiting ∧
      s.pc first = .take second := by
  have hmem := (h.mem_waiting t).mpr hplace
  obtain ⟨first, rest, hwaiting⟩ := List.exists_cons_of_ne_nil (List.ne_nil_of_mem hmem)
  have hfirst : s.place first = .waiting := by
    rw [← h.mem_waiting, hwaiting]
    exact List.mem_cons_self
  obtain ⟨second, htake⟩ := h.waiting_take first hfirst
  exact ⟨first, rest, second, hwaiting, hfirst, htake⟩

theorem done_of_holds (h : Sched s) (hold : (s.pc t).Holds) : s.main = .done := by
  by_contra hmain
  exact h.no_holder hmain t hold

/-- While a thread that has the token runs, `enc` and `ct` wait for it, unless they are the one. -/
theorem waiting_of_holds (h : Sched s) (hrun : s.place t = .running) (hold : (s.pc t).Holds)
    {u : Thread} (hu : u ≠ .pt) (hut : u ≠ t) : s.place u = .waiting := by
  have hnot : ¬ (s.pc u).Holds := fun hother => hut (h.one_holder u t hother hold)
  rcases h.queued u hu (h.done_of_holds hold) hnot with hwait | hrun'
  · exact hwait
  · exact absurd (h.single u t hrun' hrun) hut

theorem exists_waiting (h : Sched s) (hrun : s.place t = .running) (hold : (s.pc t).Holds) :
    ∃ u, s.place u = .waiting := by
  cases t with
  | enc => exact ⟨.ct, h.waiting_of_holds hrun hold (by decide) (by decide)⟩
  | pt => exact ⟨.ct, h.waiting_of_holds hrun hold (by decide) (by decide)⟩
  | ct => exact ⟨.enc, h.waiting_of_holds hrun hold (by decide) (by decide)⟩

end Sched

theorem semGive_eq {first : Thread} {rest : List Thread} {second : Bool}
    (hwaiting : s.waiting = first :: rest) (htake : s.pc first = .take second) :
    s.semGive = ({ s with waiting := rest }.setPc first (.test second)).setPlace first .ready := by
  simp only [semGive, hwaiting, took, htake]

/-- A thread that gives the token hands it to another one, the first in the queue. -/
theorem Sched.exists_taker (h : Sched s) (hrun : s.place t = .running) (hold : (s.pc t).Holds) :
    ∃ first rest second, first ≠ t ∧ s.waiting = first :: rest ∧ s.pc first = .take second ∧
      s.semGive =
        ({ s with waiting := rest }.setPc first (.test second)).setPlace first .ready := by
  obtain ⟨u, hu⟩ := h.exists_waiting hrun hold
  obtain ⟨first, rest, second, hwaiting, hfirst, htake⟩ := h.exists_first hu
  refine ⟨first, rest, second, ?_, hwaiting, htake, semGive_eq hwaiting htake⟩
  rintro rfl
  rw [hrun] at hfirst
  cases hfirst

theorem Sched.semGive (h : Sched s) (hrun : s.place t = .running) (hold : (s.pc t).Holds) {pc : Pc}
    (hpc : ¬ pc.Holds) : Sched (s.semGive.setPc t pc) := by
  have hdone := h.done_of_holds hold
  obtain ⟨first, rest, second, hne, hwaiting, htake, hgive⟩ := h.exists_taker hrun hold
  rw [hgive]
  refine h.give (by rw [hdone]; rfl) ?_ hdone rfl hwaiting ?_ ?_ ?_
  · intro u hu
    by_cases hut : u = t
    · exact Or.inr (hut ▸ hrun)
    · exact Or.inl (h.waiting_of_holds hrun hold hu hut)
  · intro u
    simp
  · intro u
    have hothers := h.one_holder u t
    simp only [setPc_pc, setPlace_pc]
    by_cases hut : u = t
    · rw [if_pos hut]
      exact iff_of_false hpc fun hu => hne (hu.symm.trans hut)
    · rw [if_neg hut]
      by_cases hfirst : u = first
      · rw [if_pos hfirst]
        exact iff_of_true trivial hfirst
      · rw [if_neg hfirst]
        exact iff_of_false (fun hu => hut (hothers hu hold)) hfirst
  · intro u hu hwait
    have hut : u ≠ t := by
      rintro rfl
      rw [hrun] at hwait
      cases hwait
    simp [hut, hu]

/-- When `main` gives the token, `enc` and `ct` wait for it. -/
theorem Sched.waiting_of_idle (h : Sched s) (hmain : s.main = .give)
    (hidle : ∀ u, s.place u ≠ .running ∧ s.place u ≠ .ready) {u : Thread} (hu : u ≠ .pt) :
    s.place u = .waiting := by
  obtain ⟨hrun, hready⟩ := hidle u
  cases hplace : s.place u with
  | waiting => rfl
  | running => exact absurd hplace hrun
  | ready => exact absurd hplace hready
  | asleep => exact absurd (h.asleep u hplace) hu
  | unstarted =>
    have hmem := (h.unstarted u).mp hplace
    rw [hmain] at hmem
    cases hmem

theorem Sched.mainGive (h : Sched s) (hmain : s.main = .give)
    (hidle : ∀ u, s.place u ≠ .running ∧ s.place u ≠ .ready) :
    Sched { s with main := .done }.semGive := by
  have hqueued : ∀ u, u ≠ .pt → s.place u = .waiting := fun u hu => h.waiting_of_idle hmain hidle hu
  have hnone : ∀ u, ¬ (s.pc u).Holds := h.no_holder (by rw [hmain]; exact MainPc.noConfusion)
  obtain ⟨first, rest, second, hwaiting, _, htake⟩ := h.exists_first (hqueued .enc (by decide))
  rw [@semGive_eq { s with main := .done } first rest second hwaiting htake]
  refine h.give (by rw [hmain]; rfl) (fun u hu => Or.inl (hqueued u hu)) rfl rfl hwaiting ?_ ?_ ?_
  · intro u
    simp
  · intro u
    by_cases hu : u = first
    · simp [hu, Pc.Holds]
    · simp [hu, hnone u]
  · intro u hu _
    simp [hu]

theorem Sched.setReady (h : Sched s) {pc : MainPc} (hrest : s.main.unstarted = t :: pc.unstarted)
    (hnot : t ∉ pc.unstarted) (hmain : s.main ≠ .done) (hpc : pc ≠ .done) :
    Sched ({ s with main := pc }.setPlace t .ready) := by
  have hstart : s.place t = .unstarted := by
    rw [h.unstarted, hrest]
    exact List.mem_cons_self
  obtain ⟨h1, h2, h3, h4, h5, h6, h7, h8, h9, h10, h11, h12⟩ := h
  constructor <;>
    simp only [setPlace_pc, setPlace_place, setPlace_waiting, setPlace_count, setPlace_main] <;>
    grind

theorem Sched.schedule (h : Sched s) (hready : s.place t = .ready)
    (hidle : ∀ u, s.place u ≠ .running) : Sched (s.setPlace t .running) := by
  obtain ⟨h1, h2, h3, h4, h5, h6, h7, h8, h9, h10, h11, h12⟩ := h
  constructor <;>
    simp only [setPlace_pc, setPlace_place, setPlace_waiting, setPlace_count, setPlace_main] <;>
    grind

theorem Sched.wake (h : Sched s) (hasleep : s.place t = .asleep) : Sched (s.setPlace t .ready) := by
  have hpt : t = .pt := h.asleep t hasleep
  obtain ⟨h1, h2, h3, h4, h5, h6, h7, h8, h9, h10, h11, h12⟩ := h
  constructor <;>
    simp only [setPlace_pc, setPlace_place, setPlace_waiting, setPlace_count, setPlace_main] <;>
    grind

/-! ## The order of `enc` and `ct` -/

theorem Order.congr (h : Order s) (hflag : s'.fBUFOUT = s.fBUFOUT)
    (hwaiting : s'.waiting = s.waiting)
    (henc : (s'.pc .enc).BeforeStore → (s.pc .enc).BeforeStore) (hct : s'.pc .ct = s.pc .ct) :
    Order s' where
  empty := by
    intro hstore
    rw [hflag]
    exact h.empty (henc hstore)
  next := by
    rw [hflag, line, hwaiting, hct]
    exact h.next

theorem Order.append (h : Order s) (u : Thread) (hflag : s'.fBUFOUT = s.fBUFOUT)
    (hwaiting : s'.waiting = s.waiting ++ [u]) (hpc : s'.pc = s.pc) : Order s' where
  empty := by
    rw [hflag, hpc]
    exact h.empty
  next := by
    intro hfull
    rw [hflag] at hfull
    rw [line, hwaiting, hpc, List.filter_append]
    rcases h.next hfull with htest | hhead
    · exact Or.inl htest
    · rw [List.head?_append, ← line, hhead]
      exact Or.inr rfl

/-- The first in the queue gets the token, and `ct` has not got it. -/
theorem Order.give (h : Order s) {first : Thread} (hwaiting : s.waiting = first :: s'.waiting)
    (hflag : s'.fBUFOUT = s.fBUFOUT) (hct : ∀ second, s.pc .ct ≠ .test second)
    (hfirst : ∃ second, s'.pc first = .test second)
    (henc : first ≠ .enc → ¬ (s'.pc .enc).BeforeStore) : Order s' := by
  have hhead : s.fBUFOUT = true → s.line.head? = some .ct := by
    intro hfull
    refine (h.next hfull).resolve_left ?_
    rintro ⟨second, htest⟩
    exact hct second htest
  cases first with
  | enc =>
    have hempty : s.fBUFOUT = false := by
      rw [Bool.eq_false_iff]
      intro hfull
      have hline := hhead hfull
      rw [line, hwaiting] at hline
      cases hline
    refine ⟨fun _ => hflag.trans hempty, fun hfull => ?_⟩
    rw [hflag, hempty] at hfull
    cases hfull
  | ct =>
    refine ⟨fun hstore => absurd hstore (henc (by decide)), fun _ => Or.inl hfirst⟩
  | pt =>
    refine ⟨fun hstore => absurd hstore (henc (by decide)), fun hfull => Or.inr ?_⟩
    rw [hflag] at hfull
    have hline := hhead hfull
    rw [line, hwaiting] at hline
    exact hline

/-- When `enc` runs and `ct` waits, `ct` is next. -/
theorem Sched.line_head (h : Sched s) (hrun : s.place .enc = .running)
    (hct : s.place .ct = .waiting) : s.line.head? = some .ct := by
  have hmem : Thread.ct ∈ s.line :=
    List.mem_filter.mpr ⟨(h.mem_waiting .ct).mpr hct, by decide⟩
  obtain ⟨u, rest, hline⟩ := List.exists_cons_of_ne_nil (List.ne_nil_of_mem hmem)
  have hu : u ∈ s.line := by
    rw [hline]
    exact List.mem_cons_self
  obtain ⟨hwait, hpt⟩ := List.mem_filter.mp hu
  rw [h.mem_waiting] at hwait
  rw [hline]
  cases u with
  | enc =>
    rw [hrun] at hwait
    cases hwait
  | pt => cases of_decide_eq_true hpt rfl
  | ct => rfl

/-! ## The messages -/

theorem setWheels_enigEnc (m : Enigma) (c : UInt8) (a b d : Nat) :
    (m.enigEnc c).2.setWheels a b d = m.setWheels a b d := by
  unfold Enigma.enigEnc
  simp only
  split
  · rfl
  · exact Enigma.setWheels_updateWheelIndex m a b d

theorem setWheels_encodeFrom (m : Enigma) (cs : List UInt8) (a b d : Nat) :
    (encodeFrom m cs).2.setWheels a b d = m.setWheels a b d := by
  induction cs generalizing m with
  | nil => rfl
  | cons c cs ih =>
    rw [encodeFrom]
    split
    · rfl
    · split
      · exact (ih _).trans (setWheels_enigEnc m c a b d)
      · exact ih m

theorem setWheels_encode (m : Enigma) (b : Buffer) :
    (encode m b).2.setWheels 7 2 3 = m.setWheels 7 2 3 :=
  setWheels_encodeFrom (m.setWheels 7 2 3) b 7 2 3

theorem encode_eq {m m' : Enigma} (h : m.setWheels 7 2 3 = m'.setWheels 7 2 3) (b : Buffer) :
    encode m b = encode m' b := by
  rw [encode, h]
  rfl

theorem Flow.congr (h : Flow m s) (hmachine : s'.machine = s.machine)
    (hwritten : s'.written = s.written)
    (hread : s'.read = s.read) (hin : s'.fBUFIN = s.fBUFIN) (hbufin : s'.bufin = s.bufin)
    (hout : s'.fBUFOUT = s.fBUFOUT) (hbufout : s'.bufout = s.bufout) (hct : s'.encCt = s.encCt)
    (hpc : (s'.pc .enc).carries = (s.pc .enc).carries) : Flow m s' where
  machine := by
    rw [hmachine]
    exact h.machine
  flow := by
    rw [hwritten, hread, inFlight, hin, hbufin, hout, hbufout, hct, hpc]
    exact h.flow

/-! ## Giving the token -/

theorem Pc.carries_of_not_holds {pc : Pc} (h : ¬ pc.Holds) : pc.carries = false := by
  cases pc with
  | loop => exact absurd trivial h
  | store => exact absurd trivial h
  | _ => rfl

theorem Pc.not_beforeStore_of_not_holds {pc : Pc} (h : ¬ pc.Holds) : ¬ pc.BeforeStore := by
  cases pc with
  | loop => exact absurd trivial h
  | store => exact absurd trivial h
  | test second => exact absurd trivial h
  | _ => exact id

theorem Order.semGive (h : Order s) (hs : Sched s) (hrun : s.place t = .running) {second : Bool}
    (hgive : s.pc t = .give second) {pc : Pc} (hpc : ¬ pc.Holds) :
    Order (s.semGive.setPc t pc) := by
  have hold : (s.pc t).Holds := by
    rw [hgive]
    trivial
  obtain ⟨first, rest, second', hne, hwaiting, htake, heq⟩ := hs.exists_taker hrun hold
  rw [heq]
  refine h.give hwaiting rfl ?_ ⟨second', by simp [hne]⟩ ?_
  · intro k hk
    have hct : Thread.ct = t := hs.one_holder .ct t (by rw [hk]; trivial) hold
    subst hct
    rw [hgive] at hk
    cases hk
  · intro henc hbefore
    rw [setPc_pc, setPlace_pc, setPc_pc, if_neg (Ne.symm henc)] at hbefore
    by_cases htenc : Thread.enc = t
    · rw [if_pos htenc] at hbefore
      exact Pc.not_beforeStore_of_not_holds hpc hbefore
    · rw [if_neg htenc] at hbefore
      have hwait := hs.waiting_of_holds hrun hold (by decide) htenc
      obtain ⟨k, hk⟩ := hs.waiting_take .enc hwait
      rw [hk] at hbefore
      exact hbefore

theorem Flow.semGive (h : Flow m s) (hs : Sched s) (hrun : s.place t = .running) {second : Bool}
    (hgive : s.pc t = .give second) {pc : Pc} (hpc : ¬ pc.Holds) :
    Flow m (s.semGive.setPc t pc) := by
  have hold : (s.pc t).Holds := by
    rw [hgive]
    trivial
  obtain ⟨first, rest, second', _, hwaiting, htake, heq⟩ := hs.exists_taker hrun hold
  rw [heq]
  refine h.congr rfl rfl rfl rfl rfl rfl rfl rfl ?_
  rw [setPc_pc, setPlace_pc, setPc_pc]
  by_cases htenc : Thread.enc = t
  · rw [if_pos htenc, Pc.carries_of_not_holds hpc, htenc, hgive]
    rfl
  · rw [if_neg htenc]
    by_cases hfenc : Thread.enc = first
    · rw [if_pos hfenc, hfenc, htake]
      rfl
    · rw [if_neg hfenc]

/-! ## One step -/

/-- What every step keeps. -/
structure Inv (m : Enigma) (s : System) : Prop where
  sched : Sched s
  order : Order s
  flow : Flow m s

namespace Inv

theorem semTake (h : Inv m s) (hrun : s.place t = .running) {second : Bool}
    (htake : s.pc t = .take second) : Inv m (s.semTake t) := by
  refine ⟨h.sched.semTake hrun htake, ?_, ?_⟩
  · rw [h.sched.semTake_eq]
    exact h.order.append t rfl rfl rfl
  · rw [h.sched.semTake_eq]
    exact h.flow.congr rfl rfl rfl rfl rfl rfl rfl rfl rfl

theorem sleep (h : Inv m s) (hrun : s.place .pt = .running) (hnot : ¬ (s.pc .pt).Holds) {pc : Pc}
    (hpc : ¬ pc.Holds) : Inv m (s.sleep .pt pc) :=
  ⟨h.sched.sleep hrun hnot hpc, h.order.congr rfl rfl id rfl,
    h.flow.congr rfl rfl rfl rfl rfl rfl rfl rfl rfl⟩

theorem semGive (h : Inv m s) (hrun : s.place t = .running) {second : Bool}
    (hgive : s.pc t = .give second) {pc : Pc} (hpc : ¬ pc.Holds) :
    Inv m (s.semGive.setPc t pc) := by
  have hold : (s.pc t).Holds := by
    rw [hgive]
    trivial
  exact ⟨h.sched.semGive hrun hold hpc, h.order.semGive h.sched hrun hgive hpc,
    h.flow.semGive h.sched hrun hgive hpc⟩

theorem enc (h : Inv m s) (hrun : s.place .enc = .running) : Inv m s.enc := by
  unfold System.enc
  cases hpc : s.pc .enc with
  | take second => exact h.semTake hrun hpc
  | give second => exact h.semGive hrun hpc id
  | test second =>
    have hempty : s.fBUFOUT = false := h.order.empty (by rw [hpc]; trivial)
    have hholds : (s.pc .enc).Holds := by rw [hpc]; trivial
    simp only
    split
    · next hfull =>
      have hsched := h.sched.setPc hrun (iff_of_true trivial hholds : Pc.loop.Holds ↔ _)
      have henc : encode s.machine s.bufin = encode m s.bufin := encode_eq h.flow.machine _
      refine ⟨hsched.congr rfl rfl rfl rfl rfl, ?_, ?_⟩
      · exact h.order.congr rfl rfl (fun _ => by rw [hpc]; trivial) rfl
      · constructor
        · exact (setWheels_encode s.machine s.bufin).trans h.flow.machine
        · have hbefore : s.inFlight m = [encrypt m s.bufin] := by
            simp [inFlight, hpc, hempty, hfull, Pc.carries]
          refine h.flow.flow.trans ?_
          rw [hbefore, henc]
          simp [inFlight, System.setPc, hempty, Pc.carries, encrypt]
    · next hfull =>
      refine ⟨h.sched.setPc hrun (iff_of_true trivial hholds), ?_, ?_⟩
      · exact h.order.congr rfl rfl (fun hstore => absurd hstore id) rfl
      · exact h.flow.congr rfl rfl rfl rfl rfl rfl rfl rfl (by rw [hpc]; rfl)
  | loop =>
    have hempty : s.fBUFOUT = false := h.order.empty (by rw [hpc]; trivial)
    have hholds : (s.pc .enc).Holds := by rw [hpc]; trivial
    simp only [hempty, Bool.false_eq_true, if_false]
    refine ⟨h.sched.setPc hrun (iff_of_true trivial hholds), ?_, ?_⟩
    · exact h.order.congr rfl rfl (fun _ => by rw [hpc]; trivial) rfl
    · exact h.flow.congr rfl rfl rfl rfl rfl rfl rfl rfl (by rw [hpc]; rfl)
  | store =>
    have hempty : s.fBUFOUT = false := h.order.empty (by rw [hpc]; trivial)
    have hholds : (s.pc .enc).Holds := by rw [hpc]; trivial
    have hct := h.sched.waiting_of_holds hrun hholds (by decide : Thread.ct ≠ .pt) (by decide)
    have hsched := h.sched.setPc hrun (iff_of_true trivial hholds : (Pc.give false).Holds ↔ _)
    refine ⟨hsched.congr rfl rfl rfl rfl rfl, ?_, ?_⟩
    · exact ⟨fun hstore => absurd hstore id, fun _ => Or.inr (h.sched.line_head hrun hct)⟩
    · refine ⟨h.flow.machine, h.flow.flow.trans ?_⟩
      simp [inFlight, System.setPc, hpc, hempty, Pc.carries]
      rfl
  | start => exact h
  | sleep => exact h

theorem send (h : Inv m s) (text : List UInt8) : Inv m (s.send text) := by
  unfold System.send
  split
  · exact h
  · next hempty =>
    refine ⟨h.sched.congr rfl rfl rfl rfl rfl, h.order.congr rfl rfl id rfl, h.flow.machine, ?_⟩
    rw [List.map_append, h.flow.flow]
    simp [inFlight, hempty]

theorem setPc_pt (h : Inv m s) (hrun : s.place .pt = .running) {pc : Pc}
    (hpc : pc.Holds ↔ (s.pc .pt).Holds) : Inv m (s.setPc .pt pc) :=
  ⟨h.sched.setPc hrun hpc, h.order.congr rfl rfl id rfl,
    h.flow.congr rfl rfl rfl rfl rfl rfl rfl rfl rfl⟩

theorem pt (h : Inv m s) (hrun : s.place .pt = .running) : Inv m s.pt := by
  have hsend : ∀ text, (s.send text).pc = s.pc ∧ (s.send text).place = s.place := by
    intro text
    unfold System.send
    split <;> exact ⟨rfl, rfl⟩
  unfold System.pt
  cases hpc : s.pc .pt with
  | start => exact h.sleep hrun (by rw [hpc]; exact id) id
  | sleep => exact h.sleep hrun (by rw [hpc]; exact id) id
  | take second => exact h.semTake hrun hpc
  | test second =>
    cases second with
    | false =>
      obtain ⟨hpcs, hplace⟩ := hsend ptMSG
      exact (h.send ptMSG).setPc_pt (by rw [hplace, hrun])
        (iff_of_true trivial (by rw [hpcs, hpc]; trivial))
    | true =>
      obtain ⟨hpcs, hplace⟩ := hsend ptMSG2
      exact (h.send ptMSG2).setPc_pt (by rw [hplace, hrun])
        (iff_of_true trivial (by rw [hpcs, hpc]; trivial))
  | give second =>
    cases second with
    | false => exact h.semGive hrun hpc id
    | true => exact h.semGive hrun hpc id
  | loop => exact h
  | store => exact h

theorem ct (h : Inv m s) (hrun : s.place .ct = .running) : Inv m s.ct := by
  unfold System.ct
  cases hpc : s.pc .ct with
  | take second => exact h.semTake hrun hpc
  | give second => exact h.semGive hrun hpc id
  | test second =>
    have hholds : (s.pc .ct).Holds := by rw [hpc]; trivial
    have hsched := h.sched.setPc hrun (iff_of_true trivial hholds : (Pc.give false).Holds ↔ _)
    simp only
    split
    · next hfull =>
      refine ⟨hsched.congr rfl rfl rfl rfl rfl, ⟨fun _ => rfl, fun hfalse => ?_⟩,
        h.flow.machine, ?_⟩
      · cases hfalse
      · refine h.flow.flow.trans ?_
        simp [inFlight, System.setPc, hfull]
        rfl
    · next hempty =>
      refine ⟨hsched, ⟨h.order.empty, fun hfull => absurd hfull hempty⟩, ?_⟩
      exact h.flow.congr rfl rfl rfl rfl rfl rfl rfl rfl rfl
  | start => exact h
  | sleep => exact h
  | loop => exact h
  | store => exact h

theorem setPlace (h : Inv m s) {pc : MainPc} {place : Place}
    (hsched : Sched ({ s with main := pc }.setPlace t place)) :
    Inv m ({ s with main := pc }.setPlace t place) :=
  ⟨hsched, h.order.congr rfl rfl id rfl, h.flow.congr rfl rfl rfl rfl rfl rfl rfl rfl rfl⟩

theorem mainStep (h : Inv m s) (hidle : ∀ u, s.place u ≠ .running ∧ s.place u ≠ .ready) :
    Inv m s.mainStep := by
  unfold System.mainStep
  cases hmain : s.main with
  | startEnc =>
    have hrest : s.main.unstarted = .enc :: MainPc.startPt.unstarted := by rw [hmain]; rfl
    exact h.setPlace (h.sched.setReady hrest (by decide) (by rw [hmain]; decide) (by decide))
  | startPt =>
    have hrest : s.main.unstarted = .pt :: MainPc.startCt.unstarted := by rw [hmain]; rfl
    exact h.setPlace (h.sched.setReady hrest (by decide) (by rw [hmain]; decide) (by decide))
  | startCt =>
    have hrest : s.main.unstarted = .ct :: MainPc.give.unstarted := by rw [hmain]; rfl
    exact h.setPlace (h.sched.setReady hrest (by decide) (by rw [hmain]; decide) (by decide))
  | give =>
    have hwait := h.sched.waiting_of_idle hmain hidle (by decide : Thread.enc ≠ .pt)
    have hnone : ∀ u, ¬ (s.pc u).Holds :=
      h.sched.no_holder (by rw [hmain]; exact MainPc.noConfusion)
    obtain ⟨first, rest, second, hwaiting, _, htake⟩ := h.sched.exists_first hwait
    refine ⟨h.sched.mainGive hmain hidle, ?_, ?_⟩
    · rw [@semGive_eq { s with main := .done } first rest second hwaiting htake]
      refine h.order.give hwaiting rfl ?_ ⟨second, by simp⟩ ?_
      · intro k hk
        exact hnone .ct (by rw [hk]; trivial)
      · intro henc hbefore
        obtain ⟨k, hk⟩ := h.sched.waiting_take .enc hwait
        rw [setPlace_pc, setPc_pc, if_neg (Ne.symm henc)] at hbefore
        rw [show ({ s with main := .done, waiting := rest } : System).pc .enc = .take k
          from hk] at hbefore
        exact hbefore
    · rw [@semGive_eq { s with main := .done } first rest second hwaiting htake]
      refine h.flow.congr rfl rfl rfl rfl rfl rfl rfl rfl ?_
      rw [setPlace_pc, setPc_pc]
      by_cases hfenc : Thread.enc = first
      · rw [if_pos hfenc, hfenc, htake]
        rfl
      · rw [if_neg hfenc]
  | done => exact h

theorem step (h : Inv m s) (e : Event) : Inv m (System.step s e) := by
  cases e with
  | run t =>
    simp only [System.step]
    split
    · next hrun =>
      cases t with
      | enc => exact h.enc hrun
      | pt => exact h.pt hrun
      | ct => exact h.ct hrun
    · exact h
  | schedule t =>
    simp only [System.step]
    split
    · next hready =>
      exact h.setPlace (h.sched.schedule hready.1 hready.2)
    · exact h
  | wake t =>
    simp only [System.step]
    split
    · next hasleep =>
      exact h.setPlace (h.sched.wake hasleep)
    · exact h
  | main =>
    simp only [System.step]
    split
    · next hidle => exact h.mainStep hidle
    · exact h

theorem boot (m : Enigma) : Inv m (System.boot m) := by
  refine ⟨?_, ⟨fun _ => rfl, fun hfull => ?_⟩, rfl, rfl⟩
  · have hnone : ∀ t, ¬ ((System.boot m).pc t).Holds := by
      intro t
      cases t <;> exact id
    constructor
    case no_holder => exact fun _ => hnone
    case active => exact fun t ht => absurd ht (hnone t)
    case unstarted =>
      intro t
      cases t <;> simp [System.boot, MainPc.unstarted]
    case one_holder => exact fun t u ht _ => absurd ht (hnone t)
    all_goals simp [System.boot]
  · cases hfull

theorem run (m : Enigma) (es : List Event) : Inv m (Runs.run System.step (System.boot m) es) :=
  run_invariant System.step (fun _ e h => h.step e) (boot m) es

end Inv

/-- The thread can go on only when another one gives the token. -/
def Blocked (s : System) (t : Thread) : Prop :=
  s.place t = .waiting ∨ (t = .enc ∧ s.pc .enc = .loop ∧ s.fBUFOUT = true)

/-- When `main` has given the token not all threads are blocked. -/
theorem Inv.not_blocked (h : Inv m s) (hdone : s.main = .done) : ¬ ∀ t, Blocked s t := by
  intro hall
  obtain ⟨t, hold⟩ := h.sched.holder hdone
  rcases hall t with hwait | ⟨rfl, hloop, hfull⟩
  · obtain ⟨second, htake⟩ := h.sched.waiting_take t hwait
    rw [htake] at hold
    exact hold
  · rw [h.order.empty (by rw [hloop]; trivial)] at hfull
    cases hfull

end System
end SharedMem
end ZephyrSamples
