import ZephyrSamples.SharedMem.Protocol

/-!
# What `shared_mem` prints

`pt` finds `BUFIN` empty whenever it looks, because `enc` always gets the token between two of its
turns, so its two messages go out alternately and none is left out.  `ct` reads them enciphered, and
what it reads, enciphered once more, is the letters that were written.
-/

namespace ZephyrSamples
namespace SharedMem

open Runs Rotor

/-- The letters of a text in a buffer. -/
def letters (b : Buffer) : List UInt8 := (b.takeWhile (· ≠ 0)).filter Letter

/-- What `pt` stores in its turns. -/
def turn (n : Nat) : Buffer := if n % 2 = 0 then fill ptMSG else fill ptMSG2

def turns (n : Nat) : List Buffer := (List.range n).map turn

theorem turns_succ (n : Nat) : turns (n + 1) = turns n ++ [turn n] := by
  rw [turns, List.range_succ, List.map_append]
  rfl

/-- The number of messages, modulo 2, that `pt` has had its turn for. -/
def Pc.passed : Pc → Nat
  | .give false | .take true | .test true => 1
  | _ => 0

def Pc.isTest : Pc → Bool
  | .test _ => true
  | _ => false

namespace System

variable {m : Enigma} {s s' : System} {t : Thread}

/-- `pt` runs and comes to test `fBUFIN`, which is a turn of it. -/
def tests (s : System) (e : Event) : Bool :=
  e matches .run .pt && s.place .pt = .running && (s.pc .pt).isTest

/-- The turns of `pt` in a run. -/
def turnsHad : System → List Event → Nat
  | _, [] => 0
  | s, e :: es => (s.tests e).toNat + turnsHad (s.step e) es

/-- Those of `enc` and `pt` that wait, in the order in which they get the token. -/
def senders (s : System) : List Thread := s.waiting.filter (· ≠ .ct)

/-- While `BUFIN` is full, `enc` gets the token before `pt` does, which therefore finds it empty and
has stored a message in each of its turns. -/
structure Taken (s : System) : Prop where
  empty : ∀ second, s.pc .pt = .test second → s.fBUFIN = false
  next : s.fBUFIN = true →
    (∃ second, s.pc .pt = .give second) ∨ (∃ second, s.pc .enc = .test second) ∨
      s.senders.head? = some .enc
  written : s.written = turns s.written.length
  passed : s.written.length % 2 = (s.pc .pt).passed

theorem Taken.congr (h : Taken s) (hflag : s'.fBUFIN = s.fBUFIN) (hwaiting : s'.waiting = s.waiting)
    (hwritten : s'.written = s.written) (hpt : s'.pc .pt = s.pc .pt)
    (henc : ∀ second, s.pc .enc = .test second → s'.pc .enc = .test second ∨ s.fBUFIN = false) :
    Taken s' where
  empty := by
    rw [hpt, hflag]
    exact h.empty
  next := by
    rw [hflag, senders, hwaiting, hpt]
    intro hfull
    rcases h.next hfull with hgive | ⟨second, htest⟩ | hhead
    · exact Or.inl hgive
    · rcases henc second htest with htest' | hempty
      · exact Or.inr (Or.inl ⟨second, htest'⟩)
      · exact absurd (hempty.symm.trans hfull) Bool.false_ne_true
    · exact Or.inr (Or.inr hhead)
  written := by
    rw [hwritten]
    exact h.written
  passed := by
    rw [hwritten, hpt]
    exact h.passed

theorem Taken.append (h : Taken s) (u : Thread) (hflag : s'.fBUFIN = s.fBUFIN)
    (hwaiting : s'.waiting = s.waiting ++ [u]) (hwritten : s'.written = s.written)
    (hpc : s'.pc = s.pc) : Taken s' where
  empty := by
    rw [hpc, hflag]
    exact h.empty
  next := by
    rw [hflag, senders, hwaiting, hpc, List.filter_append, List.head?_append, ← senders]
    intro hfull
    refine (h.next hfull).imp_right (Or.imp_right fun hhead => ?_)
    rw [hhead]
    rfl
  written := by
    rw [hwritten]
    exact h.written
  passed := by
    rw [hwritten, hpc]
    exact h.passed

/-- A thread gives the token, or `main` does, while `enc` is the next of the two that wait. -/
theorem Taken.give (h : Taken s) {first : Thread} (hwaiting : s.waiting = first :: s'.waiting)
    (hflag : s'.fBUFIN = s.fBUFIN) (hwritten : s'.written = s.written)
    (hhead : s.fBUFIN = true → s.senders.head? = some .enc)
    (hfirst : ∃ second, s'.pc first = .test second)
    (htest : ∀ second, s'.pc .pt = .test second → first = .pt)
    (hpassed : (s'.pc .pt).passed = (s.pc .pt).passed) : Taken s' := by
  have hpt : s.fBUFIN = true → first ≠ .pt := by
    rintro hfull rfl
    have hline := hhead hfull
    rw [senders, hwaiting] at hline
    cases hline
  constructor
  case empty =>
    intro second hpc
    rw [hflag, Bool.eq_false_iff]
    exact fun hfull => hpt hfull (htest second hpc)
  case next =>
    intro hfull
    rw [hflag] at hfull
    cases first with
    | enc => exact Or.inr (Or.inl hfirst)
    | pt => exact absurd rfl (hpt hfull)
    | ct =>
      have hline := hhead hfull
      rw [senders, hwaiting] at hline
      exact Or.inr (Or.inr hline)
  case written =>
    rw [hwritten]
    exact h.written
  case passed =>
    rw [hwritten, hpassed]
    exact h.passed

/-- When `pt` runs and `enc` waits, `enc` is next. -/
theorem Sched.senders_head (h : Sched s) (hrun : s.place .pt = .running)
    (henc : s.place .enc = .waiting) : s.senders.head? = some .enc := by
  have hmem : Thread.enc ∈ s.senders :=
    List.mem_filter.mpr ⟨(h.mem_waiting .enc).mpr henc, by decide⟩
  obtain ⟨u, rest, hsenders⟩ := List.exists_cons_of_ne_nil (List.ne_nil_of_mem hmem)
  have hu : u ∈ s.senders := by
    rw [hsenders]
    exact List.mem_cons_self
  obtain ⟨hwait, hct⟩ := List.mem_filter.mp hu
  rw [h.mem_waiting] at hwait
  rw [hsenders]
  cases u with
  | enc => rfl
  | ct => cases of_decide_eq_true hct rfl
  | pt =>
    rw [hrun] at hwait
    cases hwait

theorem passed_take (second : Bool) : (Pc.test second).passed = (Pc.take second).passed := by
  cases second with
  | false => rfl
  | true => rfl

theorem Taken.semGive (h : Taken s) (hs : Sched s) (hrun : s.place t = .running) {second : Bool}
    (hgive : s.pc t = .give second) {pc : Pc} (hpc : ¬ pc.Holds)
    (hpassed : t = .pt → pc.passed = (s.pc t).passed) : Taken (s.semGive.setPc t pc) := by
  have hold : (s.pc t).Holds := by
    rw [hgive]
    trivial
  obtain ⟨first, rest, second', hne, hwaiting, htake, heq⟩ := hs.exists_taker hrun hold
  rw [heq]
  refine h.give hwaiting rfl rfl ?_ ⟨second', by simp [hne]⟩ ?_ ?_
  · intro hfull
    rcases h.next hfull with ⟨k, hk⟩ | ⟨k, hk⟩ | hhead
    · have hpt : Thread.pt = t := hs.one_holder .pt t (by rw [hk]; trivial) hold
      subst hpt
      exact hs.senders_head hrun (hs.waiting_of_holds hrun hold (by decide) (by decide))
    · have henc : Thread.enc = t := hs.one_holder .enc t (by rw [hk]; trivial) hold
      subst henc
      rw [hgive] at hk
      cases hk
    · exact hhead
  · intro k hk
    rw [setPc_pc, setPlace_pc, setPc_pc] at hk
    by_cases hpt : Thread.pt = t
    · rw [if_pos hpt] at hk
      exact absurd (hk ▸ trivial) hpc
    · rw [if_neg hpt] at hk
      by_cases hfirst : Thread.pt = first
      · exact hfirst.symm
      · rw [if_neg hfirst] at hk
        have hk' : s.pc .pt = .test k := hk
        exact absurd (hs.one_holder .pt t (by rw [hk']; trivial) hold) hpt
  · rw [setPc_pc, setPlace_pc, setPc_pc]
    by_cases hpt : Thread.pt = t
    · rw [if_pos hpt, hpt]
      exact hpassed hpt.symm
    · rw [if_neg hpt]
      by_cases hfirst : Thread.pt = first
      · rw [if_pos hfirst, hfirst, htake]
        exact passed_take second'
      · rw [if_neg hfirst]

theorem Taken.semTake (h : Taken s) (hs : Sched s) : Taken (s.semTake t) := by
  rw [hs.semTake_eq]
  exact h.append t rfl rfl rfl rfl

/-! ## One step -/

theorem Taken.enc (h : Taken s) (hinv : Inv m s) (hrun : s.place .enc = .running) :
    Taken s.enc := by
  unfold System.enc
  cases hpc : s.pc .enc with
  | take second => exact h.semTake hinv.sched
  | give second => exact h.semGive hinv.sched hrun hpc id fun henc => Thread.noConfusion henc
  | test second =>
    simp only
    split
    · exact ⟨fun _ _ => rfl, fun hfull => absurd hfull Bool.false_ne_true, h.written, h.passed⟩
    · next hempty =>
      exact h.congr rfl rfl rfl rfl fun _ _ => Or.inr (Bool.eq_false_iff.mpr hempty)
  | loop =>
    have hempty : s.fBUFOUT = false := hinv.order.empty (by rw [hpc]; trivial)
    simp only [hempty, Bool.false_eq_true, if_false]
    exact h.congr rfl rfl rfl rfl fun _ htest => Pc.noConfusion (hpc.symm.trans htest)
  | store => exact h.congr rfl rfl rfl rfl fun _ htest => Pc.noConfusion (hpc.symm.trans htest)
  | start => exact h
  | sleep => exact h

theorem Taken.ct (h : Taken s) (hinv : Inv m s) (hrun : s.place .ct = .running) : Taken s.ct := by
  unfold System.ct
  cases hpc : s.pc .ct with
  | take second => exact h.semTake hinv.sched
  | give second => exact h.semGive hinv.sched hrun hpc id fun hct => Thread.noConfusion hct
  | test second =>
    simp only
    split
    · exact h.congr rfl rfl rfl rfl fun _ htest => Or.inl htest
    · exact h.congr rfl rfl rfl rfl fun _ htest => Or.inl htest
  | start => exact h
  | sleep => exact h
  | loop => exact h
  | store => exact h

/-- `pt` sleeps where it has no message to pass. -/
theorem Taken.sleep (h : Taken s) (hpassed : (s.pc .pt).passed = 0)
    (hgive : ∀ second, s.pc .pt ≠ .give second) : Taken (s.sleep .pt (.take false)) where
  empty second htest := by cases htest
  next hfull := by
    rcases h.next hfull with ⟨second, hpc⟩ | hrest
    · exact absurd hpc (hgive second)
    · exact Or.inr hrest
  written := h.written
  passed := h.passed.trans hpassed

/-- `pt` stores the message of its turn. -/
theorem Taken.send (h : Taken s) {second : Bool} (hpc : s.pc .pt = .test second) {text : List UInt8}
    (hturn : fill text = turn s.written.length)
    (hpassed : (s.pc .pt).passed + (Pc.give second).passed = 1) :
    Taken ((s.send text).setPc .pt (.give second)) := by
  have hempty := h.empty second hpc
  have hsend : s.send text =
      { s with fBUFIN := true, bufin := fill text, written := s.written ++ [fill text] } := by
    rw [System.send, hempty]
    rfl
  have hlen : (s.written ++ [fill text]).length = s.written.length + 1 := by
    rw [List.length_append, List.length_singleton]
  rw [hsend]
  constructor
  case empty => intro k htest; cases htest
  case next => exact fun _ => Or.inl ⟨second, rfl⟩
  case written =>
    show s.written ++ [fill text] = turns (s.written ++ [fill text]).length
    rw [hlen, turns_succ, ← h.written, hturn]
  case passed =>
    show (s.written ++ [fill text]).length % 2 = (Pc.give second).passed
    have hmod := h.passed
    rw [hlen]
    omega

theorem Taken.pt (h : Taken s) (hinv : Inv m s) (hrun : s.place .pt = .running) : Taken s.pt := by
  unfold System.pt
  have hmod := h.passed
  cases hpc : s.pc .pt with
  | start => exact h.sleep (by rw [hpc]; rfl) fun k => by rw [hpc]; exact Pc.noConfusion
  | sleep => exact h.sleep (by rw [hpc]; rfl) fun k => by rw [hpc]; exact Pc.noConfusion
  | take second => exact h.semTake hinv.sched
  | test second =>
    rw [hpc] at hmod
    cases second with
    | false => exact h.send hpc (if_pos hmod).symm (by rw [hpc]; rfl)
    | true =>
      have hodd : ¬ s.written.length % 2 = 0 := by
        rw [hmod]
        decide
      exact h.send hpc (if_neg hodd).symm (by rw [hpc]; rfl)
  | give second =>
    cases second with
    | false => exact h.semGive hinv.sched hrun hpc id fun _ => by rw [hpc]; rfl
    | true => exact h.semGive hinv.sched hrun hpc id fun _ => by rw [hpc]; rfl
  | loop => exact h
  | store => exact h

theorem Taken.setPlace (h : Taken s) (pc : MainPc) (t : Thread) (place : Place) :
    Taken ({ s with main := pc }.setPlace t place) :=
  h.congr rfl rfl rfl rfl fun _ htest => Or.inl htest

theorem Taken.mainStep (h : Taken s) (hinv : Inv m s)
    (hidle : ∀ u, s.place u ≠ .running ∧ s.place u ≠ .ready) : Taken s.mainStep := by
  unfold System.mainStep
  cases hmain : s.main with
  | startEnc => exact h.setPlace .startPt .enc .ready
  | startPt => exact h.setPlace .startCt .pt .ready
  | startCt => exact h.setPlace .give .ct .ready
  | done => exact h
  | give =>
    have hs := hinv.sched
    have hnone : ∀ u, ¬ (s.pc u).Holds := hs.no_holder (by rw [hmain]; exact MainPc.noConfusion)
    have hwait := hs.waiting_of_idle hmain hidle (by decide : Thread.enc ≠ .pt)
    obtain ⟨first, rest, second, hwaiting, _, htake⟩ := hs.exists_first hwait
    rw [@semGive_eq { s with main := .done } first rest second hwaiting htake]
    refine h.give hwaiting rfl rfl ?_ ⟨second, by simp⟩ ?_ ?_
    · intro hfull
      rcases h.next hfull with ⟨k, hk⟩ | ⟨k, hk⟩ | hhead
      · exact absurd (by rw [hk]; trivial) (hnone .pt)
      · exact absurd (by rw [hk]; trivial) (hnone .enc)
      · exact hhead
    · intro k hk
      rw [setPlace_pc, setPc_pc] at hk
      by_cases hfirst : Thread.pt = first
      · exact hfirst.symm
      · rw [if_neg hfirst] at hk
        have hk' : s.pc .pt = .test k := hk
        exact absurd (by rw [hk']; trivial) (hnone .pt)
    · rw [setPlace_pc, setPc_pc]
      by_cases hfirst : Thread.pt = first
      · rw [if_pos hfirst, hfirst, htake]
        exact passed_take second
      · rw [if_neg hfirst]

theorem Taken.step (h : Taken s) (hinv : Inv m s) (e : Event) : Taken (System.step s e) := by
  cases e with
  | run t =>
    simp only [System.step]
    split
    · next hrun =>
      cases t with
      | enc => exact h.enc hinv hrun
      | pt => exact h.pt hinv hrun
      | ct => exact h.ct hinv hrun
    · exact h
  | schedule t =>
    simp only [System.step]
    split
    · exact h.setPlace s.main t .running
    · exact h
  | wake t =>
    simp only [System.step]
    split
    · exact h.setPlace s.main t .ready
    · exact h
  | main =>
    simp only [System.step]
    split
    · next hidle => exact h.mainStep hinv hidle
    · exact h

theorem taken_boot (m : Enigma) : Taken (System.boot m) where
  empty second htest := by cases htest
  next hfull := by cases hfull
  written := rfl
  passed := rfl

theorem taken_run (m : Enigma) (es : List Event) :
    Inv m (run System.step (System.boot m) es) ∧ Taken (run System.step (System.boot m) es) :=
  run_invariant System.step (I := fun s => Inv m s ∧ Taken s)
    (fun _ e h => ⟨h.1.step e, h.2.step h.1 e⟩) ⟨Inv.boot m, taken_boot m⟩ es

/-! ## What is written -/

theorem written_took : (s.took t).written = s.written := by
  unfold took
  split <;> rfl

theorem written_semTake : (s.semTake t).written = s.written := by
  unfold System.semTake
  split
  · exact written_took
  · rfl

theorem written_semGive : s.semGive.written = s.written := by
  unfold System.semGive
  split
  · rfl
  · exact written_took

theorem written_enc : s.enc.written = s.written := by
  unfold System.enc
  split
  · exact written_semTake
  · split <;> rfl
  · split <;> rfl
  · rfl
  · exact written_semGive
  · rfl

theorem written_ct : s.ct.written = s.written := by
  unfold System.ct
  split
  · exact written_semTake
  · split <;> rfl
  · exact written_semGive
  · rfl

theorem written_mainStep : s.mainStep.written = s.written := by
  unfold System.mainStep
  split
  · rfl
  · rfl
  · rfl
  · exact written_semGive
  · rfl

theorem length_written_send (hempty : s.fBUFIN = false) (text : List UInt8) :
    (s.send text).written.length = s.written.length + 1 := by
  rw [System.send, hempty, if_neg Bool.false_ne_true, List.length_append, List.length_singleton]

/-- In a turn `pt` writes one message, and otherwise none. -/
theorem Taken.length_written_pt (h : Taken s) :
    s.pt.written.length = s.written.length + (s.pc .pt).isTest.toNat := by
  unfold System.pt
  cases hpc : s.pc .pt with
  | test second =>
    have hempty := h.empty second hpc
    cases second with
    | false => exact length_written_send hempty ptMSG
    | true => exact length_written_send hempty ptMSG2
  | take second => exact congrArg List.length written_semTake
  | give second =>
    cases second with
    | false => exact congrArg List.length written_semGive
    | true => exact congrArg List.length written_semGive
  | start => rfl
  | sleep => rfl
  | loop => rfl
  | store => rfl

theorem Taken.length_written_step (h : Taken s) (e : Event) :
    (s.step e).written.length = s.written.length + (s.tests e).toNat := by
  cases e with
  | run t =>
    simp only [System.step]
    by_cases hrun : s.place t = .running
    · rw [if_pos hrun]
      cases t with
      | enc => exact congrArg List.length written_enc
      | ct => exact congrArg List.length written_ct
      | pt =>
        have htests : s.tests (.run .pt) = (s.pc .pt).isTest := by simp [tests, hrun]
        rw [htests]
        exact h.length_written_pt
    · rw [if_neg hrun]
      cases t with
      | enc => rfl
      | ct => rfl
      | pt => simp [tests, hrun]
  | schedule t =>
    simp only [System.step]
    split <;> rfl
  | wake t =>
    simp only [System.step]
    split <;> rfl
  | main =>
    simp only [System.step]
    split
    · exact congrArg List.length written_mainStep
    · rfl

/-- There are as many messages as `pt` had turns. -/
theorem length_written_run (hinv : Inv m s) (h : Taken s) (es : List Event) :
    (run System.step s es).written.length = s.written.length + s.turnsHad es := by
  induction es generalizing s with
  | nil => rfl
  | cons e es ih =>
    rw [run_cons, ih (hinv.step e) (h.step hinv e), h.length_written_step, turnsHad, Nat.add_assoc]

end System

/-! ## What is read -/

variable {m : Enigma} {b : Buffer} {text : List UInt8}

theorem Letter.ne_zero {c : UInt8} (h : Letter c) : c ≠ 0 := by
  rintro rfl
  exact absurd h (by decide)

theorem letter_of_mem_letters {c : UInt8} (h : c ∈ letters b) : Letter c :=
  of_decide_eq_true (List.mem_filter.mp h).2

/-- The loop of `enc` enciphers the letters there are. -/
theorem encodeFrom_eq (m : Enigma) (cs : List UInt8) :
    encodeFrom m cs = encipher Enigma.enigEnc m (letters cs) := by
  induction cs generalizing m with
  | nil => rfl
  | cons c cs ih =>
    rw [encodeFrom]
    split
    case isTrue hzero =>
      subst hzero
      rfl
    case isFalse hzero =>
      have htake : (c :: cs).takeWhile (· ≠ 0) = c :: cs.takeWhile (· ≠ 0) :=
        List.takeWhile_cons_of_pos (decide_eq_true hzero)
      split
      case isTrue hletter =>
        have hcons : letters (c :: cs) = c :: letters cs := by
          rw [letters, htake]
          exact List.filter_cons_of_pos (decide_eq_true hletter)
        rw [hcons, encipher_cons, ← ih]
      case isFalse hletter =>
        have hskip : letters (c :: cs) = letters cs := by
          rw [letters, htake]
          exact List.filter_cons_of_neg (mt of_decide_eq_true hletter)
        rw [hskip, ih]

theorem encrypt_eq (m : Enigma) (b : Buffer) :
    System.encrypt m b = fill (encipher Enigma.enigEnc (m.setWheels 7 2 3) (letters b)).1 := by
  rw [← encodeFrom_eq]
  rfl

/-- A text of letters that fits into the buffer is what is in it. -/
theorem letters_fill (htext : ∀ c ∈ text, Letter c) (hlen : text.length ≤ 50) :
    letters (fill text) = text := by
  have hfill : fill text = text ++ List.replicate (50 - text.length) 0 := by
    rw [fill, List.take_append, List.take_of_length_le hlen, List.take_replicate,
      Nat.min_eq_left (Nat.sub_le 50 _)]
  have hletters : ∀ c ∈ text, decide (c ≠ 0) = true := fun c hc =>
    decide_eq_true (htext c hc).ne_zero
  have hzeros : (List.replicate (50 - text.length) (0 : UInt8)).takeWhile (· ≠ 0) = [] := by
    cases 50 - text.length with
    | zero => rfl
    | succ n => rfl
  rw [letters, hfill, List.takeWhile_append_of_pos hletters, hzeros, List.append_nil]
  exact List.filter_eq_self.mpr fun c hc => decide_eq_true (htext c hc)

theorem length_fill (text : List UInt8) : (fill text).length = 50 := by
  rw [fill, List.length_take, List.length_append, List.length_replicate]
  omega

theorem length_letters_le (b : Buffer) : (letters b).length ≤ b.length :=
  (List.length_filter_le _ _).trans (List.takeWhile_sublist _).length_le

theorem length_encipher {σ α : Type*} (enc : σ → α → α × σ) (s : σ) (as : List α) :
    (encipher enc s as).1.length = as.length := by
  induction as generalizing s with
  | nil => rfl
  | cons a as ih => rw [encipher_cons, List.length_cons, ih, List.length_cons]

/-- A buffer enciphered twice is its letters. -/
theorem encrypt_encrypt (hm : m.Ready) (hb : b.length = 50) :
    System.encrypt m (System.encrypt m b) = fill (letters b) := by
  have hready : (m.setWheels 7 2 3).Ready :=
    { hm with
      iw1 := (by decide : 7 < 26), iw2 := (by decide : 2 < 26), iw3 := (by decide : 3 < 26) }
  have hletters : ∀ c ∈ letters b, Letter c := fun _ => letter_of_mem_letters
  have hout := Enigma.reciprocal.encipher_letters hready hletters
  have hlen : (encipher Enigma.enigEnc (m.setWheels 7 2 3) (letters b)).1.length ≤ 50 := by
    rw [length_encipher, ← hb]
    exact length_letters_le b
  rw [encrypt_eq m b, encrypt_eq, letters_fill hout hlen,
    Enigma.reciprocal.encipher_encipher hready hletters]

theorem length_turn (n : Nat) : (turn n).length = 50 := by
  rw [turn]
  split
  · exact length_fill ptMSG
  · exact length_fill ptMSG2

/-- In every run `pt` finds `BUFIN` empty and writes one of its two messages in each of its turns;
`ct` reads each of them enciphered, in order, and enciphering it again gives the letters of the
message. -/
theorem messages_alternate (hm : m.Ready) (es : List System.Event) :
    let s := run System.step (System.boot m) es
    s.written = turns ((System.boot m).turnsHad es) ∧
      (∀ second, s.pc .pt = .test second → s.fBUFIN = false) ∧
      s.read.length ≤ s.written.length ∧
      ∀ i b, s.read[i]? = some b →
        b = System.encrypt m (turn i) ∧ System.encrypt m b = fill (letters (turn i)) := by
  intro s
  obtain ⟨hinv, htaken⟩ := System.taken_run m es
  have hflow := hinv.flow.flow
  have hcount : s.written.length = (System.boot m).turnsHad es := by
    have hlen := System.length_written_run (System.Inv.boot m) (System.taken_boot m) es
    exact hlen.trans (Nat.zero_add _)
  refine ⟨hcount ▸ htaken.written, htaken.empty, ?_, fun i b hb => ?_⟩
  · have hlen := congrArg List.length hflow
    rw [List.length_map, List.length_append] at hlen
    exact hlen ▸ Nat.le_add_right _ _
  · have hlt := (List.getElem?_eq_some_iff.mp hb).1
    have hget : (s.written.map (System.encrypt m))[i]? = some b := by
      rw [hflow, List.getElem?_append_left hlt]
      exact hb
    rw [htaken.written, turns, List.map_map, List.getElem?_map] at hget
    obtain ⟨j, hj, hturn⟩ := Option.map_eq_some_iff.mp hget
    obtain ⟨hrange, rfl⟩ := List.getElem?_eq_some_iff.mp hj
    rw [List.getElem_range] at hturn
    obtain rfl := hturn
    exact ⟨rfl, encrypt_encrypt hm (length_turn i)⟩

/-- The second message of `main.c` is its first one, enciphered. -/
example : System.encrypt mainEnigma (turn 1) = fill (letters (turn 0)) := by decide +kernel

/-- Everything that can happen, in turn and again and again. -/
def rounds : List System.Event :=
  (List.replicate 60 [.main, .schedule .enc, .run .enc, .wake .pt, .schedule .pt, .run .pt,
    .schedule .ct, .run .ct]).flatten

theorem messages_alternate_rounds :
    let s := run System.step (System.boot mainEnigma) rounds
    s.written = turns ((System.boot mainEnigma).turnsHad rounds) ∧
      (∀ second, s.pc .pt = .test second → s.fBUFIN = false) ∧
      s.read.length ≤ s.written.length ∧
      ∀ i b, s.read[i]? = some b →
        b = System.encrypt mainEnigma (turn i) ∧
          System.encrypt mainEnigma b = fill (letters (turn i)) :=
  messages_alternate mainEnigma_ready rounds

end SharedMem
end ZephyrSamples
