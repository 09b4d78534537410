import ZephyrSamples.SharedMem.Enigma

/-!
# The threads of `shared_mem`

`main.c`: `main` starts `enc`, `pt` and `ct` and gives the semaphore `allforone`.  The three have
the priority -1, which is cooperative: a thread runs until `k_sem_take` or `k_sleep` blocks it, and
`main` runs only when none of them is ready.  Which of the ready threads runs next, and when a sleep
ends, is open.  A token that is given goes to the thread that has waited longest.  `written` and
`read` record what `pt` stores in `BUFIN` and what `ct` copies from `BUFOUT`. -/

namespace ZephyrSamples
namespace SharedMem

inductive Thread
  | enc | pt | ct
  deriving DecidableEq

theorem Thread.forall_iff {p : Thread → Prop} : (∀ t, p t) ↔ p .enc ∧ p .pt ∧ p .ct := by
  constructor
  · intro h
    exact ⟨h .enc, h .pt, h .ct⟩
  · rintro ⟨henc, hpt, hct⟩ t
    cases t <;> assumption

instance (p : Thread → Prop) [DecidablePred p] : Decidable (∀ t, p t) :=
  decidable_of_iff _ Thread.forall_iff.symm

/-- Where a thread is in its loop, before the call or statement that is named; `pt` takes the
semaphore twice in one round. -/
inductive Pc
  | start
  | take (second : Bool)
  | test (second : Bool)
  | loop
  | store
  | give (second : Bool)
  | sleep
  deriving DecidableEq

inductive Place
  | unstarted | ready | running | waiting | asleep
  deriving DecidableEq

inductive MainPc
  | startEnc | startPt | startCt | give | done
  deriving DecidableEq

/-- `SAMP_BLOCKSIZE` bytes. -/
abbrev Buffer := List UInt8

/-- `memset` and `memcpy` of a text into a buffer. -/
def fill (text : List UInt8) : Buffer := (text ++ List.replicate 50 0).take 50

def bytes (text : String) : List UInt8 := text.toList.map fun c => UInt8.ofNat c.toNat

def ptMSG : List UInt8 := bytes "PT: message to encrypt\n"

def ptMSG2 : List UInt8 := bytes "ofttbhfspgmeqzos\n"

/-- The loop of `enc` over the characters of `enc_pt` that are left. -/
def encodeFrom (m : Enigma) : List UInt8 → List UInt8 × Enigma
  | [] => ([], m)
  | c :: cs =>
    if c = 0 then ([], m)
    else if Letter c then
      let (ct, m) := m.enigEnc c
      let (cts, m) := encodeFrom m cs
      (ct :: cts, m)
    else encodeFrom m cs

/-- `enc_ct` for `enc_pt`, with the wheels reset, and the machine after it. -/
def encode (m : Enigma) (encPt : Buffer) : Buffer × Enigma :=
  let (cts, m) := encodeFrom (m.setWheels 7 2 3) encPt
  (fill cts, m)

structure System where
  main : MainPc
  pc : Thread → Pc
  place : Thread → Place
  /-- The wait queue and the count of `allforone`. -/
  waiting : List Thread
  count : Nat
  /-- `fBUFIN` and `fBUFOUT`, true for 1. -/
  fBUFIN : Bool
  bufin : Buffer
  fBUFOUT : Bool
  bufout : Buffer
  encCt : Buffer
  machine : Enigma
  written : List Buffer
  read : List Buffer

/-- Before `main` starts the threads. -/
def System.boot (m : Enigma) : System where
  main := .startEnc
  pc := fun t => if t = .pt then .start else .take false
  place := fun _ => .unstarted
  waiting := []
  count := 0
  fBUFIN := false
  bufin := fill []
  fBUFOUT := false
  bufout := fill []
  encCt := fill []
  machine := m
  written := []
  read := []

namespace System

variable (s : System) (t : Thread)

/-! ## The semaphore and the scheduler -/

def setPc (pc : Pc) : System := { s with pc := Function.update s.pc t pc }

def setPlace (place : Place) : System := { s with place := Function.update s.place t place }

@[simp] theorem setPc_pc (pc : Pc) (u : Thread) :
    (s.setPc t pc).pc u = if u = t then pc else s.pc u := Function.update_apply ..

@[simp] theorem setPc_place (pc : Pc) : (s.setPc t pc).place = s.place := rfl

@[simp] theorem setPc_waiting (pc : Pc) : (s.setPc t pc).waiting = s.waiting := rfl

@[simp] theorem setPc_count (pc : Pc) : (s.setPc t pc).count = s.count := rfl

@[simp] theorem setPc_main (pc : Pc) : (s.setPc t pc).main = s.main := rfl

@[simp] theorem setPlace_place (place : Place) (u : Thread) :
    (s.setPlace t place).place u = if u = t then place else s.place u := Function.update_apply ..

@[simp] theorem setPlace_pc (place : Place) : (s.setPlace t place).pc = s.pc := rfl

@[simp] theorem setPlace_waiting (place : Place) : (s.setPlace t place).waiting = s.waiting := rfl

@[simp] theorem setPlace_count (place : Place) : (s.setPlace t place).count = s.count := rfl

@[simp] theorem setPlace_main (place : Place) : (s.setPlace t place).main = s.main := rfl

def took : System :=
  match s.pc t with
  | .take second => s.setPc t (.test second)
  | _ => s

/-- `k_sem_take(&allforone, K_FOREVER)`. -/
def semTake : System :=
  if 0 < s.count then { s with count := s.count - 1 }.took t
  else { s with waiting := s.waiting ++ [t] }.setPlace t .waiting

/-- `k_sem_give(&allforone)`. -/
def semGive : System :=
  match s.waiting with
  | [] => { s with count := min (s.count + 1) 3 }
  | first :: rest => ({ s with waiting := rest }.took first).setPlace first .ready

/-- `k_sleep`, after which the thread goes on at `pc`. -/
def sleep (pc : Pc) : System := (s.setPc t pc).setPlace t .asleep

/-! ## The threads -/

def enc : System :=
  match s.pc .enc with
  | .take _ => s.semTake .enc
  | .test _ =>
    if s.fBUFIN then
      let (encCt, machine) := encode s.machine s.bufin
      { s with fBUFIN := false, encCt := encCt, machine := machine }.setPc .enc .loop
    else s.setPc .enc (.give false)
  | .loop => if s.fBUFOUT then s.sleep .enc .loop else s.setPc .enc .store
  | .store => { s with bufout := s.encCt, fBUFOUT := true }.setPc .enc (.give false)
  | .give _ => s.semGive.setPc .enc (.take false)
  | _ => s

/-- A message of `pt`, if the last one was taken. -/
def send (text : List UInt8) : System :=
  if s.fBUFIN then s
  else { s with fBUFIN := true, bufin := fill text, written := s.written ++ [fill text] }

def pt : System :=
  match s.pc .pt with
  | .start => s.sleep .pt (.take false)
  | .take _ => s.semTake .pt
  | .test false => (s.send ptMSG).setPc .pt (.give false)
  | .give false => s.semGive.setPc .pt (.take true)
  | .test true => (s.send ptMSG2).setPc .pt (.give true)
  | .give true => s.semGive.setPc .pt .sleep
  | .sleep => s.sleep .pt (.take false)
  | _ => s

def ct : System :=
  match s.pc .ct with
  | .take _ => s.semTake .ct
  | .test _ =>
    if s.fBUFOUT then
      { s with fBUFOUT := false, read := s.read ++ [s.bufout] }.setPc .ct (.give false)
    else s.setPc .ct (.give false)
  | .give _ => s.semGive.setPc .ct (.take false)
  | _ => s

def mainStep : System :=
  match s.main with
  | .startEnc => { s with main := .startPt }.setPlace .enc .ready
  | .startPt => { s with main := .startCt }.setPlace .pt .ready
  | .startCt => { s with main := .give }.setPlace .ct .ready
  | .give => { s with main := .done }.semGive
  | .done => s

/-- What happens next: the running thread or `main` goes on, a ready thread is scheduled, or a sleep
ends. -/
inductive Event
  | run (t : Thread)
  | schedule (t : Thread)
  | wake (t : Thread)
  | main

def advance : Thread → System
  | .enc => s.enc
  | .pt => s.pt
  | .ct => s.ct

/-- One event, if it can happen. -/
def step (s : System) : Event → System
  | .run t => if s.place t = .running then s.advance t else s
  | .schedule t =>
    if s.place t = .ready ∧ ∀ u, s.place u ≠ .running then s.setPlace t .running else s
  | .wake t => if s.place t = .asleep then s.setPlace t .ready else s
  | .main => if ∀ u, s.place u ≠ .running ∧ s.place u ≠ .ready then s.mainStep else s

end System

end SharedMem
end ZephyrSamples
