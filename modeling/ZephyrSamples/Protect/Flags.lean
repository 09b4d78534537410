import Mathlib.Data.List.Range

/-!
# Reading the flags

`read_flags` of the central's `ble.c` with `read_next_flag` and `read_flag_cb`.  The cursor is a
static that is brought forward with every request, the next request is made in the callback of the
last, and the entry is looked up before the cursor is compared with the size of the table.
-/

namespace ZephyrSamples
namespace Protect

/-- `READ_TYPE_SIZE` -/
def readTypeSize : Nat := 10

/-- What becomes of a request: `bt_gatt_read` fails, or `read_flag_cb` is called once. -/
inductive Answer where
  | refused
  | error (err : UInt8)
  | noData
  | data (bytes : List UInt8)
  deriving DecidableEq

/-- The statics `flag` and `done`, whether a request is under way, and for this call of `read_flags`
the places of `flags` that were looked up and the entries that were requested. -/
structure Reader where
  flag : Nat
  done : Bool := false
  reading : Bool := false
  evaluated : List Nat := []
  requested : List Nat := []
  deriving DecidableEq

/-- `answers` says for each entry what becomes of its request. -/
def readNextFlag (answers : Nat → Answer) (s : Reader) : Reader :=
  let s := { s with evaluated := s.evaluated ++ [s.flag] }
  if s.flag < readTypeSize then
    { s with
      flag := s.flag + 1
      requested := s.requested ++ [s.flag]
      reading := decide (answers s.flag ≠ .refused) }
  else { s with flag := 0, done := true }

/-- All answers are printed only. -/
def readFlagCb (answers : Nat → Answer) (s : Reader) : Reader :=
  readNextFlag answers { s with reading := false }

/-- A bound on the number of callbacks that follow. -/
def due (s : Reader) : Nat := if s.reading then readTypeSize - s.flag + 1 else 0

theorem due_readFlagCb {answers : Nat → Answer} {s : Reader} (h : s.reading = true) :
    due (readFlagCb answers s) < due s := by
  have hdue : due s = readTypeSize - s.flag + 1 := if_pos h
  have hle (t : Reader) : due t ≤ readTypeSize - t.flag + 1 := by
    unfold due
    split
    · exact Nat.le_refl _
    · exact Nat.zero_le _
  rw [hdue]
  by_cases hflag : s.flag < readTypeSize
  · have hnext : (readFlagCb answers s).flag = s.flag + 1 := by
      simp only [readFlagCb, readNextFlag, if_pos hflag]
    have := hle (readFlagCb answers s)
    omega
  · have hidle : due (readFlagCb answers s) = 0 := by
      simp [due, readFlagCb, readNextFlag, hflag]
    omega

/-- The state now and after each callback that follows. -/
def serve (answers : Nat → Answer) (s : Reader) : List Reader :=
  if s.reading then s :: serve answers (readFlagCb answers s) else [s]
termination_by due s
decreasing_by exact due_readFlagCb (by assumption)

/-- The states of a call of `read_flags`.  It returns if `done` is set in the last of them. -/
def readFlags (answers : Nat → Answer) (flag : Nat) : List Reader :=
  serve answers (readNextFlag answers { flag := flag })

/-- Calls of `read_flags` one after the other, up to one that does not return. -/
def calls : Nat → List (Nat → Answer) → List (List Reader)
  | _, [] => []
  | flag, answers :: rest =>
    let states := readFlags answers flag
    states :: match states.getLast? with
      | some s => if s.done then calls s.flag rest else []
      | none => []

/-- What a call is to do. -/
structure Reads (states : List Reader) : Prop where
  inside : ∀ s ∈ states, ∀ i ∈ s.evaluated, i < readTypeSize
  done : ∀ s ∈ states, s.done = true ↔ s.requested = List.range readTypeSize ∧ s.reading = false
  last : ∃ s, states.getLast? = some s ∧ s.requested = List.range readTypeSize ∧ s.done = true ∧
    s.flag = 0

/-! ## A call -/

variable {answers : Nat → Answer} {k n : Nat}

/-- After the request of entry `k`. -/
def requesting (answers : Nat → Answer) (k : Nat) : Reader where
  flag := k + 1
  reading := decide (answers k ≠ .refused)
  evaluated := List.range (k + 1)
  requested := List.range (k + 1)

/-- After the callback of the last entry. -/
def finished : Reader where
  flag := 0
  done := true
  evaluated := List.range (readTypeSize + 1)
  requested := List.range readTypeSize

/-- The last state of a call, by the first of some entries whose request is refused. -/
def lastOf (answers : Nat → Answer) (entries : List Nat) : Reader :=
  match entries.find? fun i => answers i = .refused with
  | some k => requesting answers k
  | none => finished

theorem readFlags_zero : readFlags answers 0 = serve answers (requesting answers 0) := rfl

theorem readFlagCb_requesting (hk : k + 1 < readTypeSize) :
    readFlagCb answers (requesting answers k) = requesting answers (k + 1) := by
  show (if k + 1 < readTypeSize then _ else _ : Reader) = _
  rw [if_pos hk]
  simp only [requesting, List.range_succ]

theorem readFlagCb_last : readFlagCb answers (requesting answers 9) = finished := by
  rfl

theorem serve_of_refused (h : answers k = .refused) :
    serve answers (requesting answers k) = [requesting answers k] := by
  rw [serve.eq_def]
  exact if_neg (by simp [requesting, h])

theorem serve_of_answered (h : answers k ≠ .refused) :
    serve answers (requesting answers k) =
      requesting answers k :: serve answers (readFlagCb answers (requesting answers k)) := by
  rw [serve.eq_def]
  exact if_pos (decide_eq_true h)

theorem serve_finished : serve answers finished = [finished] := by
  rw [serve.eq_def]
  rfl

theorem lastOf_of_refused {entries : List Nat} (h : answers k = .refused) :
    lastOf answers (k :: entries) = requesting answers k := by
  have hfind : (k :: entries).find? (fun i => answers i = .refused) = some k :=
    List.find?_cons_of_pos (decide_eq_true h)
  rw [lastOf, hfind]

theorem lastOf_of_answered {entries : List Nat} (h : answers k ≠ .refused) :
    lastOf answers (k :: entries) = lastOf answers entries := by
  rw [lastOf, List.find?_cons_of_neg (by simpa using h)]
  rfl

/-- From the request of an entry on, the last state is that of the first refused request, or the one
after the callback of the last entry. -/
theorem getLast?_serve (hk : k + n + 1 = readTypeSize) :
    (serve answers (requesting answers k)).getLast? =
      some (lastOf answers (List.range' k (n + 1))) := by
  induction n generalizing k with
  | zero =>
    obtain rfl : k = 9 := Nat.succ.inj hk
    by_cases hrefused : answers 9 = .refused
    · rw [serve_of_refused hrefused]
      exact congrArg some (lastOf_of_refused hrefused).symm
    · have hend : lastOf answers [9] = finished := lastOf_of_answered hrefused
      rw [serve_of_answered hrefused, readFlagCb_last, serve_finished]
      exact congrArg some hend.symm
  | succ n ih =>
    rw [List.range'_succ]
    by_cases hrefused : answers k = .refused
    · rw [serve_of_refused hrefused, lastOf_of_refused hrefused]
      rfl
    · rw [serve_of_answered hrefused, lastOf_of_answered hrefused,
        readFlagCb_requesting (by omega), List.getLast?_cons, ih (by omega)]
      rfl

/-- A call from cursor 0 ends at the first refused request with the cursor behind it, or after the
callback of the last entry with one look behind the table. -/
theorem getLast?_readFlags (answers : Nat → Answer) :
    (readFlags answers 0).getLast? = some (lastOf answers (List.range readTypeSize)) := by
  rw [readFlags_zero, List.range_eq_range']
  exact getLast?_serve rfl

theorem not_reads (answers : Nat → Answer) : ¬ Reads (readFlags answers 0) := by
  intro h
  obtain ⟨s, hs, hrequested, hdone, hflag⟩ := h.last
  have hlast := getLast?_readFlags answers
  obtain rfl : s = lastOf answers (List.range readTypeSize) := Option.some.inj (hs.symm.trans hlast)
  unfold lastOf at hflag hs
  split at hflag
  · exact absurd hflag (Nat.succ_ne_zero _)
  case h_2 hfind =>
    rw [hfind] at hs
    have hplace := h.inside finished (List.mem_of_getLast? hs) readTypeSize (by decide)
    exact absurd hplace (Nat.lt_irrefl _)

/-- No call does what it is to do. -/
theorem calls_read_iff (patterns : List (Nat → Answer)) :
    (calls 0 patterns).length = patterns.length ∧ (∀ states ∈ calls 0 patterns, Reads states) ↔
      patterns = [] := by
  cases patterns with
  | nil => exact iff_of_true ⟨rfl, nofun⟩ rfl
  | cons answers patterns =>
    refine iff_of_false (fun h => ?_) (List.cons_ne_nil _ _)
    exact not_reads answers (h.2 _ List.mem_cons_self)

/-- Ten answered requests, and a first one that is refused. -/
theorem calls_wrong :
    ¬ Reads (readFlags (fun _ => .data [0]) 0) ∧
    ¬ Reads (readFlags (fun i => if i = 0 then .refused else .data [0]) 0) := by
  refine ⟨fun h => absurd h.inside (by decide +kernel), fun h => ?_⟩
  obtain ⟨s, hs, _, hdone, _⟩ := h.last
  have hlast : (readFlags (fun i => if i = 0 then .refused else .data [0]) 0).getLast? =
      some { flag := 1, evaluated := [0], requested := [0] } := by
    decide +kernel
  rw [← Option.some.inj (hlast.symm.trans hs)] at hdone
  exact Bool.noConfusion hdone

end Protect
end ZephyrSamples
