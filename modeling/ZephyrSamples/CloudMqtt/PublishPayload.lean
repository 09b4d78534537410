import Mathlib.Data.List.Chain
import Mathlib.Data.List.TakeWhile
import Mathlib.Algebra.Group.Nat.Defs
import Mathlib.Algebra.Group.Int.Defs

/-!
# The payload of a PUBLISH event

The loops of `mqtt_evt_handler` (`google_iot_mqtt`) and `mqtt_event_handler` (`mqtt_azure`) that
read a payload in pieces and print each piece as a string. -/

namespace ZephyrSamples
namespace CloudMqtt

/-- `sizeof(d)`, which is `sizeof(data)`. -/
def bufSize : Nat := 33

def EAGAIN : Nat := 11

/-- What `mqtt_read_publish_payload` has: at least one byte, or nothing and the result `-errno`,
which is 0 when the connection was closed. -/
inductive Result where
  | bytes (first : UInt8) (more : List UInt8)
  | status (errno : Nat)

/-- The bytes it writes when it is asked for so many. -/
def Result.data (asked : Nat) : Result → List UInt8
  | .bytes first more => (first :: more).take asked
  | .status _ => []

/-- `bytes_read` -/
def Result.ret (asked : Nat) : Result → Int
  | .bytes first more => ((first :: more).take asked).length
  | .status errno => -errno

/-- The variables of a loop, and what it did: the bytes it was given and those it printed, the
offset and the length of each write to the buffer, and the values of `len`.  The last two have the
newest first. -/
structure Loop where
  len : Int
  d : List UInt8
  delivered : List UInt8
  printed : List UInt8
  writes : List (Int × Nat)
  lens : List Int

/-- What `%s` prints. -/
def cString (d : List UInt8) : List UInt8 := d.takeWhile (· ≠ 0)

/-- A pass that does not leave the loop. -/
def Loop.pass (asked : Int → Nat) (s : Loop) (r : Result) : Loop :=
  let data := r.data (asked s.len)
  let bytesRead := r.ret (asked s.len)
  let d := data ++ s.d.drop data.length
  let d := if bytesRead < 0 then d else d.set bytesRead.toNat 0
  { len := s.len - bytesRead
    d := d
    delivered := s.delivered ++ data
    printed := s.printed ++ cString d
    writes := (bytesRead, 1) :: (0, data.length) :: s.writes
    lens := (s.len - bytesRead) :: s.lens }

/-- The loop, and the results that are left when it has ended. -/
def readLoop (asked : Int → Nat) : Loop → List Result → Loop × Option (List Result)
  | s, [] => (s, if s.len = 0 then some [] else none)
  | s, r :: rest =>
    if s.len = 0 then (s, some (r :: rest))
    else if r.ret (asked s.len) < 0 ∧ r.ret (asked s.len) ≠ -EAGAIN then (s, some rest)
    else readLoop asked (s.pass asked r) rest

/-- The length that the event announces, and what the buffer holds at first. -/
structure Publish where
  len : Nat
  d : List UInt8
  len_lt : len < 2 ^ 31
  d_length : d.length = bufSize

def Publish.start (e : Publish) : Loop := ⟨e.len, e.d, [], [], [], [e.len]⟩

/-- An `int` where a `size_t` is expected. -/
def toSize (len : Int) : Nat := (len % 2 ^ 32).toNat

def mqttEvtHandler (e : Publish) : List Result → Loop × Option (List Result) :=
  readLoop (fun len => if 32 ≤ len then 32 else toSize len) e.start

/-- Here the comparison is one of `size_t`. -/
def mqttEventHandler (e : Publish) : List Result → Loop × Option (List Result) :=
  readLoop (fun len => if bufSize - 1 ≤ toSize len then bufSize - 1 else toSize len) e.start

/-- How a loop is to end: with the payload, or on a result that is neither a count nor `-EAGAIN`.
The length is what has not been read. -/
def finish : Nat → List Result → Option (Nat × List Result)
  | len, [] => if len = 0 then some (0, []) else none
  | len, r :: rest =>
    if len = 0 then some (0, r :: rest)
    else match r with
      | .bytes first more => finish (len - ((first :: more).take (min 32 len)).length) rest
      | .status errno => if errno = EAGAIN then finish len rest else some (len, rest)

/-- A run of a loop is to stay inside the buffer, not to let `len` grow or become negative, to print
what it is given, and to end so. -/
structure Meets (out : Loop × Option (List Result)) (ideal : Option (Nat × List Result)) :
    Prop where
  within : ∀ w ∈ out.1.writes, 0 ≤ w.1 ∧ w.1 + w.2 ≤ bufSize
  shrinks : out.1.lens.IsChain (· ≤ ·)
  nonneg : ∀ len ∈ out.1.lens, 0 ≤ len
  prints : out.1.printed = out.1.delivered
  ends : (out.2.map fun rest => (out.1.len, rest)) = ideal.map fun p => ((p.1 : Int), p.2)

/-- While something is to be read there is no `-EAGAIN`, no 0 and no NUL. -/
def Plain : Nat → List Result → Prop
  | _, [] => True
  | len, r :: rest =>
    len = 0 ∨ match r with
      | .bytes first more =>
        0 ∉ (first :: more).take (min 32 len) ∧
          Plain (len - ((first :: more).take (min 32 len)).length) rest
      | .status errno => errno ≠ 0 ∧ errno ≠ EAGAIN

variable {asked : Int → Nat} {s : Loop}

theorem cString_append_nul {data : List UInt8} (h : 0 ∉ data) (rest : List UInt8) :
    cString (data ++ 0 :: rest) = data := by
  rw [cString, List.takeWhile_append_of_pos, List.takeWhile_cons_of_neg, List.append_nil]
  · simp
  · intro x hx
    exact decide_eq_true fun hx0 => h (hx0 ▸ hx)

theorem nul_notMem_cString (d : List UInt8) : 0 ∉ cString d := by
  intro h
  have h0 := List.mem_takeWhile_imp h
  exact of_decide_eq_true h0 rfl

/-! ## What a run keeps -/

/-- What every pass keeps, a run keeps. -/
theorem readLoop_keeps (P : Loop → Prop) (hpass : ∀ s r, P s → P (s.pass asked r))
    (rs : List Result) (h : P s) : P (readLoop asked s rs).1 := by
  induction rs generalizing s with
  | nil => exact h
  | cons r rest ih =>
    rw [readLoop]
    split
    · exact h
    · split
      · exact h
      · exact ih (hpass s r h)

theorem readLoop_writes {w : Int × Nat} (rs : List Result) (h : w ∈ s.writes) :
    w ∈ (readLoop asked s rs).1.writes :=
  readLoop_keeps (fun s => w ∈ s.writes)
    (fun _ _ hw => List.mem_cons_of_mem _ (List.mem_cons_of_mem _ hw)) rs h

theorem readLoop_delivered {x : UInt8} (rs : List Result) (h : x ∈ s.delivered) :
    x ∈ (readLoop asked s rs).1.delivered :=
  readLoop_keeps (fun s => x ∈ s.delivered) (fun _ _ hx => List.mem_append_left _ hx) rs h

/-- No NUL is ever printed. -/
theorem pass_printed (s : Loop) (r : Result) (h : 0 ∉ s.printed) : 0 ∉ (s.pass asked r).printed :=
  fun hmem => (List.mem_append.mp hmem).elim h (nul_notMem_cString _)

theorem readLoop_printed (rs : List Result) (h : 0 ∉ s.printed) :
    0 ∉ (readLoop asked s rs).1.printed :=
  readLoop_keeps (fun s => 0 ∉ s.printed) pass_printed rs h

theorem readLoop_unread {unread : List Result} (rs : List Result) :
    (readLoop asked s rs).2 = some unread → unread.length ≤ rs.length := by
  induction rs generalizing s with
  | nil =>
    rw [readLoop]
    split
    · rintro ⟨⟩
      exact Nat.le_refl _
    · rintro ⟨⟩
  | cons r rest ih =>
    rw [readLoop]
    split
    · rintro ⟨⟩
      exact Nat.le_refl _
    · split
      · rintro ⟨⟩
        exact Nat.le_succ _
      · exact fun h => (ih h).trans (Nat.le_succ _)

/-- A loop that has not read the payload uses a result. -/
theorem readLoop_unread_ne (rs : List Result) (h : s.len ≠ 0) :
    (readLoop asked s rs).2 ≠ some rs := by
  cases rs with
  | nil =>
    rw [readLoop, if_neg h]
    exact Option.some_ne_none _ ∘ Eq.symm
  | cons r rest =>
    rw [readLoop, if_neg h]
    split
    · exact fun hrest => List.ne_cons_self (Option.some.inj hrest)
    · intro hrest
      have hle := readLoop_unread rest hrest
      exact absurd hle (Nat.not_succ_le_self _)

/-! ## A pass -/

/-- What holds in front of each pass of a run that has met nothing but counts. -/
structure Good (s : Loop) (n : Nat) : Prop where
  len : s.len = n
  len_lt : n < 2 ^ 31
  d_length : s.d.length = bufSize
  within : ∀ w ∈ s.writes, 0 ≤ w.1 ∧ w.1 + w.2 ≤ bufSize
  lens : ∃ older, s.lens = s.len :: older
  shrinks : s.lens.IsChain (· ≤ ·)
  nonneg : ∀ len ∈ s.lens, 0 ≤ len
  prints : s.printed = s.delivered
  printed : 0 ∉ s.printed

theorem Publish.start_good (e : Publish) : Good e.start e.len :=
  ⟨rfl, e.len_lt, e.d_length, fun _ h => absurd h List.not_mem_nil, ⟨[], rfl⟩,
    List.isChain_singleton _,
    fun len h => by
      obtain rfl := List.mem_singleton.mp h
      exact Int.natCast_nonneg _,
    rfl, List.not_mem_nil⟩

variable {n : Nat} {first : UInt8} {more : List UInt8}

/-- The NUL behind what was read. -/
theorem set_nul {data d : List UInt8} (h : data.length < d.length) :
    (data ++ d.drop data.length).set data.length 0 = data ++ 0 :: d.drop (data.length + 1) := by
  rw [List.set_append_right _ _ (Nat.le_refl _), Nat.sub_self, List.drop_eq_getElem_cons h]
  rfl

/-- A pass that is given text prints it. -/
theorem pass_text {data : List UInt8} (hdata : (first :: more).take (asked s.len) = data)
    (hlt : data.length < s.d.length) (h0 : 0 ∉ data) :
    s.pass asked (.bytes first more) =
      { len := s.len - data.length
        d := data ++ 0 :: s.d.drop (data.length + 1)
        delivered := s.delivered ++ data
        printed := s.printed ++ data
        writes := (data.length, 1) :: (0, data.length) :: s.writes
        lens := (s.len - data.length) :: s.lens } := by
  have hread : (Result.bytes first more).data (asked s.len) = data := hdata
  have hret : (Result.bytes first more).ret (asked s.len) = data.length := by
    rw [← hdata]
    rfl
  have hcount : ¬ (data.length : Int) < 0 := Int.not_lt.mpr (Int.natCast_nonneg _)
  unfold Loop.pass
  simp only [hread, hret, if_neg hcount, Int.toNat_natCast, set_nul hlt, cString_append_nul h0]

theorem Good.pass (h : Good s n) (hasked : asked n = min 32 n) (hpos : 0 < n)
    (h0 : 0 ∉ (first :: more).take (min 32 n)) :
    Good (s.pass asked (.bytes first more)) (n - ((first :: more).take (min 32 n)).length) := by
  have hask : asked s.len = min 32 n := by rw [h.len, hasked]
  generalize hdata : (first :: more).take (min 32 n) = data at h0 ⊢
  have hlen : data.length = min (min 32 n) (more.length + 1) := by
    rw [← hdata, List.length_take, List.length_cons]
  have hd : s.d.length = 33 := h.d_length
  rw [pass_text (hask ▸ hdata) (by omega) h0]
  have hsub : s.len - data.length = ((n - data.length : Nat) : Int) := by
    rw [h.len, Int.ofNat_sub (by omega)]
  have hn := h.len_lt
  refine ⟨hsub, by omega, ?_, ?_, ⟨s.lens, rfl⟩, ?_, ?_, ?_, ?_⟩
  · show (data ++ 0 :: s.d.drop (data.length + 1)).length = 33
    rw [List.length_append, List.length_cons, List.length_drop]
    omega
  · rw [List.forall_mem_cons, List.forall_mem_cons, bufSize]
    exact ⟨⟨by omega, by omega⟩, ⟨Int.le_refl _, by omega⟩, h.within⟩
  · obtain ⟨older, holder⟩ := h.lens
    have hchain := h.shrinks
    show ((s.len - data.length) :: s.lens).IsChain (· ≤ ·)
    rw [holder] at hchain ⊢
    exact hchain.cons_cons (by omega)
  · exact List.forall_mem_cons.mpr ⟨by omega, h.nonneg⟩
  · exact congrArg (· ++ data) h.prints
  · exact fun hmem => (List.mem_append.mp hmem).elim h.printed h0

/-- A loop that has ended well. -/
theorem Good.meets (h : Good s n) (rest : List Result) :
    Meets (s, some rest) (some (n, rest)) :=
  ⟨h.within, h.shrinks, h.nonneg, h.prints, by
    show some (s.len, rest) = some ((n : Int), rest)
    rw [h.len]⟩

/-- A loop that waits. -/
theorem Good.meets_none (h : Good s n) : Meets (s, none) none :=
  ⟨h.within, h.shrinks, h.nonneg, h.prints, rfl⟩

/-! ## A run -/

theorem readLoop_bytes (hlen : s.len ≠ 0) (rest : List Result) :
    readLoop asked s (.bytes first more :: rest) =
      readLoop asked (s.pass asked (.bytes first more)) rest := by
  have hcount : ¬ (Result.bytes first more).ret (asked s.len) < 0 :=
    Int.not_lt.mpr (Int.natCast_nonneg _)
  rw [readLoop, if_neg hlen, if_neg fun h => hcount h.1]

/-- Neither 0 nor `-EAGAIN` leaves the loop. -/
theorem readLoop_status (hlen : s.len ≠ 0) (errno : Nat) (rest : List Result) :
    readLoop asked s (.status errno :: rest) =
      if errno = 0 ∨ errno = EAGAIN then readLoop asked (s.pass asked (.status errno)) rest
      else (s, some rest) := by
  rw [readLoop, if_neg hlen]
  show (if (-errno : Int) < 0 ∧ (-errno : Int) ≠ -EAGAIN then _ else _) = _
  by_cases h : errno = 0 ∨ errno = EAGAIN
  · rw [if_pos h, if_neg (by omega)]
  · rw [if_neg h, if_pos (by omega)]

/-- A pass that is given `-EAGAIN` writes in front of the buffer. -/
theorem readLoop_again_not_meets (rest : List Result) (ideal : Option (Nat × List Result)) :
    ¬ Meets (readLoop asked (s.pass asked (.status EAGAIN)) rest) ideal := by
  intro h
  have hmem : ((-11, 1) : Int × Nat) ∈ (s.pass asked (.status EAGAIN)).writes := List.mem_cons_self
  have hwithin := h.within _ (readLoop_writes rest hmem)
  exact absurd hwithin.1 (by decide)

/-- A pass that is given 0 leaves `len` as it is, and the loop goes on. -/
theorem readLoop_closed_not_meets (rest : List Result) (hlen : s.len ≠ 0) (m : Nat) :
    ¬ Meets (readLoop asked (s.pass asked (.status 0)) rest) (some (m, rest)) := by
  intro h
  have hsame : (s.pass asked (.status 0)).len = s.len := Int.sub_zero s.len
  obtain ⟨unread, hunread, hpair⟩ := Option.map_eq_some_iff.mp h.ends
  obtain ⟨_, rfl⟩ := Prod.mk.inj hpair
  exact readLoop_unread_ne unread (hsame.trans_ne hlen) hunread

/-- A NUL is given and not printed. -/
theorem readLoop_nul_not_meets (rest : List Result) (ideal : Option (Nat × List Result))
    (hprinted : 0 ∉ s.printed) (h0 : 0 ∈ (first :: more).take (asked s.len)) :
    ¬ Meets (readLoop asked (s.pass asked (.bytes first more)) rest) ideal := by
  intro h
  have hpass : 0 ∉ (s.pass asked (.bytes first more)).printed := pass_printed s _ hprinted
  have hdelivered : 0 ∈ (s.pass asked (.bytes first more)).delivered := List.mem_append_right _ h0
  have hmem : 0 ∈ (readLoop asked (s.pass asked (.bytes first more)) rest).1.delivered :=
    readLoop_delivered rest hdelivered
  rw [← h.prints] at hmem
  exact readLoop_printed rest hpass hmem

theorem readLoop_meets_iff (hasked : ∀ m : Nat, m < 2 ^ 31 → asked m = min 32 m) (h : Good s n)
    (rs : List Result) : Meets (readLoop asked s rs) (finish n rs) ↔ Plain n rs := by
  induction rs generalizing s n with
  | nil =>
    refine iff_of_true ?_ trivial
    rw [readLoop, finish, h.len]
    by_cases hn : n = 0
    · subst hn
      exact h.meets []
    · rw [if_neg (Int.natCast_ne_zero.mpr hn), if_neg hn]
      exact h.meets_none
  | cons r rest ih =>
    by_cases hn : n = 0
    · subst hn
      have hzero : s.len = 0 := h.len
      rw [readLoop, if_pos hzero]
      exact iff_of_true (h.meets (r :: rest)) (Or.inl rfl)
    have hlen : s.len ≠ 0 := by
      rw [h.len]
      exact Int.natCast_ne_zero.mpr hn
    cases r with
    | bytes first more =>
      have hask : asked s.len = min 32 n := by rw [h.len, hasked n h.len_lt]
      rw [readLoop_bytes hlen, finish, if_neg hn, Plain, or_iff_right hn]
      by_cases h0 : 0 ∈ (first :: more).take (min 32 n)
      · refine iff_of_false ?_ fun hplain => hplain.1 h0
        exact readLoop_nul_not_meets rest _ h.printed (hask.symm ▸ h0)
      · show Meets _ (finish _ rest) ↔ 0 ∉ _ ∧ _
        rw [and_iff_right h0]
        exact ih (h.pass (hasked n h.len_lt) (Nat.pos_of_ne_zero hn) h0)
    | status errno =>
      rw [readLoop_status hlen, finish, if_neg hn, Plain, or_iff_right hn]
      show Meets _ (if errno = EAGAIN then _ else some (n, rest)) ↔ errno ≠ 0 ∧ errno ≠ EAGAIN
      by_cases hagain : errno = EAGAIN
      · subst hagain
        rw [if_pos (Or.inr rfl)]
        exact iff_of_false (readLoop_again_not_meets rest _) fun hplain => hplain.2 rfl
      · rw [if_neg hagain]
        by_cases hzero : errno = 0
        · subst hzero
          rw [if_pos (Or.inl rfl)]
          exact iff_of_false (readLoop_closed_not_meets rest hlen n) fun hplain => hplain.1 rfl
        · rw [if_neg (not_or.mpr ⟨hzero, hagain⟩)]
          exact iff_of_true (h.meets rest) ⟨hzero, hagain⟩

theorem toSize_of_lt {m : Nat} (h : m < 2 ^ 31) : toSize m = m := by
  unfold toSize
  omega

/-- Whatever length is announced and whatever the reads give, each loop does what it is to do
exactly if the results are plain. -/
theorem payload_loops_iff (e : Publish) (rs : List Result) :
    (Meets (mqttEvtHandler e rs) (finish e.len rs) ↔ Plain e.len rs) ∧
      (Meets (mqttEventHandler e rs) (finish e.len rs) ↔ Plain e.len rs) := by
  constructor
  · refine readLoop_meets_iff (fun m hm => ?_) e.start_good rs
    rw [toSize_of_lt hm]
    split <;> omega
  · refine readLoop_meets_iff (fun m hm => ?_) e.start_good rs
    rw [toSize_of_lt hm, bufSize]
    split <;> omega

/-- Five bytes are announced, and the first read has to wait. -/
def awaited : Publish := ⟨5, List.replicate 33 0, by decide, rfl⟩

theorem again_not_met :
    ¬ Meets (mqttEvtHandler awaited [.status EAGAIN, .bytes 104 [101, 108, 108, 111]])
        (finish 5 [.status EAGAIN, .bytes 104 [101, 108, 108, 111]]) ∧
      ¬ Meets (mqttEventHandler awaited [.status EAGAIN, .bytes 104 [101, 108, 108, 111]])
        (finish 5 [.status EAGAIN, .bytes 104 [101, 108, 108, 111]]) := by
  constructor
  · intro h
    exact absurd (h.within (-11, 1) (by decide)).1 (by decide)
  · intro h
    exact absurd (h.within (-11, 1) (by decide)).1 (by decide)

end CloudMqtt
end ZephyrSamples
