import Mathlib.Data.List.DropRight
import Mathlib.Data.List.Infix
import Mathlib.Order.Nat
import Mathlib.Data.Nat.Find

/-!
# The end of a header

The loop of `dumb_http_server` that discards a request, and `skip_headers` of `big_http_download`.
Both match the empty line byte by byte, and a byte that does not continue a match is not tried as
the beginning of the next one. -/

namespace ZephyrSamples
namespace HttpServers

def cr : UInt8 := 0x0d

def lf : UInt8 := 0x0a

/-- `"\r\n\r\n"` -/
def emptyLine : List UInt8 := [cr, lf, cr, lf]

/-- The branches on `req_state` and `state`; `none` is the `break`. -/
def advance (state : Nat) (c : UInt8) : Option Nat :=
  if state = 0 ∧ c = cr then some 1
  else if state = 1 ∧ c = lf then some 2
  else if state = 2 ∧ c = cr then some 3
  else if state = 3 ∧ c = lf then none
  else some 0

/-- What `recv` of a byte gives.  At the end of all results the peer has closed the connection. -/
inductive Recv where
  | byte (c : UInt8)
  | error (errno : Nat)
  deriving DecidableEq, Repr

inductive Ending where
  | found
  | closed
  | failed (errno : Nat)
  deriving DecidableEq, Repr

/-- The loops, and the results they leave; `retry` tells the errors after which they go on. -/
def receive (retry : Nat → Bool) : Nat → List Recv → Ending × List Recv
  | _, [] => (.closed, [])
  | state, .error errno :: rest =>
    if retry errno then receive retry state rest else (.failed errno, rest)
  | state, .byte c :: rest =>
    match advance state c with
    | none => (.found, rest)
    | some state => receive retry state rest

def eagain : Nat := 11

def eintr : Nat := 4

def retried (errno : Nat) : Bool := errno = eagain || errno = eintr

/-- The request loop of `dumb_http_server`, which sends the content where the end was found. -/
def discardRequest (results : List Recv) : Ending × List Recv := receive retried 0 results

/-- `skip_headers` -/
def skipHeaders (results : List Recv) : Int × List Recv :=
  match receive (fun _ => false) 0 results with
  | (.found, rest) => (1, rest)
  | (.closed, rest) => (0, rest)
  | (.failed _, rest) => (-1, rest)

def bytesOf (results : List Recv) : List UInt8 :=
  results.filterMap fun
    | .byte c => some c
    | .error _ => none

/-- Results whose errors are all retried. -/
structure Stream (retry : Nat → Bool) where
  results : List Recv
  errors : ∀ errno, .error errno ∈ results → retry errno = true

def Stream.bytes {retry : Nat → Bool} (s : Stream retry) : List UInt8 := bytesOf s.results

/-- The first `n` bytes are the shortest prefix that ends in an empty line. -/
structure FirstEnd (bytes : List UInt8) (n : Nat) : Prop where
  le_length : n ≤ bytes.length
  suffix : emptyLine <:+ bytes.take n
  first : ∀ m < n, ¬ emptyLine <:+ bytes.take m

/-- What is returned and left is right: the bytes up to the first empty line were read and no more,
or all if there is none. -/
def EndsRight {α : Type} (found closed : α) (results : List Recv)
    (returned : α × List Recv) : Prop :=
  (∀ n, FirstEnd (bytesOf results) n → returned.1 = found ∧
    ∃ read, results = read ++ returned.2 ∧ bytesOf read = (bytesOf results).take n) ∧
  ((∀ n, ¬ FirstEnd (bytesOf results) n) → returned = (closed, []))

/-- The carriage returns that end in the first one of the first empty line are odd in number. -/
def OddReturns (bytes : List UInt8) : Prop :=
  ∀ n, FirstEnd bytes n → ((bytes.take (n - 3)).rtakeWhile (· = cr)).length % 2 = 1

/-- The number of bytes after which the matcher stops. -/
def stop : Nat → List UInt8 → Option Nat
  | _, [] => none
  | state, c :: rest =>
    match advance state c with
    | none => some 1
    | some state => (stop state rest).map (· + 1)

variable {state state' n m : Nat} {c : UInt8} {bytes done xs ys rest : List UInt8}

/-! ## The matcher -/

theorem advance_of_ne (h : emptyLine[state]? ≠ some c) : advance state c = some 0 := by
  unfold advance
  split
  · next hc => exact absurd (by rw [hc.1, hc.2]; rfl) h
  · split
    · next hc => exact absurd (by rw [hc.1, hc.2]; rfl) h
    · split
      · next hc => exact absurd (by rw [hc.1, hc.2]; rfl) h
      · split
        · next hc => exact absurd (by rw [hc.1, hc.2]; rfl) h
        · rfl

theorem advance_of_eq (h : emptyLine[state]? = some c) :
    advance state c = if state = 3 then none else some (state + 1) := by
  obtain ⟨hlt, hget⟩ := List.getElem?_eq_some_iff.mp h
  have hstate : state < 4 := hlt
  subst hget
  match state, hstate with
  | 0, _ => rfl
  | 1, _ => rfl
  | 2, _ => rfl
  | 3, _ => rfl

theorem take_succ_emptyLine (h : emptyLine[state]? = some c) :
    emptyLine.take (state + 1) = emptyLine.take state ++ [c] := by
  rw [List.take_add_one, h]
  rfl

theorem suffix_append_singleton (h : xs <:+ ys) (c : UInt8) : xs ++ [c] <:+ ys ++ [c] := by
  obtain ⟨zs, rfl⟩ := h
  exact ⟨zs, (List.append_assoc zs xs [c]).symm⟩

/-- The run of carriage returns at the end of what was read. -/
def returns (done : List UInt8) : Nat := (done.rtakeWhile (· = cr)).length

theorem returns_cr (done : List UInt8) : returns (done ++ [cr]) = returns done + 1 := by
  rw [returns, List.rtakeWhile_concat, if_pos (decide_eq_true rfl), List.length_append]
  rfl

theorem returns_of_ne (done : List UInt8) (h : c ≠ cr) : returns (done ++ [c]) = 0 := by
  rw [returns, List.rtakeWhile_concat, if_neg (by simp [h])]
  rfl

/-- What the state says of what was read: how much of the empty line ends it, and whether its run of
carriage returns is odd. -/
structure Matches (state : Nat) (done : List UInt8) : Prop where
  lt : state < 4
  suffix : emptyLine.take state <:+ done
  parity : state % 2 = returns done % 2

theorem matches_nil : Matches 0 [] := ⟨by decide, List.nil_suffix, rfl⟩

theorem parity_of_eq (h : emptyLine[state]? = some c) : c = cr ↔ state % 2 = 0 := by
  obtain ⟨hlt, hget⟩ := List.getElem?_eq_some_iff.mp h
  have hstate : state < 4 := hlt
  have hne : lf ≠ cr := by decide
  subst hget
  match state, hstate with
  | 0, _ => exact iff_of_true rfl rfl
  | 1, _ => exact iff_of_false hne (by decide)
  | 2, _ => exact iff_of_true rfl rfl
  | 3, _ => exact iff_of_false hne (by decide)

theorem Matches.advance (hm : Matches state done) (h : advance state c = some state') :
    Matches state' (done ++ [c]) := by
  have hlt := hm.lt
  have hparity := hm.parity
  by_cases hc : emptyLine[state]? = some c
  · rw [advance_of_eq hc] at h
    split at h
    case isTrue => cases h
    case isFalse hne =>
      obtain rfl := Option.some.inj h
      refine ⟨by omega, ?_, ?_⟩
      · rw [take_succ_emptyLine hc]
        exact suffix_append_singleton hm.suffix c
      · by_cases hcr : c = cr
        · have heven := (parity_of_eq hc).mp hcr
          rw [hcr, returns_cr]
          omega
        · have hodd := mt (parity_of_eq hc).mpr hcr
          rw [returns_of_ne done hcr]
          omega
  · rw [advance_of_ne hc] at h
    obtain rfl := Option.some.inj h
    refine ⟨by decide, List.nil_suffix, ?_⟩
    by_cases hcr : c = cr
    · have hodd : state % 2 = 1 := by
        by_contra heven
        subst hcr
        have hstate : state = 0 ∨ state = 2 := by omega
        rcases hstate with rfl | rfl
        · exact hc rfl
        · exact hc rfl
      rw [hcr, returns_cr]
      omega
    · rw [returns_of_ne done hcr]

/-- The matcher stops at the end of an empty line. -/
theorem Matches.stopped (hm : Matches state done) (h : HttpServers.advance state c = none) :
    emptyLine <:+ done ++ [c] := by
  by_cases hc : emptyLine[state]? = some c
  · rw [advance_of_eq hc] at h
    split at h
    case isTrue h3 =>
      have hsuffix := suffix_append_singleton hm.suffix c
      rw [← take_succ_emptyLine hc, h3] at hsuffix
      exact hsuffix
    case isFalse => cases h
  · rw [advance_of_ne hc] at h
    cases h

theorem Matches.stop_sound (hm : Matches state done) (h : stop state bytes = some n) :
    0 < n ∧ n ≤ bytes.length ∧ emptyLine <:+ done ++ bytes.take n := by
  induction bytes generalizing state done n with
  | nil => cases h
  | cons c bytes ih =>
    rw [stop] at h
    split at h
    · next hstop =>
      obtain rfl := Option.some.inj h
      exact ⟨Nat.one_pos, Nat.succ_le_succ (Nat.zero_le _), hm.stopped hstop⟩
    · next state' hnext =>
      obtain ⟨k, hk, rfl⟩ := Option.map_eq_some_iff.mp h
      obtain ⟨_, hle, hsuffix⟩ := ih (hm.advance hnext) hk
      rw [List.append_assoc] at hsuffix
      exact ⟨Nat.succ_pos k, Nat.succ_le_succ hle, hsuffix⟩

/-- Either it has stopped in the first part, or it goes on from its state there. -/
theorem Matches.stop_append (hm : Matches state done) (xs ys : List UInt8) :
    (∃ k ≤ xs.length, stop state (xs ++ ys) = some k) ∨
      ∃ state', Matches state' (done ++ xs) ∧
        stop state (xs ++ ys) = (stop state' ys).map (· + xs.length) := by
  induction xs generalizing state done with
  | nil =>
    refine Or.inr ⟨state, (List.append_nil done).symm ▸ hm, ?_⟩
    show stop state ys = (stop state ys).map id
    rw [Option.map_id, id]
  | cons c xs ih =>
    rw [List.cons_append, stop]
    cases hnext : HttpServers.advance state c with
    | none => exact Or.inl ⟨1, Nat.succ_le_succ (Nat.zero_le _), rfl⟩
    | some state' =>
      rcases ih (hm.advance hnext) with ⟨k, hk, hstop⟩ | ⟨state'', hm', hstop⟩
      · refine Or.inl ⟨k + 1, Nat.succ_le_succ hk, ?_⟩
        show Option.map (· + 1) (stop state' (xs ++ ys)) = _
        rw [hstop]
        rfl
      · refine Or.inr ⟨state'', by rw [List.append_assoc] at hm'; exact hm', ?_⟩
        show Option.map (· + 1) (stop state' (xs ++ ys)) = _
        rw [hstop, Option.map_map]
        rfl

theorem stop_pos (h : stop state bytes = some n) : 0 < n := by
  cases bytes with
  | nil => cases h
  | cons c bytes =>
    rw [stop] at h
    split at h
    · exact (Option.some.inj h) ▸ Nat.one_pos
    · obtain ⟨k, _, rfl⟩ := Option.map_eq_some_iff.mp h
      exact Nat.succ_pos k

/-- From an even state the three bytes lead to the state after a first line end. -/
theorem stop_of_even (h : state = 0 ∨ state = 2) (rest : List UInt8) :
    stop state (lf :: cr :: lf :: rest) = (stop 2 rest).map (· + 3) := by
  have hthree : stop state (lf :: cr :: lf :: rest) =
      (((stop 2 rest).map (· + 1)).map (· + 1)).map (· + 1) := by
    rcases h with rfl | rfl
    · rfl
    · rfl
  rw [hthree, Option.map_map, Option.map_map]
  rfl

/-- At the first empty line the matcher is at its beginning, or has missed it. -/
theorem stop_firstEnd_iff (h : FirstEnd bytes n) :
    stop 0 bytes = some n ↔ returns (bytes.take (n - 3)) % 2 = 1 := by
  obtain ⟨before, hbefore⟩ := h.suffix
  have hn : n = before.length + 4 := by
    have hlen := congrArg List.length hbefore
    rw [List.length_append, List.length_take, Nat.min_eq_left h.le_length] at hlen
    exact hlen.symm
  have hbytes : bytes = (before ++ [cr]) ++ (lf :: cr :: lf :: bytes.drop n) := by
    rw [List.append_assoc]
    show bytes = before ++ (emptyLine ++ bytes.drop n)
    rw [← List.append_assoc, hbefore, List.take_append_drop]
  have hlen : (before ++ [cr]).length = n - 3 := by
    rw [List.length_append, hn]
    rfl
  have htake : bytes.take (n - 3) = before ++ [cr] := by
    rw [hbytes, ← hlen, List.take_left]
  -- the matcher stops only at empty lines, so not before the first
  have hnot : ∀ k < n, stop 0 bytes ≠ some k := fun k hk hstop =>
    h.first k hk (matches_nil.stop_sound hstop).2.2
  rw [htake]
  rcases matches_nil.stop_append (before ++ [cr]) (lf :: cr :: lf :: bytes.drop n) with
    ⟨k, hk, hstop⟩ | ⟨state, hm, hstop⟩
  · rw [← hbytes] at hstop
    exact absurd hstop (hnot k (by omega))
  · rw [← hbytes, hlen] at hstop
    have hlt := hm.lt
    have hmiss : state = 0 ∨ state = 2 → stop 0 bytes ≠ some n := by
      intro heven heq
      rw [hstop, stop_of_even heven, Option.map_map] at heq
      obtain ⟨k, hk, hkn⟩ := Option.map_eq_some_iff.mp heq
      have hpos := stop_pos hk
      have hkn' : k + 3 + (n - 3) = n := hkn
      omega
    rw [← List.nil_append (before ++ [cr]), ← hm.parity]
    match state, hlt with
    | 0, _ => exact iff_of_false (hmiss (Or.inl rfl)) (by decide)
    | 1, _ =>
      have hthree : stop 1 (lf :: cr :: lf :: bytes.drop n) = some 3 := rfl
      rw [hstop, hthree, Option.map_some]
      exact iff_of_true (congrArg some (by omega)) rfl
    | 2, _ => exact iff_of_false (hmiss (Or.inr rfl)) (by decide)
    | 3, _ =>
      have hone : stop 3 (lf :: cr :: lf :: bytes.drop n) = some 1 := rfl
      rw [hone, Option.map_some] at hstop
      exact absurd hstop (hnot _ (by omega))

/-- Where there is an empty line there is a first one. -/
theorem exists_firstEnd (hn : n ≤ bytes.length) (h : emptyLine <:+ bytes.take n) :
    ∃ n, FirstEnd bytes n := by
  have hex : ∃ n, n ≤ bytes.length ∧ emptyLine <:+ bytes.take n := ⟨n, hn, h⟩
  classical
  obtain ⟨hle, hsuffix⟩ := Nat.find_spec hex
  refine ⟨Nat.find hex, hle, hsuffix, fun m hm hend => ?_⟩
  exact Nat.find_min hex hm ⟨by omega, hend⟩

/-- The matcher stops at the first empty line exactly if the carriage returns before its first line
feed are odd in number, and without an empty line it does not stop. -/
theorem stop_iff (bytes : List UInt8) :
    ((∀ n, FirstEnd bytes n → stop 0 bytes = some n) ∧
      ((∀ n, ¬ FirstEnd bytes n) → stop 0 bytes = none)) ↔ OddReturns bytes := by
  constructor
  · exact fun h n hn => (stop_firstEnd_iff hn).mp (h.1 n hn)
  · intro h
    refine ⟨fun n hn => (stop_firstEnd_iff hn).mpr (h n hn), fun hnone => ?_⟩
    cases hstop : stop 0 bytes with
    | none => rfl
    | some k =>
      obtain ⟨_, hle, hsuffix⟩ := matches_nil.stop_sound hstop
      obtain ⟨n, hn⟩ := exists_firstEnd hle hsuffix
      exact absurd hn (hnone n)

/-! ## The loops -/

/-- What a loop returns that ends where the matcher stops, with the bytes up to there read. -/
structure EndsAtStop {α : Type} (found closed : α) (state : Nat) (results : List Recv)
    (returned : α × List Recv) : Prop where
  stopped : ∀ n, stop state (bytesOf results) = some n → returned.1 = found ∧
    ∃ read, results = read ++ returned.2 ∧ bytesOf read = (bytesOf results).take n
  ended : stop state (bytesOf results) = none → returned = (closed, [])

theorem receive_endsAtStop (retry : Nat → Bool) (state : Nat) {results : List Recv}
    (herrors : ∀ errno, .error errno ∈ results → retry errno = true) :
    EndsAtStop .found .closed state results (receive retry state results) := by
  induction results generalizing state with
  | nil => exact ⟨fun n h => absurd h.symm (Option.some_ne_none n), fun _ => rfl⟩
  | cons r results ih =>
    have herrors' : ∀ errno, .error errno ∈ results → retry errno = true :=
      fun errno he => herrors errno (List.mem_cons_of_mem r he)
    cases r with
    | error errno =>
      obtain ⟨hstopped, hended⟩ := ih state herrors'
      rw [receive, if_pos (herrors errno List.mem_cons_self)]
      refine ⟨fun n hn => ?_, hended⟩
      obtain ⟨hfound, read, hread, htake⟩ := hstopped n hn
      exact ⟨hfound, .error errno :: read, congrArg (Recv.error errno :: ·) hread, htake⟩
    | byte c =>
      have hbytes : bytesOf (.byte c :: results) = c :: bytesOf results := rfl
      cases hnext : advance state c with
      | none =>
        have hreceive : receive retry state (.byte c :: results) = (.found, results) := by
          rw [receive, hnext]
        have hstop : stop state (bytesOf (.byte c :: results)) = some 1 := by
          rw [hbytes, stop, hnext]
        rw [hreceive]
        constructor
        case stopped =>
          intro n hn
          obtain rfl := Option.some.inj (hstop.symm.trans hn)
          exact ⟨rfl, [.byte c], rfl, rfl⟩
        case ended => exact fun hn => absurd (hstop.symm.trans hn) (Option.some_ne_none 1)
      | some state' =>
        obtain ⟨hstopped, hended⟩ := ih state' herrors'
        have hreceive :
            receive retry state (.byte c :: results) = receive retry state' results := by
          rw [receive, hnext]
        have hstop : stop state (bytesOf (.byte c :: results)) =
            (stop state' (bytesOf results)).map (· + 1) := by
          rw [hbytes, stop, hnext]
        rw [hreceive]
        constructor
        case stopped =>
          intro n hn
          obtain ⟨k, hk, rfl⟩ := Option.map_eq_some_iff.mp (hstop.symm.trans hn)
          obtain ⟨hfound, read, hread, htake⟩ := hstopped k hk
          exact ⟨hfound, .byte c :: read, congrArg (Recv.byte c :: ·) hread,
            congrArg (c :: ·) htake⟩
        case ended => exact fun hn => hended (Option.map_eq_none_iff.mp (hstop.symm.trans hn))

theorem skipHeaders_endsAtStop {results : List Recv} (herrors : ∀ errno, .error errno ∉ results) :
    EndsAtStop 1 0 0 results (skipHeaders results) := by
  obtain ⟨hstopped, hended⟩ := receive_endsAtStop (fun _ => false) 0
    fun errno he => absurd he (herrors errno)
  constructor
  case stopped =>
    intro n hn
    obtain ⟨hfound, hread⟩ := hstopped n hn
    unfold skipHeaders
    generalize receive (fun _ => false) 0 results = returned at hfound hread
    obtain ⟨ending, rest⟩ := returned
    obtain rfl : ending = .found := hfound
    exact ⟨rfl, hread⟩
  case ended =>
    intro hn
    rw [skipHeaders, hended hn]

theorem endsRight_iff {α : Type} {found closed : α} (hne : found ≠ closed) {results : List Recv}
    {returned : α × List Recv} (h : EndsAtStop found closed 0 results returned) :
    EndsRight found closed results returned ↔ OddReturns (bytesOf results) := by
  rw [← stop_iff, EndsRight]
  cases hstop : stop 0 (bytesOf results) with
  | none =>
    have hreturned := h.ended hstop
    subst hreturned
    refine and_congr (forall₂_congr fun n hn => iff_of_false ?_ (Option.some_ne_none n).symm)
      (iff_of_true (fun _ => rfl) fun _ => rfl)
    exact fun hfound => hne hfound.1.symm
  | some m =>
    obtain ⟨hfound, read, hread, htake⟩ := h.stopped m hstop
    refine and_congr (forall₂_congr fun n hn => ?_) (forall_congr' fun _ => iff_of_false ?_ ?_)
    · constructor
      · rintro ⟨_, read', hread', htake'⟩
        have hsame : read' = read := List.append_cancel_right (hread'.symm.trans hread)
        subst hsame
        have hlen := congrArg List.length (htake.symm.trans htake')
        rw [List.length_take, List.length_take,
          Nat.min_eq_left (matches_nil.stop_sound hstop).2.1, Nat.min_eq_left hn.le_length] at hlen
        exact congrArg some hlen
      · intro hsome
        obtain rfl := Option.some.inj hsome
        exact ⟨hfound, read, hread, htake⟩
    · rintro rfl
      exact hne hfound.symm
    · exact Option.some_ne_none m

/-- Both loops find the end of a header exactly if the carriage returns before its first line feed
are odd in number. -/
theorem header_end_iff (request : Stream retried) (response : Stream fun _ => false) :
    (EndsRight .found .closed request.results (discardRequest request.results) ↔
      OddReturns request.bytes) ∧
    (EndsRight 1 0 response.results (skipHeaders response.results) ↔ OddReturns response.bytes) :=
  ⟨endsRight_iff (by decide) (receive_endsAtStop _ _ request.errors),
    endsRight_iff (by decide) (skipHeaders_endsAtStop fun errno he =>
      absurd (response.errors errno he) Bool.false_ne_true)⟩

/-- After a carriage return that stands alone the empty line is missed. -/
theorem double_return_missed : ¬ ∀ request : Stream retried,
    EndsRight .found .closed request.results (discardRequest request.results) := by
  intro h
  let request : Stream retried :=
    ⟨[.byte cr, .byte cr, .byte lf, .byte cr, .byte lf], fun errno he => absurd he (by simp)⟩
  have hfirst : FirstEnd (bytesOf request.results) 5 :=
    ⟨by decide, by decide, by decide⟩
  exact absurd ((h request).1 5 hfirst).1 (by decide)

end HttpServers
end ZephyrSamples
