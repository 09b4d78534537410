import ZephyrSamples.HttpServers.HeaderEnd

/-!
# The end of a request

`client_conn_handler` of `dumb_http_server_mt`, which looks for the empty line with `strstr` in a
buffer without a NUL.  The memory is the buffer and what follows it on the stack. -/

namespace ZephyrSamples
namespace HttpServers

/-- `sizeof(buf)` -/
def bufSize : Nat := 100

/-- `strstr`: whether it finds `needle` in front of the first NUL, and how many bytes it examines.
The result is `none` if the memory has neither. -/
def strstr (needle : List UInt8) : List UInt8 → Option (Bool × Nat)
  | [] => none
  | c :: rest =>
    if needle <+: c :: rest then some (true, needle.length)
    else if c = 0 then some (false, 1)
    else (strstr needle rest).map fun r => (r.1, r.2 + 1)

/-- What `recv` gives the handler. -/
inductive Received where
  | piece (bytes : List UInt8)
  | closed
  | failed (errno : Nat)

/-- How the loop ends: at `sendall` of the content, with what has not been received, in a `recv`
that blocks, or behind the memory. -/
inductive Exit where
  | responds (unread : List Received)
  | blocks
  | faults

/-- The loop.  The first `delivered` bytes of the buffer come from the calls of `recv`, and `clean`
tells whether no others were examined. -/
def connLoop (behind : List UInt8) : List UInt8 → Nat → Bool → List Received → Exit × Bool
  | _, _, clean, [] => (.blocks, clean)
  | _, _, clean, .closed :: rest => (.responds rest, clean)
  | _, _, clean, .failed _ :: rest => (.responds rest, clean)
  | buf, delivered, clean, .piece bytes :: rest =>
    let buf := bytes ++ buf.drop bytes.length
    let delivered := max delivered bytes.length
    match strstr emptyLine (buf ++ behind) with
    | none => (.faults, false)
    | some (found, examined) =>
      let clean := clean && examined ≤ delivered
      if found then (.responds rest, clean) else connLoop behind buf delivered clean rest

/-- The stack when the handler is entered. -/
structure Stack where
  buf : List UInt8
  behind : List UInt8
  buf_length : buf.length = bufSize

def clientConnHandler (s : Stack) (results : List Received) : Exit × Bool :=
  connLoop s.behind s.buf 0 true results

/-- A request with an empty line at its end and nowhere else, as `recv` cuts it. -/
structure Request where
  fulls : List (List UInt8)
  last : List UInt8
  fulls_length : ∀ p ∈ fulls, p.length = bufSize
  last_length : 0 < last.length ∧ last.length ≤ bufSize
  ends : emptyLine <:+ fulls.flatten ++ last
  only : ∀ before after, before ++ emptyLine ++ after = fulls.flatten ++ last → after = []

def Request.bytes (r : Request) : List UInt8 := r.fulls.flatten ++ r.last

/-- The pieces, after which `recv` blocks. -/
def Request.received (r : Request) : List Received := (r.fulls ++ [r.last]).map .piece

/-- The handler has read the whole request when it responds, and has examined nothing else. -/
def Answers (s : Stack) (r : Request) : Prop :=
  clientConnHandler s r.received = (.responds [], true)

/-- Where the empty line begins in the piece before, what is left of that piece completes it. -/
def Completes (prev last : List UInt8) : Prop :=
  last.length = 2 ∧ (prev.drop 2).take 2 = [cr, lf] ∨
    last.length = 3 ∧ (prev.drop 3).take 2 = [cr, lf]

/-- Every piece but the last has a NUL.  The last has the empty line and no NUL, or it completes one
with bytes of the piece before. -/
def Terminated (r : Request) : Prop :=
  (∀ p ∈ r.fulls, 0 ∈ p) ∧
    (4 ≤ r.last.length ∧ 0 ∉ r.last ∨ ∃ prev, r.fulls.getLast? = some prev ∧ Completes prev r.last)

/-- `recv` gives full pieces and then what is left, whatever the length. -/
theorem exists_pieces (bytes : List UInt8) (h : bytes ≠ []) :
    ∃ (fulls : List (List UInt8)) (last : List UInt8), fulls.flatten ++ last = bytes ∧
      (∀ p ∈ fulls, p.length = bufSize) ∧ 0 < last.length ∧ last.length ≤ bufSize := by
  generalize hn : bytes.length = n
  induction n using Nat.strong_induction_on generalizing bytes with
  | _ n ih =>
    have hpos := List.length_pos_iff.mpr h
    by_cases hle : bytes.length ≤ bufSize
    · exact ⟨[], bytes, rfl, fun p hp => absurd hp List.not_mem_nil, hpos, hle⟩
    · have hlen : (bytes.drop bufSize).length = bytes.length - bufSize := List.length_drop
      have hsize : 0 < bufSize := by decide
      obtain ⟨fulls, last, hjoin, hfulls, hlast⟩ := ih (bytes.drop bufSize).length (by omega)
        (bytes.drop bufSize) (List.length_pos_iff.mp (by omega)) rfl
      refine ⟨bytes.take bufSize :: fulls, last, ?_, List.forall_mem_cons.mpr ⟨?_, hfulls⟩, hlast⟩
      · rw [List.flatten_cons, List.append_assoc, hjoin, List.take_append_drop]
      · exact List.length_take_of_le (by omega)

/-- Every request with an empty line at its end and nowhere else is one of them. -/
theorem Request.exists_of_bytes (bytes : List UInt8) (hends : emptyLine <:+ bytes)
    (honly : ∀ before after, before ++ emptyLine ++ after = bytes → after = []) :
    ∃ r : Request, r.bytes = bytes := by
  have hne : bytes ≠ [] := by
    rintro rfl
    exact absurd hends.length_le (by decide)
  obtain ⟨fulls, last, rfl, hfulls, hlast⟩ := exists_pieces bytes hne
  exact ⟨⟨fulls, last, hfulls, hlast, hends, honly⟩, rfl⟩

variable {l a tail buf behind : List UInt8} {delivered : Nat}

theorem infix_of_prefix_append {c : UInt8} (h : emptyLine <+: c :: l ++ tail)
    (hlen : 4 ≤ (c :: l).length) : emptyLine <:+: c :: l :=
  (List.prefix_of_prefix_length_le h (List.prefix_append _ _) hlen).isInfix

/-- In front of a NUL there is no match. -/
theorem strstr_of_nul (h0 : 0 ∈ l) (hno : ¬ emptyLine <:+: l) (tail : List UInt8) :
    ∃ n ≤ l.length, strstr emptyLine (l ++ tail) = some (false, n) := by
  induction l with
  | nil => exact absurd h0 List.not_mem_nil
  | cons c l ih =>
    have hnot : ¬ emptyLine <+: c :: l ++ tail := by
      intro h
      by_cases hlen : 4 ≤ (c :: l).length
      · exact hno (infix_of_prefix_append h hlen)
      · have hshort : c :: l <+: emptyLine :=
          List.prefix_of_prefix_length_le (List.prefix_append _ _) h (by
            show _ ≤ 4
            omega)
        have hmem : (0 : UInt8) ∈ emptyLine := hshort.subset h0
        exact absurd hmem (by decide)
    rw [List.cons_append] at hnot ⊢
    rw [strstr, if_neg hnot]
    by_cases hc : c = 0
    · exact ⟨1, Nat.succ_le_succ (Nat.zero_le _), if_pos hc⟩
    · have h0' : 0 ∈ l := (List.mem_cons.mp h0).resolve_left (Ne.symm hc)
      obtain ⟨n, hn, hstr⟩ := ih h0' fun h => hno (List.infix_cons h)
      refine ⟨n + 1, Nat.succ_le_succ hn, ?_⟩
      rw [if_neg hc, hstr]
      rfl

theorem strstr_pos {m : List UInt8} {found : Bool} {n : Nat}
    (h : strstr emptyLine m = some (found, n)) : 0 < n := by
  cases m with
  | nil => cases h
  | cons c m =>
    rw [strstr] at h
    split at h
    · obtain ⟨_, rfl⟩ := Prod.mk.inj (Option.some.inj h)
      exact Nat.succ_pos 3
    · split at h
      · obtain ⟨_, rfl⟩ := Prod.mk.inj (Option.some.inj h)
        exact Nat.one_pos
      · obtain ⟨r, _, hr⟩ := Option.map_eq_some_iff.mp h
        obtain ⟨_, rfl⟩ := Prod.mk.inj hr
        exact Nat.succ_pos r.2

/-- Without a NUL and a match it examines what lies behind. -/
theorem strstr_of_no_nul (h0 : 0 ∉ l) (hno : ¬ emptyLine <:+: l) {found : Bool} {n : Nat}
    (h : strstr emptyLine (l ++ tail) = some (found, n)) : l.length < n := by
  induction l generalizing found n with
  | nil => exact strstr_pos h
  | cons c l ih =>
    rw [List.cons_append, strstr] at h
    split at h
    case isTrue hpre =>
      obtain ⟨_, rfl⟩ := Prod.mk.inj (Option.some.inj h)
      by_contra hlen
      exact hno (infix_of_prefix_append hpre (Nat.not_lt.mp hlen))
    case isFalse =>
      split at h
      case isTrue hc => exact absurd (hc ▸ List.mem_cons_self) h0
      case isFalse =>
        obtain ⟨⟨found', k⟩, hstr, hr⟩ := Option.map_eq_some_iff.mp h
        obtain ⟨_, rfl⟩ := Prod.mk.inj hr
        have hlen := ih (fun h => h0 (List.mem_cons_of_mem c h))
          (fun h => hno (List.infix_cons h)) hstr
        exact Nat.succ_lt_succ hlen

/-- The first match is found if no NUL is in front of it. -/
theorem strstr_found (h0 : 0 ∉ a) (hno : ¬ emptyLine <:+: a ++ [cr, lf, cr]) (tail : List UInt8) :
    strstr emptyLine (a ++ (emptyLine ++ tail)) = some (true, a.length + 4) := by
  induction a with
  | nil => exact if_pos (List.prefix_append emptyLine tail)
  | cons c a ih =>
    have hsplit : c :: a ++ (emptyLine ++ tail) = c :: (a ++ [cr, lf, cr]) ++ lf :: tail := by
      rw [List.cons_append, List.cons_append, List.append_assoc]
      rfl
    have hnot : ¬ emptyLine <+: c :: a ++ (emptyLine ++ tail) := by
      intro h
      rw [hsplit] at h
      exact hno (infix_of_prefix_append h (by simp))
    have hc : c ≠ 0 := fun hc => h0 (hc ▸ List.mem_cons_self)
    rw [List.cons_append] at hnot ⊢
    rw [strstr, if_neg hnot, if_neg hc,
      ih (fun h => h0 (List.mem_cons_of_mem c h)) (fun h => hno (List.infix_cons h))]
    rfl

/-! ## The loop -/

theorem connLoop_dirty (results : List Received) :
    (connLoop behind buf delivered false results).2 = false := by
  induction results generalizing buf delivered with
  | nil => rfl
  | cons r results ih =>
    cases r with
    | closed => rfl
    | failed errno => rfl
    | piece bytes =>
      rw [connLoop]
      simp only [Bool.false_and]
      split
      · rfl
      · split
        · rfl
        · exact ih

/-- A round that finds the match responds, with what it has examined of the buffer. -/
theorem connLoop_found {bytes : List UInt8} {n : Nat} (results : List Received)
    (h : strstr emptyLine (bytes ++ buf.drop bytes.length ++ behind) = some (true, n)) :
    connLoop behind buf delivered true (.piece bytes :: results) =
      (.responds results, decide (n ≤ max delivered bytes.length)) := by
  rw [connLoop, h]
  rfl

theorem connLoop_not_found {bytes : List UInt8} {n : Nat} (results : List Received)
    (h : strstr emptyLine (bytes ++ buf.drop bytes.length ++ behind) = some (false, n))
    (hn : n ≤ max delivered bytes.length) :
    connLoop behind buf delivered true (.piece bytes :: results) =
      connLoop behind (bytes ++ buf.drop bytes.length) (max delivered bytes.length) true
        results := by
  rw [connLoop, h]
  show connLoop behind _ _ (decide (n ≤ max delivered bytes.length)) results = _
  rw [decide_eq_true hn]

/-- Without a match and a NUL in the buffer the round examines what lies behind it. -/
theorem connLoop_no_nul (behind buf : List UInt8) (delivered : Nat) (bytes : List UInt8)
    (results : List Received)
    (h0 : 0 ∉ bytes ++ buf.drop bytes.length)
    (hno : ¬ emptyLine <:+: bytes ++ buf.drop bytes.length)
    (hlen : max delivered bytes.length ≤ (bytes ++ buf.drop bytes.length).length) :
    (connLoop behind buf delivered true (.piece bytes :: results)).2 = false := by
  rw [connLoop]
  cases hstr : strstr emptyLine (bytes ++ buf.drop bytes.length ++ behind) with
  | none => rfl
  | some r =>
    obtain ⟨found, n⟩ := r
    have hn := strstr_of_no_nul h0 hno hstr
    have hdirty : (true && decide (n ≤ max delivered bytes.length)) = false :=
      decide_eq_false (by omega)
    show (if found then _ else _ : Exit × Bool).2 = false
    rw [hdirty]
    cases found with
    | true => rfl
    | false => exact connLoop_dirty results

theorem drop_full {bytes : List UInt8} (hbuf : buf.length = bufSize) (h : bytes.length = bufSize) :
    bytes ++ buf.drop bytes.length = bytes := by
  rw [List.drop_of_length_le (hbuf.trans h.symm).le, List.append_nil]

/-- The full pieces are passed if each has a NUL, and the last one of them is then in the buffer. -/
theorem connLoop_fulls_iff (behind : List UInt8) {fulls : List (List UInt8)} (last : List UInt8)
    (hbuf : buf.length = bufSize) (hdelivered : delivered ≤ bufSize)
    (hfulls : ∀ p ∈ fulls, p.length = bufSize) (hno : ∀ p ∈ fulls, ¬ emptyLine <:+: p) :
    connLoop behind buf delivered true ((fulls ++ [last]).map .piece) = (.responds [], true) ↔
      (∀ p ∈ fulls, 0 ∈ p) ∧
        connLoop behind (fulls.getLast?.getD buf) (if fulls = [] then delivered else bufSize) true
          [.piece last] = (.responds [], true) := by
  induction fulls generalizing buf delivered with
  | nil => exact (and_iff_right fun p hp => absurd hp List.not_mem_nil).symm
  | cons p fulls ih =>
    have hp := hfulls p List.mem_cons_self
    have hnop := hno p List.mem_cons_self
    have hfull := drop_full hbuf hp
    have hmax : max delivered p.length = bufSize := by rw [hp]; exact Nat.max_eq_right hdelivered
    rw [List.cons_append, List.map_cons]
    by_cases h0 : 0 ∈ p
    · obtain ⟨n, hn, hstr⟩ := strstr_of_nul h0 hnop behind
      rw [← hfull] at hstr
      rw [connLoop_not_found _ hstr (hn.trans (Nat.le_max_right _ _)), hfull, hmax,
        ih hp (Nat.le_refl _) (fun q hq => hfulls q (List.mem_cons_of_mem p hq))
          fun q hq => hno q (List.mem_cons_of_mem p hq),
        List.forall_mem_cons, and_iff_right h0, List.getLast?_cons, Option.getD_some, ite_self,
        if_neg (List.cons_ne_nil p fulls)]
    · refine iff_of_false (fun h => ?_) fun h => h0 (h.1 p List.mem_cons_self)
      have hdirty := connLoop_no_nul behind buf delivered p
        ((fulls ++ [last]).map .piece) (hfull.symm ▸ h0) (hfull.symm ▸ hnop) (by
          rw [hfull, hmax, hp])
      rw [h] at hdirty
      cases hdirty

/-- A last piece with the whole empty line. -/
theorem connLoop_last_iff (hno : ¬ emptyLine <:+: a ++ [cr, lf, cr]) :
    connLoop behind buf delivered true [.piece (a ++ emptyLine)] = (.responds [], true) ↔
      0 ∉ a := by
  have hmem : ∀ rest, a ++ emptyLine ++ rest ++ behind = a ++ (emptyLine ++ (rest ++ behind)) :=
    fun rest => by rw [List.append_assoc, List.append_assoc]
  constructor
  · intro h h0
    have hnoa : ¬ emptyLine <:+: a := fun hinf =>
      hno (hinf.trans (List.prefix_append a _).isInfix)
    obtain ⟨n, hn, hstr⟩ := strstr_of_nul h0 hnoa
      (emptyLine ++ (buf.drop (a ++ emptyLine).length ++ behind))
    rw [← hmem] at hstr
    have hle : n ≤ max delivered (a ++ emptyLine).length := by
      rw [List.length_append]
      omega
    rw [connLoop_not_found [] hstr hle] at h
    cases h
  · intro h0
    have hstr := strstr_found h0 hno (buf.drop (a ++ emptyLine).length ++ behind)
    rw [← hmem] at hstr
    rw [connLoop_found [] hstr]
    have hle : a.length + 4 ≤ max delivered (a ++ emptyLine).length := by
      rw [List.length_append]
      exact Nat.le_max_right _ _
    rw [decide_eq_true hle]

/-- The buffer has an empty line exactly if the last piece and what it leaves of the one before make
one. -/
theorem infix_overwritten_iff {prev last : List UInt8}
    (hlast : last = emptyLine.drop (4 - last.length)) (hpos : 0 < last.length)
    (hlt : last.length < 4) (hno : ¬ emptyLine <:+: prev) :
    emptyLine <:+: last ++ prev.drop last.length ↔ Completes prev last := by
  have hdrop : ∀ n, ¬ emptyLine <:+: prev.drop n := fun n h =>
    hno (h.trans (List.drop_suffix n prev).isInfix)
  have hlf : ∀ t : List UInt8, ¬ emptyLine <+: lf :: t := fun t h =>
    absurd (List.cons_prefix_cons.mp h).1 (by decide)
  have hcr : ∀ n, emptyLine <+: cr :: lf :: prev.drop n ↔ (prev.drop n).take 2 = [cr, lf] := by
    intro n
    show [cr, lf, cr, lf] <+: cr :: lf :: prev.drop n ↔ _
    rw [List.cons_prefix_cons, List.cons_prefix_cons, and_iff_right rfl, and_iff_right rfl,
      List.prefix_iff_eq_take]
    exact eq_comm
  obtain h | h | h : last.length = 1 ∨ last.length = 2 ∨ last.length = 3 := by omega
  · rw [h] at hlast
    obtain rfl : last = [lf] := hlast
    show emptyLine <:+: lf :: prev.drop 1 ↔ _
    rw [List.infix_cons_iff]
    refine iff_of_false (not_or.mpr ⟨hlf _, hdrop 1⟩) ?_
    rintro (⟨h2, _⟩ | ⟨h3, _⟩)
    · exact absurd h2 (by decide)
    · exact absurd h3 (by decide)
  · rw [h] at hlast
    obtain rfl : last = [cr, lf] := hlast
    show emptyLine <:+: cr :: lf :: prev.drop 2 ↔ _
    rw [List.infix_cons_iff, List.infix_cons_iff, hcr, Completes]
    constructor
    · rintro (htake | hpre | hinf)
      · exact Or.inl ⟨rfl, htake⟩
      · exact absurd hpre (hlf _)
      · exact absurd hinf (hdrop 2)
    · rintro (⟨_, htake⟩ | ⟨h3, _⟩)
      · exact Or.inl htake
      · exact absurd h3 (by decide)
  · rw [h] at hlast
    obtain rfl : last = [lf, cr, lf] := hlast
    show emptyLine <:+: lf :: cr :: lf :: prev.drop 3 ↔ _
    rw [List.infix_cons_iff, List.infix_cons_iff, List.infix_cons_iff, hcr, Completes]
    constructor
    · rintro (hpre | htake | hpre | hinf)
      · exact absurd hpre (hlf _)
      · exact Or.inr ⟨rfl, htake⟩
      · exact absurd hpre (hlf _)
      · exact absurd hinf (hdrop 3)
    · rintro (⟨h2, _⟩ | ⟨_, htake⟩)
      · exact absurd h2 (by decide)
      · exact Or.inr (Or.inl htake)

/-- An empty line that the piece before completes is found. -/
theorem connLoop_completes {prev last : List UInt8}
    (hlast : last = emptyLine.drop (4 - last.length)) (h : Completes prev last) :
    connLoop behind prev bufSize true [.piece last] = (.responds [], true) := by
  rcases h with ⟨h, htake⟩ | ⟨h, htake⟩
  · rw [h] at hlast
    obtain rfl : last = [cr, lf] := hlast
    have hsplit := List.take_append_drop 2 (prev.drop 2)
    rw [htake] at hsplit
    have hstr : strstr emptyLine ([cr, lf] ++ prev.drop 2 ++ behind) = some (true, 4) := by
      rw [← hsplit]
      exact strstr_found (a := []) List.not_mem_nil (by decide) ((prev.drop 2).drop 2 ++ behind)
    exact connLoop_found [] hstr
  · rw [h] at hlast
    obtain rfl : last = [lf, cr, lf] := hlast
    have hsplit := List.take_append_drop 2 (prev.drop 3)
    rw [htake] at hsplit
    have hstr : strstr emptyLine ([lf, cr, lf] ++ prev.drop 3 ++ behind) = some (true, 5) := by
      rw [← hsplit]
      exact strstr_found (a := [lf]) (by decide) (by decide) ((prev.drop 3).drop 2 ++ behind)
    exact connLoop_found [] hstr

/-- Without an empty line in the buffer the last piece does not end the loop, or what lies behind
the buffer was examined. -/
theorem connLoop_last_missed {prev last : List UInt8} (hprev : prev.length = bufSize)
    (hle : last.length ≤ bufSize) (hno : ¬ emptyLine <:+: last ++ prev.drop last.length) :
    connLoop behind prev bufSize true [.piece last] ≠ (.responds [], true) := by
  intro h
  have hmax : max bufSize last.length = bufSize := Nat.max_eq_left hle
  have hlen : (last ++ prev.drop last.length).length = bufSize := by
    rw [List.length_append, List.length_drop]
    omega
  by_cases h0 : 0 ∈ last ++ prev.drop last.length
  · obtain ⟨n, hn, hstr⟩ := strstr_of_nul h0 hno behind
    rw [connLoop_not_found [] hstr (by omega)] at h
    cases h
  · have hdirty := connLoop_no_nul behind prev bufSize last [] h0 hno (by omega)
    rw [h] at hdirty
    cases hdirty

theorem Request.infix_full (r : Request) {p : List UInt8} (hp : p ∈ r.fulls) :
    ¬ emptyLine <:+: p := by
  rintro ⟨x, y, hxy⟩
  obtain ⟨before, after, hsplit⟩ := List.append_of_mem hp
  have hnil := r.only (before.flatten ++ x) (y ++ (after.flatten ++ r.last)) (by
    rw [hsplit, List.flatten_append, List.flatten_cons, ← hxy]
    simp only [List.append_assoc])
  have hlast : r.last = [] := (List.append_eq_nil_iff.mp (List.append_eq_nil_iff.mp hnil).2).2
  exact absurd r.last_length.1 (by rw [hlast]; exact Nat.lt_irrefl 0)

/-- The last piece, where it has the whole empty line. -/
theorem Request.last_long (r : Request) (h : 4 ≤ r.last.length) :
    ∃ a, r.last = a ++ emptyLine ∧ ¬ emptyLine <:+: a ++ [cr, lf, cr] := by
  obtain ⟨a, ha⟩ := List.suffix_of_suffix_length_le r.ends (List.suffix_append _ r.last) h
  refine ⟨a, ha.symm, ?_⟩
  rintro ⟨x, y, hxy⟩
  have hnil := r.only (r.fulls.flatten ++ x) (y ++ [lf]) (by
    rw [← ha]
    show _ = r.fulls.flatten ++ (a ++ ([cr, lf, cr] ++ [lf]))
    rw [← List.append_assoc a, ← hxy]
    simp only [List.append_assoc])
  exact absurd (List.append_eq_nil_iff.mp hnil).2 (List.cons_ne_nil lf [])

theorem Request.last_short (r : Request) (h : r.last.length < 4) :
    r.last = emptyLine.drop (4 - r.last.length) ∧ ∃ prev, r.fulls.getLast? = some prev := by
  constructor
  · have hsuffix : r.last <:+ emptyLine :=
      List.suffix_of_suffix_length_le (List.suffix_append _ r.last) r.ends (Nat.le_of_lt h)
    exact List.suffix_iff_eq_drop.mp hsuffix
  · cases hlast : r.fulls.getLast? with
    | some prev => exact ⟨prev, rfl⟩
    | none =>
      have hlen := r.ends.length_le
      rw [List.getLast?_eq_none_iff.mp hlast] at hlen
      exact absurd hlen (Nat.not_le.mpr h)

/-- The handler reads exactly the request, and responds, if and only if the request is terminated
for `strstr`. -/
theorem request_answered_iff (s : Stack) (r : Request) : Answers s r ↔ Terminated r := by
  have hfulls := connLoop_fulls_iff s.behind r.last s.buf_length (Nat.zero_le _)
    r.fulls_length fun p hp => r.infix_full hp
  refine hfulls.trans (and_congr_right fun _ => ?_)
  by_cases hlong : 4 ≤ r.last.length
  · obtain ⟨a, ha, hno⟩ := r.last_long hlong
    have hcompletes : ¬ ∃ prev, r.fulls.getLast? = some prev ∧ Completes prev r.last := by
      rintro ⟨prev, _, ⟨h2, _⟩ | ⟨h3, _⟩⟩
      · omega
      · omega
    have hmem : 0 ∉ r.last ↔ 0 ∉ a := by
      rw [ha, List.mem_append, not_or]
      exact and_iff_left (by decide)
    rw [or_iff_left hcompletes, and_iff_right hlong, hmem, ha]
    exact connLoop_last_iff hno
  · obtain ⟨hdrop, prev, hprev⟩ := r.last_short (Nat.not_le.mp hlong)
    have hmem : prev ∈ r.fulls := List.mem_of_getLast? hprev
    have hne : r.fulls ≠ [] := List.ne_nil_of_mem hmem
    have hcompletes : (∃ prev, r.fulls.getLast? = some prev ∧ Completes prev r.last) ↔
        Completes prev r.last := by
      rw [hprev]
      exact ⟨fun ⟨_, h, hc⟩ => Option.some.inj h ▸ hc, fun hc => ⟨prev, rfl, hc⟩⟩
    rw [or_iff_right fun h => hlong h.1, hcompletes, hprev, Option.getD_some, if_neg hne]
    constructor
    · intro h
      by_contra hnot
      have hinf := mt (infix_overwritten_iff hdrop r.last_length.1 (Nat.not_le.mp hlong)
        (r.infix_full hmem)).mp hnot
      exact connLoop_last_missed (r.fulls_length prev hmem) r.last_length.2 hinf h
    · exact connLoop_completes hdrop

/-- A request of 101 bytes without a NUL is not answered. -/
theorem long_request_not_answered : ¬ ∀ (s : Stack) (r : Request), Answers s r := by
  intro h
  let full : List UInt8 := List.replicate 97 0x41 ++ [cr, lf, cr]
  have hpositions : ∀ n < 98, emptyLine <+: (full ++ [lf]).drop n → n = 97 := by decide
  let r : Request :=
    { fulls := [full]
      last := [lf]
      fulls_length := by decide
      last_length := by decide
      ends := by decide
      only := by
        intro before after hsplit
        have hlen := congrArg List.length hsplit
        have hbytes : ([full].flatten ++ [lf]).length = 101 := rfl
        have hneedle : emptyLine.length = 4 := rfl
        rw [List.length_append, List.length_append, hbytes, hneedle] at hlen
        have hdrop : emptyLine <+: (full ++ [lf]).drop before.length := by
          have hsplit' : before ++ (emptyLine ++ after) = full ++ [lf] := by
            rw [← List.append_assoc]
            exact hsplit
          rw [← hsplit', List.drop_left]
          exact List.prefix_append emptyLine after
        have hn := hpositions before.length (by omega) hdrop
        exact List.length_eq_zero_iff.mp (by omega) }
  let s : Stack := ⟨List.replicate 100 0, [], rfl⟩
  have hnul := ((connLoop_fulls_iff s.behind r.last s.buf_length (Nat.zero_le _)
    r.fulls_length fun p hp => r.infix_full hp).mp (h s r)).1 full List.mem_cons_self
  exact absurd hnul (by decide)

end HttpServers
end ZephyrSamples
