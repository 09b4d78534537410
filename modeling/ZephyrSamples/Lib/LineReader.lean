import Mathlib.Data.List.Count
import ZephyrSamples.Lib.Segments

/-!
# Reading lines in chunks

A reader takes a stream in chunks of any size up to the room it has left, and looks for the
delimiter at the end of each chunk only.  `Reads` relates a stream to what one way of cutting it
gives.  All the ways give the lines that fit, and nothing else, exactly when every delimiter with
something behind it falls on the last place of the buffer and the lines that do not fit do no harm:
none are allowed if the full buffer is flushed, and none before a line that fits if it is not. -/

namespace ZephyrSamples
namespace LineReader

variable {α β ε ε' : Type*}

/-- `out` comes of a way to read the stream: each read takes a chunk that fits; there is no other
read once the stream is at its end or the room is used up. -/
inductive Reads (room : β → Nat) (feed : β → List α → β × Option ε) :
    β → List α → List ε → Prop where
  | done (b : β) : Reads room feed b [] []
  | full {b : β} (stream : List α) (h : room b = 0) : Reads room feed b stream []
  | read {b : β} {chunk rest : List α} {out : List ε} (hne : chunk ≠ [])
      (hroom : chunk.length ≤ room b) (hrest : Reads room feed (feed b chunk).1 rest out) :
      Reads room feed b (chunk ++ rest) ((feed b chunk).2.toList ++ out)

theorem Reads.map {room : β → Nat} {feed : β → List α → β × Option ε} {f : ε → ε'} {b : β}
    {stream : List α} {out : List ε} (h : Reads room feed b stream out) :
    Reads room (fun b c => ((feed b c).1, (feed b c).2.map f)) b stream (out.map f) := by
  induction h with
  | done b => exact .done b
  | full stream h => exact .full stream h
  | @read b chunk rest out hne hroom _ ih =>
    have hout : ((feed b chunk).2.toList ++ out).map f =
        ((feed b chunk).2.map f).toList ++ out.map f := by
      cases (feed b chunk).2 with
      | none => rfl
      | some e => rfl
    rw [hout]
    exact .read hne hroom ih

theorem Reads.exists_of_map {room : β → Nat} {feed : β → List α → β × Option ε} {f : ε → ε'}
    {b : β} {stream : List α} {out' : List ε'}
    (h : Reads room (fun b c => ((feed b c).1, (feed b c).2.map f)) b stream out') :
    ∃ out, Reads room feed b stream out ∧ out' = out.map f := by
  induction h with
  | done b => exact ⟨[], .done b, rfl⟩
  | full stream h => exact ⟨[], .full stream h, rfl⟩
  | @read b chunk rest out hne hroom _ ih =>
    obtain ⟨out, hreads, rfl⟩ := ih
    refine ⟨_, .read hne hroom hreads, ?_⟩
    cases (feed b chunk).2 with
    | none => rfl
    | some e => rfl

section

variable {d : α} {buf seg rest stream chunk : List α}

theorem getLast?_append_ne (hne : chunk ≠ []) (hd : chunk.getLast? ≠ some d) :
    (buf ++ chunk).getLast? ≠ some d := by
  rwa [List.getLast?_append_of_ne_nil buf hne]

theorem getLast?_ne_of_notMem (hd : d ∉ chunk) : chunk.getLast? ≠ some d :=
  fun h => hd (List.mem_of_getLast? h)

theorem chunk_cases (h : chunk ++ stream = seg ++ d :: rest) :
    (∃ mid, seg = chunk ++ mid ∧ stream = mid ++ d :: rest) ∨
    ∃ more, chunk = seg ++ d :: more ∧ rest = more ++ stream := by
  rcases List.append_eq_append_iff.mp h with ⟨mid, hseg, hstream⟩ | ⟨mid, hchunk, hmid⟩
  · exact .inl ⟨mid, hseg, hstream⟩
  · cases mid with
    | nil =>
      refine .inl ⟨[], ?_, hmid.symm⟩
      rw [hchunk, List.append_nil, List.append_nil]
    | cons x more =>
      obtain ⟨rfl, hrest⟩ := List.cons.inj hmid
      exact .inr ⟨more, hchunk, hrest⟩

end

variable [DecidableEq α] (d : α) (cap : Nat) (flush : Bool)

/-- Append the chunk; if it ends in the delimiter what is there is a line.  A buffer that is full
without one is flushed or left as it is. -/
def feedLine (buf chunk : List α) : List α × Option (List α) :=
  if (buf ++ chunk).getLast? = some d then ([], some (buf ++ chunk).dropLast)
  else if flush = true ∧ cap ≤ (buf ++ chunk).length then ([], none)
  else (buf ++ chunk, none)

/-- The lines some way of reading gives. -/
abbrev ReadsLines : List α → List α → List (List α) → Prop :=
  Reads (fun buf => cap - buf.length) (feedLine d cap flush)

variable {d cap flush} {buf seg rest stream chunk : List α} {out : List (List α)}

theorem feedLine_hit (buf chunk : List α) :
    feedLine d cap flush buf (chunk ++ [d]) = ([], some (buf ++ chunk)) := by
  have hassoc : buf ++ (chunk ++ [d]) = (buf ++ chunk) ++ [d] := (List.append_assoc ..).symm
  rw [feedLine, hassoc, List.getLast?_concat, if_pos rfl, List.dropLast_concat]

theorem feedLine_miss (hne : chunk ≠ []) (hd : chunk.getLast? ≠ some d)
    (hfull : ¬ (flush = true ∧ cap ≤ (buf ++ chunk).length)) :
    feedLine d cap flush buf chunk = (buf ++ chunk, none) := by
  rw [feedLine, if_neg (getLast?_append_ne hne hd), if_neg hfull]

theorem feedLine_flush (hne : chunk ≠ []) (hd : chunk.getLast? ≠ some d)
    (hfull : cap ≤ (buf ++ chunk).length) : feedLine d cap true buf chunk = ([], none) := by
  rw [feedLine, if_neg (getLast?_append_ne hne hd), if_pos ⟨rfl, hfull⟩]

/-! ## What every way of reading gives -/

/-- A line that fits is read whole if its delimiter is the last of the stream or of the buffer. -/
theorem ReadsLines.segment (h : ReadsLines d cap flush buf (seg ++ d :: rest) out) (hd : d ∉ seg)
    (hfits : (buf ++ seg).length < cap) (halone : rest = [] ∨ (buf ++ seg).length + 1 = cap) :
    ∃ out', out = (buf ++ seg) :: out' ∧ ReadsLines d cap flush [] rest out' := by
  generalize hstream : seg ++ d :: rest = stream at h
  induction h generalizing seg with
  | done b => exact absurd hstream.symm (List.ne_nil_of_mem (List.mem_append_cons_self)).symm
  | @full b stream hroom =>
    rw [List.length_append] at hfits
    omega
  | @read b chunk stream' out hne hroom hrest ih =>
    rw [List.length_append] at hfits halone
    rcases chunk_cases hstream.symm with ⟨mid, rfl, rfl⟩ | ⟨more, rfl, rfl⟩
    · rw [List.mem_append, not_or] at hd
      rw [List.length_append] at hfits halone
      have hmiss : feedLine d cap flush b chunk = (b ++ chunk, none) := by
        refine feedLine_miss hne (getLast?_ne_of_notMem hd.1) fun hfull => ?_
        rw [List.length_append] at hfull
        omega
      rw [hmiss] at hrest ih ⊢
      have hlen : (b ++ chunk ++ mid).length = b.length + (chunk.length + mid.length) := by
        rw [List.length_append, List.length_append]
        omega
      obtain ⟨out', hout, hreads⟩ := ih hd.2 (by rw [hlen]; exact hfits)
        (by rw [hlen]; exact halone) rfl
      refine ⟨out', ?_, hreads⟩
      rw [hout, List.append_assoc]
      rfl
    · rw [List.length_append, List.length_cons] at hroom
      obtain rfl : more = [] := by
        rcases halone with hnil | hlast
        · exact (List.append_eq_nil_iff.mp hnil).1
        · exact List.eq_nil_of_length_eq_zero (by omega)
      rw [feedLine_hit] at hrest ⊢
      exact ⟨out, rfl, hrest⟩

theorem ReadsLines.eq_nil_of_notMem (h : ReadsLines d cap flush buf stream out) (hd : d ∉ stream) :
    out = [] := by
  induction h with
  | done b => rfl
  | full stream hroom => rfl
  | @read b chunk stream' out hne hroom hrest ih =>
    rw [List.mem_append, not_or] at hd
    rw [ih hd.2, List.append_nil, feedLine,
      if_neg (getLast?_append_ne hne (getLast?_ne_of_notMem hd.1))]
    split
    · rfl
    · rfl

/-- A buffer that is never flushed ends full on a line that does not fit. -/
theorem ReadsLines.eq_nil_of_overlong (h : ReadsLines d cap false buf (seg ++ d :: rest) out)
    (hd : d ∉ seg) (hlong : cap ≤ (buf ++ seg).length) : out = [] := by
  generalize hstream : seg ++ d :: rest = stream at h
  induction h generalizing seg with
  | done b => rfl
  | full stream hroom => rfl
  | @read b chunk stream' out hne hroom hrest ih =>
    rw [List.length_append] at hlong
    rcases chunk_cases hstream.symm with ⟨mid, rfl, rfl⟩ | ⟨more, rfl, rfl⟩
    · rw [List.mem_append, not_or] at hd
      have hmiss : feedLine d cap false b chunk = (b ++ chunk, none) :=
        feedLine_miss hne (getLast?_ne_of_notMem hd.1) fun hfull => Bool.false_ne_true hfull.1
      rw [hmiss] at hrest ih ⊢
      rw [List.length_append] at hlong
      refine ih hd.2 ?_ rfl
      rw [List.length_append, List.length_append]
      omega
    · rw [List.length_append, List.length_cons] at hroom
      omega

theorem ReadsLines.length_le (h : ReadsLines d cap flush buf stream out) :
    out.length ≤ stream.count d := by
  induction h with
  | done b => exact Nat.zero_le _
  | full stream hroom => exact Nat.zero_le _
  | @read b chunk stream' out hne hroom hrest ih =>
    rw [List.length_append, List.count_append]
    have hone : (feedLine d cap flush b chunk).2.toList.length ≤ chunk.count d := by
      by_cases hlast : chunk.getLast? = some d
      · have hpos : 0 < chunk.count d := List.count_pos_iff.mpr (List.mem_of_getLast? hlast)
        have hle : (feedLine d cap flush b chunk).2.toList.length ≤ 1 := by
          cases (feedLine d cap flush b chunk).2 with
          | none => exact Nat.zero_le _
          | some _ => exact Nat.le_refl 1
        omega
      · rw [feedLine, if_neg (getLast?_append_ne hne hlast)]
        split
        · exact Nat.zero_le _
        · exact Nat.zero_le _
    omega

theorem count_eq_length_segments (stream : List α) :
    stream.count d = (segments d stream).length := by
  induction stream using segments_induction d with
  | htail tail hd => rw [segments_of_notMem hd, List.count_eq_zero_of_not_mem hd, List.length_nil]
  | hsegment seg rest hd ih =>
    rw [segments_append_cons hd, List.count_append, List.count_eq_zero_of_not_mem hd,
      List.count_cons_self, List.length_cons, ih]
    omega

/-! ## Ways of reading -/

theorem reads_chunk {next : List α} {line : Option (List α)}
    (hfeed : feedLine d cap flush buf chunk = (next, line)) (hne : chunk ≠ [])
    (hroom : buf.length + chunk.length ≤ cap) (h : ReadsLines d cap flush next rest out) :
    ReadsLines d cap flush buf (chunk ++ rest) (line.toList ++ out) := by
  have hnext : next = (feedLine d cap flush buf chunk).1 := by rw [hfeed]
  have hline : line = (feedLine d cap flush buf chunk).2 := by rw [hfeed]
  subst hnext hline
  exact .read hne (by omega) h

theorem reads_bytes (hd : d ∉ seg) (hfits : (buf ++ seg).length < cap)
    (h : ReadsLines d cap flush (buf ++ seg) rest out) :
    ReadsLines d cap flush buf (seg ++ rest) out := by
  induction seg generalizing buf with
  | nil => rwa [List.append_nil] at h
  | cons a seg ih =>
    rw [List.mem_cons, not_or] at hd
    have hassoc : buf ++ a :: seg = (buf ++ [a]) ++ seg := by simp
    rw [hassoc] at hfits h
    have hlen := hfits
    rw [List.length_append] at hlen
    have hmiss : feedLine d cap flush buf [a] = (buf ++ [a], none) := by
      refine feedLine_miss (List.cons_ne_nil a []) ?_ fun hfull => ?_
      · exact getLast?_ne_of_notMem fun hmem => hd.1 (List.mem_singleton.mp hmem)
      · omega
    have hroom : buf.length + [a].length ≤ cap := by
      rw [List.length_append] at hlen
      omega
    exact reads_chunk hmiss (List.cons_ne_nil a []) hroom (ih hd.2 hfits h)

theorem reads_delimiter (hroom : buf.length < cap) (h : ReadsLines d cap flush [] rest out) :
    ReadsLines d cap flush buf (d :: rest) (buf :: out) := by
  have hhit : feedLine d cap flush buf [d] = ([], some (buf ++ [])) := feedLine_hit buf []
  rw [List.append_nil] at hhit
  have hlen : buf.length + [d].length ≤ cap := by
    rw [List.length_singleton]
    omega
  exact reads_chunk hhit (List.cons_ne_nil d []) hlen h

theorem reads_segment (hd : d ∉ seg) (hfits : (buf ++ seg).length < cap)
    (h : ReadsLines d cap flush [] rest out) :
    ReadsLines d cap flush buf (seg ++ d :: rest) ((buf ++ seg) :: out) :=
  reads_bytes hd hfits (reads_delimiter hfits h)

/-- Where a full buffer is flushed, byte by byte every delimiter ends some line. -/
theorem reads_some_line (hcap : 0 < cap) (hd : d ∉ seg) (hroom : buf.length < cap)
    (h : ReadsLines d cap true [] rest out) :
    ∃ line, ReadsLines d cap true buf (seg ++ d :: rest) (line :: out) := by
  induction seg generalizing buf with
  | nil => exact ⟨buf, reads_delimiter hroom h⟩
  | cons a seg ih =>
    rw [List.mem_cons, not_or] at hd
    have hlast : [a].getLast? ≠ some d :=
      getLast?_ne_of_notMem fun hmem => hd.1 (List.mem_singleton.mp hmem)
    have hlen : buf.length + [a].length ≤ cap := by
      rw [List.length_singleton]
      omega
    by_cases hfull : cap ≤ (buf ++ [a]).length
    · obtain ⟨line, hline⟩ := @ih [] hd.2 hcap
      have hflush := feedLine_flush (List.cons_ne_nil a []) hlast hfull
      exact ⟨line, reads_chunk hflush (List.cons_ne_nil a []) hlen hline⟩
    · obtain ⟨line, hline⟩ := @ih (buf ++ [a]) hd.2 (by omega)
      have hmiss : feedLine d cap true buf [a] = (buf ++ [a], none) :=
        feedLine_miss (List.cons_ne_nil a []) hlast fun hf => hfull hf.2
      exact ⟨line, reads_chunk hmiss (List.cons_ne_nil a []) hlen hline⟩

theorem exists_reads (d : α) (cap : Nat) (flush : Bool) (buf stream : List α) :
    ∃ out, ReadsLines d cap flush buf stream out := by
  induction stream generalizing buf with
  | nil => exact ⟨[], .done buf⟩
  | cons a stream ih =>
    by_cases hroom : cap - buf.length = 0
    · exact ⟨[], .full _ hroom⟩
    · have hlen : buf.length + [a].length ≤ cap := by
        rw [List.length_singleton]
        omega
      obtain ⟨out, hout⟩ := ih (feedLine d cap flush buf [a]).1
      exact ⟨_, reads_chunk rfl (List.cons_ne_nil a []) hlen hout⟩

/-! ## When all the ways agree -/

/-- The lines of the stream that fit into the buffer. -/
def fitting (d : α) (cap : Nat) (stream : List α) : List (List α) :=
  (segments d stream).filter fun seg => decide (seg.length < cap)

theorem fitting_of_notMem (hd : d ∉ stream) : fitting d cap stream = [] := by
  rw [fitting, segments_of_notMem hd, List.filter_nil]

theorem fitting_short (hd : d ∉ seg) (h : seg.length < cap) (rest : List α) :
    fitting d cap (seg ++ d :: rest) = seg :: fitting d cap rest := by
  simp only [fitting, segments_append_cons hd, List.filter_cons, h, decide_true, if_true]

theorem fitting_long (hd : d ∉ seg) (h : ¬ seg.length < cap) (rest : List α) :
    fitting d cap (seg ++ d :: rest) = fitting d cap rest := by
  simp only [fitting, segments_append_cons hd, List.filter_cons, h, decide_false,
    Bool.false_eq_true, if_false]

theorem segments_dropLast (hd : d ∉ seg) (hrest : rest ≠ []) :
    segments d (seg ++ d :: rest).dropLast = seg :: segments d rest.dropLast := by
  rw [List.dropLast_append_of_ne_nil (List.cons_ne_nil d rest), List.dropLast_cons_of_ne_nil hrest,
    segments_append_cons hd]

theorem segments_dropLast_last (hd : d ∉ seg) : segments d (seg ++ [d]).dropLast = [] := by
  rw [List.dropLast_concat, segments_of_notMem hd]

theorem segments_dropLast_of_notMem (hd : d ∉ stream) : segments d stream.dropLast = [] :=
  segments_of_notMem fun hmem => hd (List.mem_of_mem_dropLast hmem)

theorem mem_segments_of_dropLast (h : seg ∈ segments d stream.dropLast) :
    seg ∈ segments d stream := by
  induction stream using segments_induction d with
  | htail tail hd =>
    rw [segments_dropLast_of_notMem hd] at h
    cases h
  | hsegment seg' rest hd ih =>
    rcases eq_or_ne rest [] with rfl | hne
    · rw [segments_dropLast_last hd] at h
      cases h
    · rw [segments_dropLast hd hne, List.mem_cons] at h
      rw [segments_append_cons hd, List.mem_cons]
      exact h.imp_right ih

/-- If every delimiter with something behind it is the last of the buffer, and no line that does not
fit comes before one that does where the buffer stays full, the lines that fit are read. -/
theorem ReadsLines.eq_fitting (h : ReadsLines d cap flush [] stream out)
    (halone : ∀ seg ∈ segments d stream.dropLast, cap ≤ seg.length + 1)
    (hlong : (segments d stream).Pairwise fun a b => cap ≤ a.length → cap ≤ b.length)
    (hflush : flush = true → ∀ seg ∈ segments d stream, seg.length < cap) :
    out = fitting d cap stream := by
  induction stream using segments_induction d generalizing out with
  | htail tail hd => rw [h.eq_nil_of_notMem hd, fitting_of_notMem hd]
  | hsegment seg rest hd ih =>
    rw [segments_append_cons hd, List.pairwise_cons] at hlong
    rw [segments_append_cons hd] at hflush
    by_cases hshort : seg.length < cap
    · have hlast : rest = [] ∨ ([] ++ seg).length + 1 = cap := by
        rcases eq_or_ne rest [] with hnil | hne
        · exact .inl hnil
        · have hmem : seg ∈ segments d (seg ++ d :: rest).dropLast := by
            rw [segments_dropLast hd hne]
            exact List.mem_cons_self
          have := halone seg hmem
          rw [List.nil_append]
          omega
      have halone' : ∀ seg' ∈ segments d rest.dropLast, cap ≤ seg'.length + 1 := by
        intro seg' hmem
        rcases eq_or_ne rest [] with rfl | hne
        · cases hmem
        · refine halone seg' ?_
          rw [segments_dropLast hd hne]
          exact List.mem_cons_of_mem seg hmem
      obtain ⟨out', hout, hreads⟩ := h.segment hd hshort hlast
      rw [hout, fitting_short hd hshort, ih hreads halone' hlong.2 fun hf seg' hmem =>
        hflush hf seg' (List.mem_cons_of_mem seg hmem)]
      rfl
    · have hkeep : flush = false := by
        cases hf : flush with
        | false => rfl
        | true => exact absurd (hflush hf seg List.mem_cons_self) hshort
      subst hkeep
      have hnone : fitting d cap rest = [] := by
        rw [fitting, List.filter_eq_nil_iff]
        intro seg' hmem hfits
        have := hlong.1 seg' hmem (by omega)
        have := of_decide_eq_true hfits
        omega
      rw [h.eq_nil_of_overlong hd (by rw [List.nil_append]; omega), fitting_long hd hshort, hnone]

/-! ### A buffer that is flushed when it is full -/

/-- One way to read gives a line at every delimiter. -/
theorem exists_reads_all (hcap : 0 < cap) (stream : List α) :
    ∃ out, ReadsLines d cap true [] stream out ∧ out.length = (segments d stream).length := by
  induction stream using segments_induction d with
  | htail tail hd =>
    obtain ⟨out, hout⟩ := exists_reads d cap true [] tail
    refine ⟨out, hout, ?_⟩
    rw [hout.eq_nil_of_notMem hd, segments_of_notMem hd]
  | hsegment seg rest hd ih =>
    obtain ⟨out, hout, hlen⟩ := ih
    have hsome : ∃ line, ReadsLines d cap true [] (seg ++ d :: rest) (line :: out) :=
      reads_some_line hcap hd hcap hout
    obtain ⟨line, hline⟩ := hsome
    refine ⟨line :: out, hline, ?_⟩
    rw [segments_append_cons hd, List.length_cons, List.length_cons, hlen]

theorem reads_segments (hshort : ∀ seg ∈ segments d stream, seg.length < cap) :
    ReadsLines d cap flush [] stream (segments d stream) := by
  induction stream using segments_induction d with
  | htail tail hd =>
    obtain ⟨out, hout⟩ := exists_reads d cap flush [] tail
    rw [segments_of_notMem hd]
    rwa [hout.eq_nil_of_notMem hd] at hout
  | hsegment seg rest hd ih =>
    rw [segments_append_cons hd] at hshort ⊢
    exact reads_segment hd (hshort seg List.mem_cons_self)
      (ih fun seg' hmem => hshort seg' (List.mem_cons_of_mem seg hmem))

theorem reads_past (flush : Bool) (hd : d ∉ seg) (hroom : seg.length + 1 < cap) (b : α)
    (rest : List α) :
    ∃ out, ReadsLines d cap flush (feedLine d cap flush seg [d, b]).1 rest out ∧
      ReadsLines d cap flush [] (seg ++ d :: b :: rest)
        ((feedLine d cap flush seg [d, b]).2.toList ++ out) := by
  obtain ⟨out, hout⟩ := exists_reads d cap flush (feedLine d cap flush seg [d, b]).1 rest
  have hlen : seg.length + [d, b].length ≤ cap := by
    simp only [List.length_cons, List.length_nil]
    omega
  have hfits : ([] ++ seg).length < cap := by
    rw [List.nil_append]
    omega
  exact ⟨out, hout, reads_bytes hd hfits (reads_chunk rfl (List.cons_ne_nil d [b]) hlen hout)⟩

/-- The chunk shows at most the second of its two bytes to be a delimiter. -/
theorem feedLine_past_le (buf : List α) (b : α) :
    (feedLine d cap flush buf [d, b]).2.toList.length ≤ [b].count d := by
  by_cases hb : b = d
  · subst hb
    rw [List.count_singleton_self]
    cases (feedLine b cap flush buf [b, b]).2 with
    | none => exact Nat.zero_le 1
    | some _ => exact Nat.le_refl 1
  · have hlast : [d, b].getLast? ≠ some d := by
      rw [List.getLast?_cons_cons, List.getLast?_singleton]
      exact fun h => hb (Option.some.inj h)
    rw [feedLine, if_neg (getLast?_append_ne (List.cons_ne_nil d [b]) hlast)]
    split
    · exact Nat.zero_le _
    · exact Nat.zero_le _

theorem exists_reads_past_le (flush : Bool) (hd : d ∉ seg) (hroom : seg.length + 1 < cap) (b : α)
    (rest : List α) :
    ∃ out, ReadsLines d cap flush [] (seg ++ d :: b :: rest) out ∧
      out.length ≤ (b :: rest).count d := by
  obtain ⟨out, hafter, hout⟩ := reads_past flush hd hroom b rest
  refine ⟨_, hout, ?_⟩
  have hchunk : (feedLine d cap flush seg [d, b]).2.toList.length ≤ [b].count d :=
    feedLine_past_le seg b
  have hrest := hafter.length_le
  have hcount : (b :: rest).count d = [b].count d + rest.count d := by
    rw [← List.count_append, List.singleton_append]
  rw [List.length_append]
  omega

/-- If a delimiter with something behind it comes before the last place of the buffer, some way to
read gives fewer lines than there are. -/
theorem exists_reads_fewer (flush : Bool) (hshort : ∀ seg ∈ segments d stream, seg.length < cap)
    (hpast : ∃ seg ∈ segments d stream.dropLast, seg.length + 1 < cap) :
    ∃ out, ReadsLines d cap flush [] stream out ∧ out.length < (segments d stream).length := by
  induction stream using segments_induction d with
  | htail tail hd =>
    obtain ⟨seg, hmem, -⟩ := hpast
    rw [segments_dropLast_of_notMem hd] at hmem
    cases hmem
  | hsegment seg rest hd ih =>
    obtain ⟨seg', hmem, hroom⟩ := hpast
    rw [segments_append_cons hd] at hshort ⊢
    cases rest with
    | nil =>
      rw [segments_dropLast_last hd] at hmem
      cases hmem
    | cons b rest =>
      rw [segments_dropLast hd (List.cons_ne_nil b rest), List.mem_cons] at hmem
      rcases hmem with rfl | hmem
      · obtain ⟨out, hout, hlen⟩ :=
          exists_reads_past_le flush hd hroom b rest
        rw [count_eq_length_segments] at hlen
        refine ⟨out, hout, ?_⟩
        rw [List.length_cons]
        omega
      · obtain ⟨out, hout, hlen⟩ := ih
          (fun seg'' h => hshort seg'' (List.mem_cons_of_mem seg h)) ⟨seg', hmem, hroom⟩
        refine ⟨_, reads_segment hd (hshort seg List.mem_cons_self) hout, ?_⟩
        rw [List.length_cons, List.length_cons]
        omega

theorem fitting_eq_segments (hshort : ∀ seg ∈ segments d stream, seg.length < cap) :
    fitting d cap stream = segments d stream := by
  rw [fitting, List.filter_eq_self]
  exact fun seg hmem => decide_eq_true (hshort seg hmem)

theorem fits_of_length_fitting (h : (fitting d cap stream).length = (segments d stream).length) :
    ∀ seg ∈ segments d stream, seg.length < cap := by
  have hself := List.filter_sublist.eq_of_length h
  intro seg hmem
  rw [← hself] at hmem
  exact of_decide_eq_true (List.mem_filter.mp hmem).2

variable (d) in
/-- With a flushed buffer: all lines must fit, and `f` read of them what `g` says of them. -/
theorem flush_iff (hcap : 0 < cap) (f g : List α → ε) (stream : List α) :
    (∀ out, ReadsLines d cap true [] stream out → out.map f = (fitting d cap stream).map g) ↔
      (∀ seg ∈ segments d stream.dropLast, cap ≤ seg.length + 1) ∧
        ∀ seg ∈ segments d stream, seg.length < cap ∧ f seg = g seg := by
  constructor
  · intro h
    obtain ⟨out, hout, hlen⟩ := exists_reads_all (d := d) hcap stream
    have hmap := congrArg List.length (h out hout)
    rw [List.length_map, List.length_map, hlen] at hmap
    have hshort := fits_of_length_fitting hmap.symm
    have hbytes := h _ (reads_segments hshort)
    rw [fitting_eq_segments hshort, List.map_inj_left] at hbytes
    refine ⟨fun seg hmem => ?_, fun seg hmem => ⟨hshort seg hmem, hbytes seg hmem⟩⟩
    by_contra hpast
    obtain ⟨out, hfew, hlt⟩ := exists_reads_fewer true hshort ⟨seg, hmem, by omega⟩
    have hsame := congrArg List.length (h out hfew)
    rw [List.length_map, List.length_map, fitting_eq_segments hshort] at hsame
    omega
  · rintro ⟨halone, hline⟩ out hout
    have hshort : ∀ seg ∈ segments d stream, seg.length < cap := fun seg hmem => (hline seg hmem).1
    have hpair : (segments d stream).Pairwise fun a b => cap ≤ a.length → cap ≤ b.length :=
      List.pairwise_of_forall_mem_list fun a ha b _ hlong => by
        have := hshort a ha
        omega
    rw [hout.eq_fitting halone hpair fun _ => hshort, fitting_eq_segments hshort, List.map_inj_left]
    exact fun seg hmem => (hline seg hmem).2

/-! ### A buffer that stays full -/

theorem ReadsLines.head_of_keep (h : ReadsLines d cap false buf stream out) :
    out = [] ∨ ∃ more out', out = (buf ++ more) :: out' := by
  induction h with
  | done b => exact .inl rfl
  | full stream hroom => exact .inl rfl
  | @read b chunk rest out hne hroom hrest ih =>
    by_cases hlast : chunk.getLast? = some d
    · obtain ⟨chunk', rfl⟩ := List.getLast?_eq_some_iff.mp hlast
      rw [feedLine_hit]
      exact .inr ⟨chunk', out, rfl⟩
    · have hmiss : feedLine d cap false b chunk = (b ++ chunk, none) :=
        feedLine_miss hne hlast fun hf => Bool.false_ne_true hf.1
      rw [hmiss] at ih ⊢
      rcases ih with hnil | ⟨more, out', hout⟩
      · exact .inl hnil
      · refine .inr ⟨chunk ++ more, out', ?_⟩
        rw [hout, List.append_assoc]
        rfl

theorem exists_reads_past_keep (hd : d ∉ seg) (hroom : seg.length + 1 < cap) (b : α)
    (rest : List α) :
    ∃ out, ReadsLines d cap false [] (seg ++ d :: b :: rest) out ∧
      (out = [] ∨ ∃ more out', out = (seg ++ d :: more) :: out') := by
  obtain ⟨out, hafter, hout⟩ := reads_past false hd hroom b rest
  refine ⟨_, hout, ?_⟩
  by_cases hb : b = d
  · subst hb
    have hhit : feedLine b cap false seg [b, b] = ([], some (seg ++ [b])) := feedLine_hit seg [b]
    rw [hhit]
    exact .inr ⟨[], out, rfl⟩
  · have hlast : [d, b].getLast? ≠ some d := by
      rw [List.getLast?_cons_cons, List.getLast?_singleton]
      exact fun h => hb (Option.some.inj h)
    have hmiss : feedLine d cap false seg [d, b] = (seg ++ [d, b], none) :=
      feedLine_miss (List.cons_ne_nil d [b]) hlast fun hf => Bool.false_ne_true hf.1
    rw [hmiss] at hafter ⊢
    rcases hafter.head_of_keep with hnil | ⟨more, out', hhead⟩
    · exact .inl hnil
    · refine .inr ⟨b :: more, out', ?_⟩
      rw [hhead]
      simp

/-- Reading right a line that fits and the rest is reading both right, and the line ends where it is
delivered. -/
theorem keep_short (f g : List α → ε) (hpast : ∀ seg more, d ∉ seg → f (seg ++ d :: more) ≠ g seg)
    {rest : List α} (hd : d ∉ seg) (hshort : seg.length < cap)
    (h : ∀ out, ReadsLines d cap false [] (seg ++ d :: rest) out →
      out.map f = (fitting d cap (seg ++ d :: rest)).map g) :
    f seg = g seg ∧ (∀ out, ReadsLines d cap false [] rest out →
      out.map f = (fitting d cap rest).map g) ∧ (rest ≠ [] → cap ≤ seg.length + 1) := by
  have hrest : ∀ out, ReadsLines d cap false [] rest out →
      f seg = g seg ∧ out.map f = (fitting d cap rest).map g := by
    intro out hout
    have hread : ReadsLines d cap false [] (seg ++ d :: rest) (seg :: out) :=
      reads_segment hd hshort hout
    have hboth := h _ hread
    rw [fitting_short hd hshort] at hboth
    exact List.cons.inj hboth
  obtain ⟨out, hout⟩ := exists_reads d cap false [] rest
  refine ⟨(hrest out hout).1, fun out hout => (hrest out hout).2, fun hne => ?_⟩
  obtain ⟨b, rest, rfl⟩ := List.exists_cons_of_ne_nil hne
  by_contra hroom
  obtain ⟨out, hout, hhead⟩ := exists_reads_past_keep hd (by omega : seg.length + 1 < cap) b rest
  have hsame := h out hout
  rw [fitting_short hd hshort] at hsame
  rcases hhead with rfl | ⟨more, out', rfl⟩
  · cases hsame
  · exact hpast seg more hd (List.cons.inj hsame).1

/-- Every way to read ends with the buffer full, so no line that fits may follow. -/
theorem keep_overlong (f g : List α → ε) {rest : List α} (hd : d ∉ seg) (hlong : ¬ seg.length < cap)
    (h : ∀ out, ReadsLines d cap false [] (seg ++ d :: rest) out →
      out.map f = (fitting d cap (seg ++ d :: rest)).map g) :
    fitting d cap (seg ++ d :: rest) = [] ∧
      ∀ seg' ∈ segments d (seg ++ d :: rest), cap ≤ seg'.length := by
  have hfull : cap ≤ ([] ++ seg).length := by
    rw [List.nil_append]
    omega
  obtain ⟨out, hout⟩ := exists_reads d cap false [] (seg ++ d :: rest)
  have hnone := h out hout
  rw [hout.eq_nil_of_overlong hd hfull] at hnone
  have hfit : fitting d cap (seg ++ d :: rest) = [] := List.map_eq_nil_iff.mp hnone.symm
  refine ⟨hfit, fun seg' hmem => ?_⟩
  have hnot := List.filter_eq_nil_iff.mp hfit seg' hmem
  rw [decide_eq_true_iff] at hnot
  omega

variable (d cap) in
/-- With a buffer that stays full: no line may fit after one that does not, and `f` must read of the
lines that fit what `g` says of them, and something else of one with a delimiter in it. -/
theorem keep_iff (f g : List α → ε)
    (hpast : ∀ seg more, d ∉ seg → f (seg ++ d :: more) ≠ g seg) (stream : List α) :
    (∀ out, ReadsLines d cap false [] stream out → out.map f = (fitting d cap stream).map g) ↔
      (∀ seg ∈ segments d stream.dropLast, cap ≤ seg.length + 1) ∧
        (∀ seg ∈ fitting d cap stream, f seg = g seg) ∧
        (segments d stream).Pairwise fun a b => cap ≤ a.length → cap ≤ b.length := by
  constructor
  · intro h
    induction stream using segments_induction d with
    | htail tail hd =>
      rw [segments_dropLast_of_notMem hd, fitting_of_notMem hd, segments_of_notMem hd]
      exact ⟨fun _ hmem => (nomatch hmem), fun _ hmem => (nomatch hmem), List.Pairwise.nil⟩
    | hsegment seg rest hd ih =>
      by_cases hshort : seg.length < cap
      · obtain ⟨hname, hrest, hroom⟩ := keep_short f g hpast hd hshort h
        obtain ⟨halone, hnames, hlong⟩ := ih hrest
        refine ⟨?_, ?_, ?_⟩
        · intro seg' hmem
          cases rest with
          | nil =>
            rw [segments_dropLast_last hd] at hmem
            cases hmem
          | cons b rest =>
            rw [segments_dropLast hd (List.cons_ne_nil b rest), List.mem_cons] at hmem
            rcases hmem with rfl | hmem
            · exact hroom (List.cons_ne_nil b rest)
            · exact halone seg' hmem
        · rw [fitting_short hd hshort]
          intro seg' hmem
          rcases List.mem_cons.mp hmem with rfl | hmem
          · exact hname
          · exact hnames seg' hmem
        · rw [segments_append_cons hd, List.pairwise_cons]
          exact ⟨fun _ _ hle => absurd hshort (by omega), hlong⟩
      · obtain ⟨hfit, hall⟩ := keep_overlong f g hd hshort h
        refine ⟨fun seg' hmem => ?_, ?_, ?_⟩
        · have hle := hall seg' (mem_segments_of_dropLast hmem)
          omega
        · rw [hfit]
          exact fun _ hmem => (nomatch hmem)
        · exact List.pairwise_of_forall_mem_list fun _ _ b hb _ => hall b hb
  · rintro ⟨halone, hname, hlong⟩ out hout
    rw [hout.eq_fitting halone hlong fun hf => (nomatch hf), List.map_inj_left]
    exact hname

end LineReader
end ZephyrSamples
