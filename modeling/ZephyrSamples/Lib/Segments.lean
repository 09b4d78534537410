import Mathlib.Data.List.Infix

/-!
# Streams cut at a delimiter

`segments d stream` are the parts of a stream that end at a `d`, without it; what comes after the
last `d` is not among them.  `segments_induction` takes a stream apart segment by segment.
-/

namespace ZephyrSamples

variable {α : Type*} [DecidableEq α] {d : α} {seg tail rest pre stream : List α}

/-- The parts of the stream that end at a delimiter. -/
def segments (d : α) (stream : List α) : List (List α) := (stream.splitOn d).dropLast

theorem segments_of_notMem (h : d ∉ tail) : segments d tail = [] := by
  rw [segments, List.splitOn_eq_singleton h]
  rfl

theorem segments_append_cons (h : d ∉ seg) (rest : List α) :
    segments d (seg ++ d :: rest) = seg :: segments d rest := by
  rw [segments, List.splitOn_append_cons_self_of_not_mem h,
    List.dropLast_cons_of_ne_nil (List.splitOn_ne_nil _ _)]
  rfl

/-- A stream is a tail without delimiters, or a segment, its delimiter and another stream. -/
@[elab_as_elim]
theorem segments_induction {motive : List α → Prop} (d : α)
    (htail : ∀ tail, d ∉ tail → motive tail)
    (hsegment : ∀ seg rest, d ∉ seg → motive rest → motive (seg ++ d :: rest))
    (stream : List α) : motive stream := by
  induction hlen : stream.length using Nat.strong_induction_on generalizing stream with
  | _ n ih =>
    by_cases hd : d ∈ stream
    · obtain ⟨seg, rest, rfl, hseg⟩ := List.eq_append_cons_of_mem hd
      have hshorter : rest.length < n := by
        rw [← hlen, List.length_append, List.length_cons]
        omega
      exact hsegment seg rest hseg (ih rest.length hshorter rest rfl)
    · exact htail stream hd

omit [DecidableEq α] in
/-- A prefix of a stream ends within the first segment or after its delimiter. -/
theorem prefix_segment_cases (h : pre <+: seg ++ d :: rest) :
    pre <+: seg ∨ ∃ pre', pre = seg ++ d :: pre' ∧ pre' <+: rest := by
  obtain ⟨post, hpost⟩ := h
  rcases List.append_eq_append_iff.mp hpost with ⟨mid, hseg, -⟩ | ⟨mid, hpre, hmid⟩
  · exact Or.inl ⟨mid, hseg.symm⟩
  · cases mid with
    | nil => exact Or.inl ⟨[], by rw [hpre]; simp⟩
    | cons x mid =>
      obtain ⟨rfl, hrest⟩ := List.cons.inj hmid
      exact Or.inr ⟨mid, hpre, post, hrest.symm⟩

end ZephyrSamples
