import Mathlib.Data.List.Perm.Basic

/-!
# Worklists

Items that are ready are handled once each: `next` is the state after one of them, and `entry` what
is logged for it.  When the handling of different items commutes, the order in which a loop comes to
them makes no difference but to the order of the log. -/

namespace ZephyrSamples
namespace Worklist

variable {σ τ ι κ ω : Type*} {next : σ → ι → σ} {entry : ι → ω}

/-- The ready items are handled in some order: `t` is the state after them and `log`
what is logged. -/
def Handled (next : σ → ι → σ) (entry : ι → ω) (ready : ι → Prop) (s t : σ) (log : List ω) : Prop :=
  ∃ order : List ι, order.Nodup ∧ (∀ i, i ∈ order ↔ ready i) ∧ t = order.foldl next s ∧
    log = order.map entry

theorem Handled.unique {ready : ι → Prop} {s t t' : σ} {log log' : List ω}
    (hcomm : ∀ i, ready i → ∀ j, ready j → ∀ s, next (next s i) j = next (next s j) i)
    (h : Handled next entry ready s t log) (h' : Handled next entry ready s t' log') :
    t = t' ∧ log.Perm log' := by
  obtain ⟨order, hnodup, hmem, rfl, rfl⟩ := h
  obtain ⟨order', hnodup', hmem', rfl, rfl⟩ := h'
  have hperm : order.Perm order' :=
    (List.perm_ext_iff_of_nodup hnodup hnodup').mpr fun i => (hmem i).trans (hmem' i).symm
  refine ⟨hperm.foldl_eq' (fun i hi j hj s => ?_) s, hperm.map entry⟩
  exact hcomm i ((hmem i).mp hi) j ((hmem j).mp hj) s

/-- A loop over `keys` that handles what `sel` finds at a key: `I rest` is its invariant with `rest`
still to come, `abs` and `log` are the state and the log. -/
theorem foldl_handles (next : σ → ι → σ) (entry : ι → ω) (abs : τ → σ) (log : τ → List ω)
    {visit : τ → κ → τ} {sel : κ → Option ι} {I : List κ → τ → Prop}
    (hskip : ∀ k rest s, I (k :: rest) s → sel k = none → visit s k = s ∧ I rest s)
    (hvisit : ∀ k rest s i, I (k :: rest) s → sel k = some i →
      I rest (visit s k) ∧ abs (visit s k) = next (abs s) i ∧ log (visit s k) = log s ++ [entry i])
    {keys : List κ} {s : τ} (h : I keys s) :
    I [] (keys.foldl visit s) ∧ abs (keys.foldl visit s) = (keys.filterMap sel).foldl next (abs s) ∧
      log (keys.foldl visit s) = log s ++ (keys.filterMap sel).map entry := by
  induction keys generalizing s with
  | nil => exact ⟨h, rfl, (List.append_nil _).symm⟩
  | cons k keys ih =>
    rw [List.foldl_cons]
    cases hsel : sel k with
    | none =>
      obtain ⟨hsame, hrest⟩ := hskip k keys s h hsel
      rw [hsame, List.filterMap_cons_none hsel]
      exact ih hrest
    | some i =>
      obtain ⟨hrest, habs, hlog⟩ := hvisit k keys s i h hsel
      obtain ⟨hend, habs', hlog'⟩ := ih hrest
      rw [List.filterMap_cons_some hsel, List.foldl_cons, List.map_cons]
      rw [habs] at habs'
      rw [hlog, List.append_assoc, List.singleton_append] at hlog'
      exact ⟨hend, habs', hlog'⟩

end Worklist
end ZephyrSamples
