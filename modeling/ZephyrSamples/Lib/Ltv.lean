import Mathlib.Data.List.Basic

/-!
# Structures of length, type and value

A payload is a sequence of structures, each a length byte and so many bytes, of which the first is
the type.  `structures` are those of its maximal well-formed prefix: up to the first that has no
type, or is longer than what is left.
-/

namespace ZephyrSamples
namespace Ltv

/-- The type and the value of a structure. -/
abbrev Structure := UInt8 × List UInt8

def structures : List UInt8 → List Structure
  | len :: type :: rest =>
    if len = 0 ∨ rest.length + 1 < len.toNat then []
    else (type, rest.take (len.toNat - 1)) :: structures (rest.drop (len.toNat - 1))
  | _ => []
termination_by bytes => bytes.length
decreasing_by
  simp only [List.length_drop, List.length_cons]
  omega

variable {len type : UInt8} {rest : List UInt8}

theorem structures_nil : structures [] = [] := by
  rw [structures.eq_def]

theorem structures_of_short {bytes : List UInt8} (h : bytes.length ≤ 1) :
    structures bytes = [] := by
  match bytes with
  | [] => exact structures_nil
  | [_] => rw [structures.eq_def]

/-- An empty structure, or one that is too long, ends the prefix. -/
theorem structures_of_malformed (h : len = 0 ∨ rest.length + 1 < len.toNat) :
    structures (len :: type :: rest) = [] := by
  rw [structures.eq_def]
  exact if_pos h

theorem structures_cons (hlen : len ≠ 0) (hrest : len.toNat ≤ rest.length + 1) :
    structures (len :: type :: rest) =
      (type, rest.take (len.toNat - 1)) :: structures (rest.drop (len.toNat - 1)) := by
  rw [structures.eq_def]
  exact if_neg (not_or.mpr ⟨hlen, Nat.not_lt.mpr hrest⟩)

end Ltv
end ZephyrSamples
