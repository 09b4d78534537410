import Mathlib.Data.List.Basic

/-!
# Sending all of a buffer

The loop around `send` that the TCP samples share: `send` takes a part of what is left, until
nothing is left or it fails. -/

namespace ZephyrSamples
namespace Sockets

abbrev Byte := UInt8

/-- `sendall` with what `send` returns, the last call taking all that is left: the bytes sent, and
what is returned. -/
def sendall : List Byte → List Int → List Byte × Int
  | [], _ => ([], 0)
  | buf, [] => (buf, 0)
  | buf, outLen :: outLens =>
    if outLen < 0 then ([], outLen)
    else
      let rest := sendall (buf.drop outLen.toNat) outLens
      (buf.take outLen.toNat ++ rest.1, rest.2)

/-- However many bytes each call takes, all of them are sent. -/
theorem sendall_of_pos {buf : List Byte} {outLens : List Int} (h : ∀ outLen ∈ outLens, 0 < outLen) :
    sendall buf outLens = (buf, 0) := by
  induction outLens generalizing buf with
  | nil => cases buf <;> rfl
  | cons outLen outLens ih =>
    have hpos : ¬ outLen < 0 := by
      have := h outLen List.mem_cons_self
      omega
    cases buf with
    | nil => rfl
    | cons b buf =>
      rw [sendall, if_neg hpos, ih fun x hx => h x (List.mem_cons_of_mem _ hx)]
      · simp only [List.take_append_drop]
      · simp

end Sockets
end ZephyrSamples
