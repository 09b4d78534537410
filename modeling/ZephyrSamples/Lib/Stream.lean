import Mathlib.Data.List.Basic

/-!
# One direction of a connection

What is sent over a `Stream` is in transit until it arrives, and has arrived until it is read.
Nothing is lost or overtaken: `content` is what was sent and not read, oldest first, and only
sending and reading change it.
-/

namespace ZephyrSamples
namespace Lib

structure Stream (α : Type*) where
  arrived : List α := []
  transit : List α := []
  deriving DecidableEq

namespace Stream

variable {α : Type*} (w : Stream α) (xs : List α) (n : Nat)

/-- All that was sent and not read. -/
def content : List α := w.arrived ++ w.transit

def send : Stream α := { w with transit := w.transit ++ xs }

/-- The next `n` elements arrive, as far as there are so many. -/
def arrive : Stream α where
  arrived := w.arrived ++ w.transit.take n
  transit := w.transit.drop n

/-- The first `n` elements that have arrived are read. -/
def read : Stream α := { w with arrived := w.arrived.drop n }

@[simp] theorem send_arrived : (w.send xs).arrived = w.arrived := rfl

@[simp] theorem send_transit : (w.send xs).transit = w.transit ++ xs := rfl

@[simp] theorem read_arrived : (w.read n).arrived = w.arrived.drop n := rfl

@[simp] theorem read_transit : (w.read n).transit = w.transit := rfl

@[simp] theorem content_send : (w.send xs).content = w.content ++ xs :=
  (List.append_assoc _ _ _).symm

@[simp] theorem content_arrive : (w.arrive n).content = w.content := by
  show w.arrived ++ w.transit.take n ++ w.transit.drop n = w.arrived ++ w.transit
  rw [List.append_assoc, List.take_append_drop]

theorem content_read {n : Nat} (h : n ≤ w.arrived.length) :
    (w.read n).content = w.content.drop n :=
  (List.drop_append_of_le_length h).symm

/-- What is read is the first that was sent. -/
theorem take_arrived_append : w.arrived.take n ++ (w.read n).content = w.content := by
  show w.arrived.take n ++ (w.arrived.drop n ++ w.transit) = w.arrived ++ w.transit
  rw [← List.append_assoc, List.take_append_drop]

theorem arrived_arrive_ne_nil (h : w.arrived ≠ []) : (w.arrive n).arrived ≠ [] := by
  intro hnil
  exact h (List.append_eq_nil_iff.mp hnil).1

theorem length_content : w.content.length = w.arrived.length + w.transit.length :=
  List.length_append

theorem length_arrive :
    (w.arrive n).arrived.length = w.arrived.length + min n w.transit.length ∧
      (w.arrive n).transit.length = w.transit.length - n := by
  constructor
  · show (w.arrived ++ w.transit.take n).length = _
    rw [List.length_append, List.length_take]
  · exact List.length_drop

end Stream
end Lib
end ZephyrSamples
