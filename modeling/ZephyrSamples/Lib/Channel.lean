import Mathlib.Data.List.Perm.Basic
import Mathlib.Data.List.Perm.Subperm

/-!
# A channel that loses and reorders

What was sent over a channel is in flight, has arrived or is lost.  Whatever is in flight can be the
next to arrive or to be lost; nothing is made up and nothing arrives twice, which is what
`Carries` says: all there is on the channel is a rearrangement of what was sent.
-/

namespace ZephyrSamples
namespace Lib

/-- The channel, with what has arrived in the order it did. -/
structure Channel (α : Type*) where
  flight : List α := []
  arrived : List α := []
  lost : List α := []
  deriving DecidableEq

namespace Channel

variable {α : Type*} (c : Channel α) (xs : List α) (k : Nat)

def send : Channel α := { c with flight := c.flight ++ xs }

/-- What is in flight at place `k` arrives. -/
def deliver : Channel α :=
  match c.flight[k]? with
  | some x => { c with flight := c.flight.eraseIdx k, arrived := c.arrived ++ [x] }
  | none => c

/-- What is in flight at place `k` is lost. -/
def lose : Channel α :=
  match c.flight[k]? with
  | some x => { c with flight := c.flight.eraseIdx k, lost := x :: c.lost }
  | none => c

/-- All there is on the channel. -/
def all : List α := c.flight ++ c.arrived ++ c.lost

/-- The channel has just what was sent. -/
def Carries (sent : List α) : Prop := c.all.Perm sent

@[simp] theorem send_arrived : (c.send xs).arrived = c.arrived := rfl

theorem send_nil : c.send [] = c := by
  rw [send, List.append_nil]

@[simp] theorem lose_arrived : (c.lose k).arrived = c.arrived := by
  unfold lose
  split <;> rfl

theorem deliver_arrived {x : α} (h : c.flight[k]? = some x) :
    (c.deliver k).arrived = c.arrived ++ [x] := by
  unfold deliver
  rw [h]

theorem flight_deliver_subset : (c.deliver k).flight ⊆ c.flight := by
  unfold deliver
  split
  · exact List.eraseIdx_subset
  · exact List.Subset.refl _

theorem flight_lose_subset : (c.lose k).flight ⊆ c.flight := by
  unfold lose
  split
  · exact List.eraseIdx_subset
  · exact List.Subset.refl _

theorem perm_of_getElem? {flight : List α} {x : α} (h : flight[k]? = some x) :
    flight.Perm (x :: flight.eraseIdx k) := by
  obtain ⟨hk, rfl⟩ := List.getElem?_eq_some_iff.mp h
  exact (List.getElem_cons_eraseIdx_perm hk).symm

theorem all_send : (c.send xs).all.Perm (c.all ++ xs) := by
  show (c.flight ++ xs ++ c.arrived ++ c.lost).Perm (c.flight ++ c.arrived ++ c.lost ++ xs)
  rw [List.append_assoc, List.append_assoc, List.append_assoc, List.append_assoc]
  refine List.Perm.append_left c.flight ?_
  rw [← List.append_assoc c.arrived]
  exact List.perm_append_comm

theorem all_deliver : (c.deliver k).all.Perm c.all := by
  unfold deliver
  split
  case h_1 x hx =>
    show (c.flight.eraseIdx k ++ (c.arrived ++ [x]) ++ c.lost).Perm
      (c.flight ++ c.arrived ++ c.lost)
    refine List.Perm.append_right c.lost ?_
    calc c.flight.eraseIdx k ++ (c.arrived ++ [x])
        = c.flight.eraseIdx k ++ c.arrived ++ [x] := (List.append_assoc _ _ _).symm
      List.Perm _ (x :: (c.flight.eraseIdx k ++ c.arrived)) := List.perm_append_singleton x _
      List.Perm _ (c.flight ++ c.arrived) := (perm_of_getElem? k hx).symm.append_right c.arrived
  case h_2 => exact List.Perm.refl _

theorem all_lose : (c.lose k).all.Perm c.all := by
  unfold lose
  split
  case h_1 x hx =>
    show (c.flight.eraseIdx k ++ c.arrived ++ x :: c.lost).Perm (c.flight ++ c.arrived ++ c.lost)
    calc (c.flight.eraseIdx k ++ c.arrived ++ x :: c.lost).Perm
          (x :: (c.flight.eraseIdx k ++ c.arrived ++ c.lost)) := List.perm_middle
      List.Perm _ (c.flight ++ c.arrived ++ c.lost) :=
        ((perm_of_getElem? k hx).symm.append_right c.arrived).append_right c.lost
  case h_2 => exact List.Perm.refl _

variable {c xs k} {sent : List α}

theorem carries_nil : ({} : Channel α).Carries [] := List.Perm.nil

theorem Carries.send (h : c.Carries sent) : (c.send xs).Carries (sent ++ xs) :=
  (all_send c xs).trans (h.append_right xs)

theorem Carries.deliver (h : c.Carries sent) : (c.deliver k).Carries sent :=
  (all_deliver c k).trans h

theorem Carries.lose (h : c.Carries sent) : (c.lose k).Carries sent := (all_lose c k).trans h

theorem Carries.mem_sent (h : c.Carries sent) {x : α} (hx : c.flight[k]? = some x) : x ∈ sent := by
  refine h.subset ?_
  have hflight : x ∈ c.flight := List.mem_of_getElem? hx
  exact List.mem_append_left _ (List.mem_append_left _ hflight)

/-- What arrives was sent, and not more often than it was. -/
theorem Carries.arrived_subperm (h : c.Carries sent) : c.arrived.Subperm sent := by
  have hall : c.arrived.Sublist c.all :=
    (List.sublist_append_right c.flight c.arrived).trans (List.sublist_append_left _ c.lost)
  exact hall.subperm.trans h.subperm

end Channel
end Lib
end ZephyrSamples
