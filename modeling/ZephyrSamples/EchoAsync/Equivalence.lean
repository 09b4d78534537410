import ZephyrSamples.EchoAsync.Poll
import ZephyrSamples.EchoAsync.Select
import ZephyrSamples.Lib.Runs

/-!
# The two asynchronous echo servers side by side

The server with `poll` and the one with `select` get the same answers in every round.  They do the
same and watch the same descriptors, in all runs in which no `accept` fails: the server with
`select` hands the −1 to `setblocking`, which ends the program. -/

namespace ZephyrSamples
namespace EchoAsync

open Runs

/-- The servers are at `poll` and `select`, or have ended. -/
structure Pair where
  poll : Server Poll.PollSet
  select : Server Select.FdSet

def start (numFds : Nat) (servs : Servers) : Pair := ⟨Poll.start numFds servs, Select.start servs⟩

def step (numFds : Nat) (servs : Servers) (s : Pair) (r : Round) : Pair :=
  ⟨Poll.round numFds s.poll r, Select.round servs s.select r⟩

/-- The descriptors `accept` returns are fresh, and at most `NUM_FDS - 2` clients are open at a
time: with the listening sockets that are `NUM_FDS` descriptors. -/
def Possible (numFds : Nat) (servs : Servers) (s : Pair) (r : Round) : Prop :=
  Fits numFds s.poll.openFds (newClients servs r)

/-- What was done in the last round is the same for each descriptor, and both servers watch the
listening sockets and the clients that are open, none of them negative. -/
structure Agree (servs : Servers) (s : Pair) : Prop where
  exited : s.poll.exited = s.select.exited
  done : s.poll.done.Perm s.select.done
  openFds : s.poll.openFds = s.select.openFds
  listening : ∀ fd, servs.IsServer fd → fd ∈ s.poll.openFds
  nonneg : ∀ fd ∈ s.poll.openFds, 0 ≤ fd
  polled : ∀ fd, s.poll.watch.Watched fd ↔ fd ∈ s.poll.openFds
  selected : ∀ fd, s.select.watch.Watched fd ↔ fd ∈ s.select.openFds

/-- Both servers go on, with what each of them needs. -/
structure Inv (numFds : Nat) (servs : Servers) (s : Pair) : Prop where
  poll : Poll.Watches numFds servs s.poll.watch s.poll.openFds
  select : Select.Watches s.select.watch s.select.openFds
  polling : s.poll.exited = false
  selecting : s.select.exited = false
  done : s.poll.done.Perm s.select.done
  openFds : s.poll.openFds = s.select.openFds
  listening : ∀ fd, servs.IsServer fd → fd ∈ s.poll.openFds

instance (numFds : Nat) (servs : Servers) (s : Pair) (r : Round) :
    Decidable (Possible numFds servs s r) :=
  inferInstanceAs (Decidable (Fits _ _ _))

variable {numFds : Nat} {servs : Servers} {s : Pair} {r : Round}

theorem inv_start (h : Poll.numServs ≤ numFds) (servs : Servers) :
    Inv numFds servs (start numFds servs) where
  poll := Poll.watches_start h servs
  select := Select.watches_start servs
  polling := rfl
  selecting := rfl
  done := .refl _
  openFds := rfl
  listening fd hserver := by
    show fd ∈ ({servs.serv4, servs.serv6} : Finset Int)
    rcases hserver with rfl | rfl
    · exact Finset.mem_insert_self _ _
    · exact Finset.mem_insert_of_mem (Finset.mem_singleton_self _)

theorem Inv.agree (h : Inv numFds servs s) : Agree servs s where
  exited := h.polling.trans h.selecting.symm
  done := h.done
  openFds := h.openFds
  listening := h.listening
  nonneg fd hfd := ((h.poll.mem fd).mp hfd).1
  polled _ := h.poll.watched_iff
  selected _ := h.select.watched_iff

theorem server_mem_foldl {fd : Int} (hserver : servs.IsServer fd) {openFds : Finset Int}
    (hfd : fd ∈ openFds) (order : List Int) : fd ∈ order.foldl (next servs r) openFds := by
  induction order generalizing openFds with
  | nil => exact hfd
  | cons x order ih => exact ih (server_mem_next hserver hfd)

/-- In the same round the two servers handle the same descriptors, in orders of their own. -/
theorem inv_step (h : Inv numFds servs s) (he : Possible numFds servs s r)
    (hall : AcceptsAll servs r) : Inv numFds servs (step numFds servs s r) := by
  have he' : Fits numFds s.select.openFds (newClients servs r) := h.openFds ▸ he
  obtain ⟨hpoll, hpolling, hhandled⟩ := Poll.round_handles h.poll h.polling he
  obtain ⟨hselect, hselecting, hhandled'⟩ := Select.round_handles h.select h.selecting he' hall
  rw [← h.openFds] at hhandled'
  have hfresh (fd c : Int) (hnew : newClient servs r fd = some c) : c ∉ s.poll.openFds :=
    he.fresh c (mem_newClients hnew)
  obtain ⟨hopen, hdone⟩ := hhandled.unique
    (fun x hx y hy fds => next_comm hx.1 hy.1 hfresh fds) hhandled'
  refine ⟨hpoll, hselect, hpolling, hselecting, hdone, hopen, fun fd hserver => ?_⟩
  obtain ⟨order, -, -, heq, -⟩ := hhandled
  show fd ∈ (Poll.round numFds s.poll r).openFds
  rw [heq]
  exact server_mem_foldl hserver (h.listening fd hserver) order

theorem agree_step_iff (h : Inv numFds servs s) (he : Possible numFds servs s r) :
    Agree servs (step numFds servs s r) ↔ AcceptsAll servs r := by
  constructor
  · intro hagree
    by_contra hfail
    have hpolling := (Poll.round_handles h.poll h.polling he).2.1
    have hexits : (Select.round servs s.select r).exited = true := by
      refine Select.round_exits h.select h.selecting (fun fd hserver => ?_) hfail
      rw [← h.openFds]
      exact h.listening fd hserver
    exact Bool.false_ne_true (hpolling.symm.trans (hagree.exited.trans hexits))
  · exact fun hall => (inv_step h he hall).agree

/-- Every run, with any number of clients that come and go. -/
theorem servers_agree_iff_accepts (h : Poll.numServs ≤ numFds) (servs : Servers) {rs : List Round}
    (he : Along (step numFds servs) (Possible numFds servs) (start numFds servs) rs) :
    Always (step numFds servs) (Agree servs) (start numFds servs) rs ↔
      Along (step numFds servs) (fun _ r => AcceptsAll servs r) (start numFds servs) rs := by
  have hstart := inv_start h servs
  exact always_iff_along_of_kept (step numFds servs) (I := Inv numFds servs)
    (fun _ _ hs hpossible hall => inv_step hs hpossible hall)
    (fun _ _ hs hpossible => agree_step_iff hs hpossible) hstart hstart.agree he

/-- The listening sockets 0 and 1. -/
def two : Servers := ⟨0, 1, by decide, by decide, by decide⟩

def accepting (client : Int) : Round := fun fd => if fd = 0 then some ⟨client, none, []⟩ else none

/-- A client connects, sends two bytes, and goes. -/
def visitor : List Round :=
  [accepting 2, fun fd => if fd = 2 then some ⟨-1, some [7, 8], [1]⟩ else none,
    fun fd => if fd = 2 then some ⟨-1, some [], []⟩ else none]

theorem servers_agree_visitor :
    Along (step 5 two) (Possible 5 two) (start 5 two) visitor ∧
      Always (step 5 two) (Agree two) (start 5 two) visitor := by
  have hpossible : Along (step 5 two) (Possible 5 two) (start 5 two) visitor := by decide +kernel
  refine ⟨hpossible, (servers_agree_iff_accepts (by decide) two hpossible).mpr ?_⟩
  refine ⟨fun fd hserver a ha => ?_, fun fd hserver a ha => ?_, fun fd hserver a ha => ?_, trivial⟩
  · obtain rfl | rfl : fd = 0 ∨ fd = 1 := hserver
    · obtain rfl : (⟨2, none, []⟩ : Answer) = a := Option.some.inj ha
      decide
    · exact nomatch ha
  · obtain rfl | rfl : fd = 0 ∨ fd = 1 := hserver
    · exact nomatch ha
    · exact nomatch ha
  · obtain rfl | rfl : fd = 0 ∨ fd = 1 := hserver
    · exact nomatch ha
    · exact nomatch ha

/-- `accept` fails once. -/
theorem failed_accept_ends_select :
    Along (step 5 two) (Possible 5 two) (start 5 two) [accepting (-1)] ∧
      (run (step 5 two) (start 5 two) [accepting (-1)]).poll.exited = false ∧
      (run (step 5 two) (start 5 two) [accepting (-1)]).select.exited = true ∧
      ¬ Always (step 5 two) (Agree two) (start 5 two) [accepting (-1)] := by
  have hpolling : (run (step 5 two) (start 5 two) [accepting (-1)]).poll.exited = false := by
    decide +kernel
  have hselect : (run (step 5 two) (start 5 two) [accepting (-1)]).select.exited = true := by
    decide +kernel
  refine ⟨by decide +kernel, hpolling, hselect, fun h => ?_⟩
  exact Bool.false_ne_true (hpolling.symm.trans (h.last.exited.trans hselect))

end EchoAsync
end ZephyrSamples
