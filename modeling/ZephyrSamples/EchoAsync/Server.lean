import Mathlib.Data.Finset.Card
import Mathlib.Data.List.FinRange
import ZephyrSamples.Lib.Worklist
import ZephyrSamples.Sockets.Sendall

/-!
# The asynchronous echo servers

What the server with `poll` and the one with `select` have in common.  They keep the watched
descriptors in different ways, and come to those that are ready in different orders; what is done
with a client socket is the same text in both. -/

namespace ZephyrSamples
namespace EchoAsync

open Sockets

/-- The two listening sockets. -/
structure Servers where
  serv4 : Int
  serv6 : Int
  nonneg4 : 0 ≤ serv4
  nonneg6 : 0 ≤ serv6
  ne : serv4 ≠ serv6

def Servers.IsServer (servs : Servers) (fd : Int) : Prop := fd = servs.serv4 ∨ fd = servs.serv6

instance (servs : Servers) (fd : Int) : Decidable (servs.IsServer fd) :=
  inferInstanceAs (Decidable (_ ∨ _))

/-- What a descriptor that is ready answers.  `client` is what `accept` returns on a listening
socket; on a client socket `received` is what `recv` gives, `none` being an error, and `outLens` are
the results of `send`, the last of which takes all that is left. -/
structure Answer where
  client : Int
  received : Option (List Byte)
  outLens : List Int
  deriving DecidableEq, Repr

/-- A return of `poll` or `select`: the descriptors that are ready answer.  A call that fails is one
after which none is. -/
abbrev Round := Int → Option Answer

inductive Effect where
  | accept (client : Int)
  | send (fd : Int) (bytes : List Byte)
  | close (fd : Int)
  deriving DecidableEq, Repr

/-- The descriptors as the server watches them. -/
structure Watch (ω : Type) where
  pollfdsAdd : ω → Int → Option ω
  pollfdsDel : ω → Int → ω

/-- A server: `openFds` are the descriptors that are open, and `done` is what was done in the last
round, for each descriptor that was ready. -/
structure Server (ω : Type) where
  watch : ω
  openFds : Finset Int
  exited : Bool
  done : List (Int × List Effect)

variable {ω : Type} (watch : Watch ω)

/-- `setblocking`, which ends the program for a descriptor that is not open. -/
def Server.setblocking (s : Server ω) (fd : Int) : Server ω :=
  if fd ∈ s.openFds then s else { s with exited := true }

def Server.log (s : Server ω) (fd : Int) (effects : List Effect) : Server ω :=
  { s with done := s.done ++ [(fd, effects)] }

def Server.close (s : Server ω) (fd : Int) : Server ω :=
  { s with openFds := s.openFds.erase fd }

def tooManyConnections : List Byte := "Too many connections\n".toUTF8.toList

/-- What `accept` does when it returns `client`. -/
def Server.accepted (s : Server ω) (client : Int) : Server ω :=
  if 0 ≤ client then { s with openFds := insert client s.openFds } else s

def accepts (client : Int) : List Effect := if 0 ≤ client then [.accept client] else []

/-- What is done with the descriptor `client` that `accept` has returned on the listening socket
`fd`. -/
def addClient (s : Server ω) (fd client : Int) : Server ω :=
  match watch.pollfdsAdd s.watch client with
  | none =>
    (s.close client).log fd
      (accepts client ++ [.send client tooManyConnections, .close client])
  | some w => ({ s with watch := w }.log fd (accepts client)).setblocking client

/-- From the label `error` on. -/
def dropClient (s : Server ω) (fd : Int) (effects : List Effect) : Server ω :=
  ({ s with watch := watch.pollfdsDel s.watch fd }.close fd).log fd (effects ++ [Effect.close fd])

/-- What is done with a client socket. -/
def echo (s : Server ω) (fd : Int) (a : Answer) : Server ω :=
  match a.received with
  | none => dropClient watch s fd []
  | some [] => dropClient watch s fd []
  | some (b :: buf) =>
    let s := s.setblocking fd
    if s.exited then s
    else
      let out := sendall (b :: buf) a.outLens
      if out.2 < 0 then dropClient watch s fd [.send fd out.1]
      else (s.log fd [.send fd out.1]).setblocking fd

/-- What comes of the answer of a client socket: the effects, and whether the socket is closed. -/
def Answer.echoed (fd : Int) (a : Answer) : List Effect × Bool :=
  match a.received with
  | none => ([.close fd], true)
  | some [] => ([.close fd], true)
  | some (b :: buf) =>
    let out := sendall (b :: buf) a.outLens
    if out.2 < 0 then ([.send fd out.1, .close fd], true) else ([.send fd out.1], false)

/-- What is to be logged for a descriptor that is ready. -/
def entry (servs : Servers) (r : Round) (fd : Int) : Int × List Effect :=
  match r fd with
  | none => (fd, [])
  | some a => (fd, if servs.IsServer fd then accepts a.client else (a.echoed fd).1)

/-- The descriptors that are to be open after one that is ready. -/
def next (servs : Servers) (r : Round) (openFds : Finset Int) (fd : Int) : Finset Int :=
  match r fd with
  | none => openFds
  | some a =>
    if servs.IsServer fd then if 0 ≤ a.client then insert a.client openFds else openFds
    else if (a.echoed fd).2 then openFds.erase fd else openFds

/-- The client that is accepted on `fd`, if it is a listening socket. -/
def newClient (servs : Servers) (r : Round) (fd : Int) : Option Int :=
  if servs.IsServer fd then (r fd).bind fun a => if 0 ≤ a.client then some a.client else none
  else none

/-- The clients accepted in a round. -/
def newClients (servs : Servers) (r : Round) : List Int :=
  [servs.serv4, servs.serv6].filterMap (newClient servs r)

/-- The descriptors `accept` returns are not open yet, and there is room for them. -/
structure Fits (numFds : Nat) (openFds : Finset Int) (clients : List Int) : Prop where
  fresh : ∀ c ∈ clients, c ∉ openFds
  nodup : clients.Nodup
  room : openFds.card + clients.length ≤ numFds

instance (numFds : Nat) (openFds : Finset Int) (clients : List Int) :
    Decidable (Fits numFds openFds clients) :=
  decidable_of_iff
    ((∀ c ∈ clients, c ∉ openFds) ∧ clients.Nodup ∧ openFds.card + clients.length ≤ numFds)
    ⟨fun h => ⟨h.1, h.2.1, h.2.2⟩, fun h => ⟨h.fresh, h.nodup, h.room⟩⟩

/-- The descriptors `fds` are still to be handled. -/
structure Pending (numFds : Nat) (servs : Servers) (r : Round) (openFds : Finset Int)
    (fds : List Int) : Prop where
  nodup : fds.Nodup
  isOpen : ∀ fd ∈ fds, fd ∈ openFds
  fits : Fits numFds openFds (fds.filterMap (newClient servs r))

/-- No `accept` fails. -/
def AcceptsAll (servs : Servers) (r : Round) : Prop :=
  ∀ fd, servs.IsServer fd → ∀ a, r fd = some a → 0 ≤ a.client

variable {watch} {servs : Servers} {r : Round} {s : Server ω} {fd c : Int} {a : Answer}
  {numFds : Nat} {openFds : Finset Int}

theorem newClient_nonneg (h : newClient servs r fd = some c) : 0 ≤ c := by
  unfold newClient at h
  split at h
  · obtain ⟨a, -, ha⟩ := Option.bind_eq_some_iff.mp h
    split at ha
    · rename_i hpos
      rwa [← Option.some.inj ha]
    · exact nomatch ha
  · exact nomatch h

/-- The effect of a ready descriptor on the open ones. -/
theorem next_cases (servs : Servers) (r : Round) (fd : Int) :
    (∃ c, newClient servs r fd = some c ∧ ∀ openFds, next servs r openFds fd = insert c openFds) ∨
      newClient servs r fd = none ∧ ¬ servs.IsServer fd ∧
        (∀ openFds, next servs r openFds fd = openFds.erase fd) ∨
      newClient servs r fd = none ∧ ∀ openFds, next servs r openFds fd = openFds := by
  unfold newClient next
  cases hr : r fd with
  | none => exact .inr (.inr ⟨by simp, fun _ => rfl⟩)
  | some a =>
    by_cases hserver : servs.IsServer fd
    · by_cases hclient : 0 ≤ a.client
      · exact .inl ⟨a.client, by simp [hserver, hclient], fun _ => by simp [hserver, hclient]⟩
      · exact .inr (.inr ⟨by simp [hserver, hclient], fun _ => by simp [hserver, hclient]⟩)
    · by_cases hclosed : (a.echoed fd).2 = true
      · exact .inr (.inl ⟨by simp [hserver], hserver, fun _ => by simp [hserver, hclosed]⟩)
      · exact .inr (.inr ⟨by simp [hserver], fun _ => by simp [hserver, hclosed]⟩)

theorem card_next_le : (next servs r openFds fd).card ≤
    openFds.card + (newClient servs r fd).toList.length := by
  rcases next_cases servs r fd with ⟨c, hc, hnext⟩ | ⟨hc, -, hnext⟩ | ⟨hc, hnext⟩
  · rw [hc, hnext]
    exact Finset.card_insert_le c openFds
  · rw [hc, hnext]
    exact Finset.card_erase_le
  · rw [hc, hnext]
    exact Nat.le_refl _

theorem mem_next_of_mem {x : Int} (hx : x ∈ openFds) (hne : x ≠ fd) :
    x ∈ next servs r openFds fd := by
  rcases next_cases servs r fd with ⟨c, -, hnext⟩ | ⟨-, -, hnext⟩ | ⟨-, hnext⟩
  · rw [hnext]
    exact Finset.mem_insert_of_mem hx
  · rw [hnext]
    exact Finset.mem_erase.mpr ⟨hne, hx⟩
  · rwa [hnext]

theorem mem_of_mem_next {x : Int} (hx : x ∈ next servs r openFds fd) :
    x ∈ openFds ∨ newClient servs r fd = some x := by
  rcases next_cases servs r fd with ⟨c, hc, hnext⟩ | ⟨-, -, hnext⟩ | ⟨-, hnext⟩
  · rw [hnext] at hx
    rcases Finset.mem_insert.mp hx with rfl | hx
    · exact .inr hc
    · exact .inl hx
  · rw [hnext] at hx
    exact .inl (Finset.mem_of_mem_erase hx)
  · rw [hnext] at hx
    exact .inl hx

/-- The listening sockets are never closed. -/
theorem server_mem_next {x : Int} (hserver : servs.IsServer x) (hx : x ∈ openFds) :
    x ∈ next servs r openFds fd := by
  rcases next_cases servs r fd with ⟨c, -, hnext⟩ | ⟨-, hno, hnext⟩ | ⟨-, hnext⟩
  · rw [hnext]
    exact Finset.mem_insert_of_mem hx
  · rw [hnext]
    refine Finset.mem_erase.mpr ⟨fun heq => hno ?_, hx⟩
    rwa [← heq]
  · rwa [hnext]

theorem isServer_of_newClient (h : newClient servs r fd = some c) : servs.IsServer fd := by
  unfold newClient at h
  split at h
  · assumption
  · exact nomatch h

theorem mem_newClients (h : newClient servs r fd = some c) : c ∈ newClients servs r := by
  refine List.mem_filterMap.mpr ⟨fd, ?_, h⟩
  rcases isServer_of_newClient h with rfl | rfl
  · exact List.mem_cons_self
  · exact List.mem_cons_of_mem _ List.mem_cons_self

theorem newClient_inj (hnodup : (newClients servs r).Nodup) {fd' : Int}
    (h : newClient servs r fd = some c) (h' : newClient servs r fd' = some c) : fd = fd' := by
  by_contra hne
  have htwo : newClient servs r servs.serv4 = some c ∧ newClient servs r servs.serv6 = some c := by
    rcases isServer_of_newClient h with rfl | rfl <;> rcases isServer_of_newClient h' with rfl | rfl
    · exact absurd rfl hne
    · exact ⟨h, h'⟩
    · exact ⟨h', h⟩
    · exact absurd rfl hne
  rw [newClients, List.filterMap_cons_some htwo.1, List.filterMap_cons_some htwo.2] at hnodup
  exact hnodup.notMem List.mem_cons_self

/-- Before a round all descriptors that are ready are still to be handled. -/
theorem Fits.pending (h : Fits numFds openFds (newClients servs r)) {fds : List Int}
    (hnodup : fds.Nodup) (hopen : ∀ fd ∈ fds, fd ∈ openFds) :
    Pending numFds servs r openFds fds where
  nodup := hnodup
  isOpen := hopen
  fits := by
    have hsubset : fds.filterMap (newClient servs r) ⊆ newClients servs r := by
      intro c hc
      obtain ⟨fd, -, hnew⟩ := List.mem_filterMap.mp hc
      exact mem_newClients hnew
    have hnodup' : (fds.filterMap (newClient servs r)).Nodup :=
      hnodup.filterMap fun _ _ _ hx hy => newClient_inj h.nodup hx hy
    refine ⟨fun c hc => h.fresh c (hsubset hc), hnodup', ?_⟩
    have hlength := (List.subperm_of_subset hnodup' hsubset).length_le
    have hroom := h.room
    omega

theorem Pending.tail {fds : List Int} (h : Pending numFds servs r openFds (fd :: fds)) :
    Pending numFds servs r (next servs r openFds fd) fds where
  nodup := h.nodup.of_cons
  isOpen x hx := by
    refine mem_next_of_mem (h.isOpen x (List.mem_cons_of_mem _ hx)) fun heq => ?_
    rw [heq] at hx
    exact h.nodup.notMem hx
  fits := by
    obtain ⟨hfresh, hnodup, hroom⟩ := h.fits
    have hcard : (next servs r openFds fd).card ≤
        openFds.card + (newClient servs r fd).toList.length := card_next_le
    cases hnew : newClient servs r fd with
    | none =>
      rw [List.filterMap_cons_none hnew] at hfresh hnodup hroom
      rw [hnew] at hcard
      refine ⟨fun c hc hmem => ?_, hnodup, Nat.le_trans (Nat.add_le_add_right hcard _) hroom⟩
      rcases mem_of_mem_next hmem with hmem | hno
      · exact hfresh c hc hmem
      · exact nomatch hnew.symm.trans hno
    | some d =>
      rw [List.filterMap_cons_some hnew] at hfresh hnodup hroom
      rw [hnew] at hcard
      refine ⟨fun c hc hmem => ?_, hnodup.of_cons, ?_⟩
      · rcases mem_of_mem_next hmem with hmem | hsome
        · exact hfresh c (List.mem_cons_of_mem _ hc) hmem
        · have heq : d = c := Option.some.inj (hnew.symm.trans hsome)
          rw [← heq] at hc
          exact hnodup.notMem hc
      · simp only [Option.toList_some, List.length_singleton] at hcard
        rw [List.length_cons] at hroom
        omega

/-- A descriptor to be added is a new one, and there is a place for it. -/
theorem Pending.newClient {fds : List Int} (h : Pending numFds servs r openFds (fd :: fds))
    (hnew : newClient servs r fd = some c) : 0 ≤ c ∧ c ∉ openFds ∧ openFds.card < numFds := by
  obtain ⟨hfresh, -, hroom⟩ := h.fits
  rw [List.filterMap_cons_some hnew] at hfresh hroom
  refine ⟨newClient_nonneg hnew, hfresh c List.mem_cons_self, ?_⟩
  rw [List.length_cons] at hroom
  omega

/-- The new clients apart, descriptors that are ready do not interfere. -/
theorem next_comm {x y : Int} (hx : x ∈ openFds) (hy : y ∈ openFds)
    (hfresh : ∀ fd c, newClient servs r fd = some c → c ∉ openFds) (fds : Finset Int) :
    next servs r (next servs r fds x) y = next servs r (next servs r fds y) x := by
  rcases next_cases servs r x with ⟨c, hc, hnext⟩ | ⟨-, -, hnext⟩ | ⟨-, hnext⟩ <;>
    rcases next_cases servs r y with ⟨d, hd, hnext'⟩ | ⟨-, -, hnext'⟩ | ⟨-, hnext'⟩ <;>
    simp only [hnext, hnext']
  · exact Finset.insert_comm d c fds
  · refine Finset.erase_insert_of_ne fun heq => hfresh x c hc ?_
    rwa [heq]
  · refine (Finset.erase_insert_of_ne fun heq => hfresh y d hd ?_).symm
    rwa [heq]
  · exact Finset.erase_right_comm

theorem setblocking_of_mem (h : fd ∈ s.openFds) : s.setblocking fd = s := if_pos h

/-- A new client is watched and open. -/
theorem addClient_accepted {w : ω} (hadd : watch.pollfdsAdd s.watch c = some w) (hc : 0 ≤ c) :
    addClient watch (s.accepted c) fd c =
      { s with
        watch := w, openFds := insert c s.openFds, done := s.done ++ [(fd, accepts c)] } := by
  have hacc : s.accepted c = { s with openFds := insert c s.openFds } := if_pos hc
  rw [hacc]
  simp only [addClient, hadd]
  exact setblocking_of_mem (Finset.mem_insert_self c s.openFds)

/-- A client socket that is open gets its bytes back, and is closed at the end of its stream or at
an error. -/
theorem echo_eq (hopen : fd ∈ s.openFds) (hrunning : s.exited = false) (a : Answer) :
    echo watch s fd a =
      if (a.echoed fd).2 then
        { s with watch := watch.pollfdsDel s.watch fd, openFds := s.openFds.erase fd,
                 done := s.done ++ [(fd, (a.echoed fd).1)] }
      else { s with done := s.done ++ [(fd, (a.echoed fd).1)] } := by
  have hgoes : ¬ s.exited = true := by simp [hrunning]
  unfold echo Answer.echoed
  split
  · rfl
  · rfl
  · simp only [setblocking_of_mem hopen, if_neg hgoes]
    split
    · rfl
    · exact setblocking_of_mem (s := s.log fd _) hopen

/-- What is done with a client socket closes it at most, and has it watched no longer at most. -/
theorem echo_openFds_subset : (echo watch s fd a).openFds ⊆ s.openFds := by
  have hset (s : Server ω) (fd : Int) : (s.setblocking fd).openFds = s.openFds := by
    unfold Server.setblocking
    split <;> rfl
  unfold echo
  split
  · exact Finset.erase_subset fd s.openFds
  · exact Finset.erase_subset fd s.openFds
  · simp only
    split
    · rw [hset]
    · split
      · refine (Finset.erase_subset fd _).trans ?_
        rw [hset]
      · rw [hset]
        exact (hset s fd).subset

theorem echo_watch :
    (echo watch s fd a).watch = s.watch ∨
      (echo watch s fd a).watch = watch.pollfdsDel s.watch fd := by
  have hset (s : Server ω) (fd : Int) : (s.setblocking fd).watch = s.watch := by
    unfold Server.setblocking
    split <;> rfl
  unfold echo
  split
  · exact .inr rfl
  · exact .inr rfl
  · simp only
    split
    · exact .inl (hset s fd)
    · split
      · refine .inr ?_
        show watch.pollfdsDel (s.setblocking fd).watch fd = _
        rw [hset]
      · rw [hset]
        exact .inl (hset s fd)

end EchoAsync
end ZephyrSamples
