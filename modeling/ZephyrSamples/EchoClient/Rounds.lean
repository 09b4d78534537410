import Mathlib.Data.Fintype.Basic
import Mathlib.Data.List.Nodup
import Mathlib.Data.List.Perm.Subperm
import Mathlib.Logic.Function.Basic
import ZephyrSamples.EchoClient.KeepRunning

/-!
# The sockets of the echo client over its rounds

`start_udp_and_tcp`, `prepare_fds` and `stop_udp_and_tcp`, under the main loop of the echo client.
`nfds` is never set back, and stopping leaves the numbers of the closed sockets behind: the poll set
and the sockets are right as long as no second round is started, but for one that fails before it
comes to a socket number of an earlier round. -/

namespace ZephyrSamples
namespace EchoClient
namespace Rounds

open Runs KeepRunning

/-- The sockets `conf.ipv4.udp.sock`, `conf.ipv4.tcp.sock`, `conf.ipv6.udp.sock` and
`conf.ipv6.tcp.sock`. -/
inductive Proto where
  | udp4
  | tcp4
  | udp6
  | tcp6
  deriving DecidableEq, Repr

instance : Fintype Proto :=
  ⟨{.udp4, .tcp4, .udp6, .tcp6}, fun p => by cases p <;> decide⟩

/-- The length of `fds`. -/
def fdsSize : Nat := 4

/-- The file-scope state: `writes` are the indices of `fds` that were written, `openFds` the
descriptors that are open and `closed` those passed to `close`, with whether they were open.
`opened` are the sockets opened in this round, and `succeeded` says that a start has returned 0. -/
structure Sockets where
  sock : Proto → Int
  fds : Nat → Int
  nfds : Nat
  writes : List Nat
  openFds : List Int
  closed : List (Int × Bool)
  opened : List Proto
  succeeded : Bool

/-- All numbers are INVALID_SOCK. -/
def Sockets.init : Sockets where
  sock _ := -1
  fds _ := 0
  nfds := 0
  writes := []
  openFds := []
  closed := []
  opened := []
  succeeded := false

/-- What the kernel answers in a round: what `socket` returns, whether `connect` and the first
`send` succeed, and what `run_udp_and_tcp` returns. -/
structure Answers where
  socket : Proto → Int
  connects : Proto → Bool
  sends : Proto → Bool
  ret : Int

/-- `start_tcp_proto` or `start_udp_proto`, with whether it succeeds. -/
def startProto (a : Answers) (k : Sockets) (p : Proto) : Sockets × Bool :=
  let k := { k with sock := Function.update k.sock p (a.socket p) }
  if a.socket p < 0 then (k, false)
  else ({ k with openFds := k.openFds ++ [a.socket p], opened := k.opened ++ [p] }, a.connects p)

/-- What `start_tcp` and `start_udp` do with the two families. -/
def startBoth (a : Answers) (v6 v4 : Proto) (k : Sockets) : Sockets × Bool :=
  let six := startProto a k v6
  if six.2 then
    let four := startProto a six.1 v4
    if four.2 then (four.1, a.sends v6 && a.sends v4) else four
  else six

def startTcp (a : Answers) (k : Sockets) : Sockets × Bool := startBoth a .tcp6 .tcp4 k

def startUdp (a : Answers) (k : Sockets) : Sockets × Bool := startBoth a .udp6 .udp4 k

/-- An `if` of `prepare_fds`. -/
def prepareFd (k : Sockets) (p : Proto) : Sockets :=
  if 0 ≤ k.sock p then
    { k with fds := Function.update k.fds k.nfds (k.sock p), writes := k.writes ++ [k.nfds]
             nfds := k.nfds + 1 }
  else k

def prepareFds (k : Sockets) : Sockets := [.udp4, .tcp4, .udp6, .tcp6].foldl prepareFd k

/-- The sockets with what is returned; an error is −1, whatever its number. -/
def startUdpAndTcp (a : Answers) (k : Sockets) : Sockets × Int :=
  let tcp := startTcp a k
  if tcp.2 then
    let udp := startUdp a tcp.1
    if udp.2 then ({ prepareFds udp.1 with succeeded := true }, 0) else (udp.1, -1)
  else (tcp.1, -1)

/-- An `if` of `stop_tcp` or `stop_udp`. -/
def stopProto (k : Sockets) (p : Proto) : Sockets :=
  if 0 ≤ k.sock p then
    { k with closed := k.closed ++ [(k.sock p, decide (k.sock p ∈ k.openFds))]
             openFds := k.openFds.erase (k.sock p) }
  else k

/-- In the order they are closed in. -/
def stopOrder : List Proto := [.udp6, .udp4, .tcp6, .tcp4]

def stopUdpAndTcp (k : Sockets) : Sockets := { stopOrder.foldl stopProto k with opened := [] }

/-- The echo client: its main loop and its sockets. -/
structure Client where
  app : App
  sockets : Sockets

def start : Client := ⟨initApp, .init⟩

/-- A statement of `main`, or an L4 event. -/
inductive Event where
  | main (a : Answers)
  | l4Connected
  | l4Disconnected

def step (iterations : Int) (s : Client) : Event → Client
  | .main a =>
    match s.app.pc with
    | .startUdpAndTcp =>
      let started := startUdpAndTcp a s.sockets
      ⟨mainStep iterations s.app started.2, started.1⟩
    | .runUdpAndTcp => ⟨mainStep iterations s.app a.ret, s.sockets⟩
    | .stopUdpAndTcp => ⟨mainStep iterations s.app 0, stopUdpAndTcp s.sockets⟩
    | _ => ⟨mainStep iterations s.app 0, s.sockets⟩
  | .l4Connected => ⟨eventHandler s.app true, s.sockets⟩
  | .l4Disconnected => ⟨eventHandler s.app false, s.sockets⟩

/-- What `poll` is given. -/
def Sockets.pollSet (k : Sockets) : List Int := (List.range k.nfds).map k.fds

/-- Main has not started a round, or has stopped it. -/
def BetweenRounds : MainPc → Prop
  | .whileIterations => True
  | .takeRunApp => True
  | .startUdpAndTcp => True
  | .exited => True
  | _ => False

/-- The poll set stays within `fds` and is right when `wait` polls, and a descriptor is closed only
when it is open, and has been when its round is over. -/
structure Sound (s : Client) : Prop where
  nfds : s.sockets.nfds ≤ fdsSize
  writes : ∀ i ∈ s.sockets.writes, i < fdsSize
  polled : s.app.pc = .runUdpAndTcp → s.sockets.pollSet.Perm s.sockets.openFds ∧
    s.sockets.openFds.Nodup ∧ s.sockets.openFds = s.sockets.opened.map s.sockets.sock
  closed : ∀ c ∈ s.sockets.closed, c.2 = true
  released : BetweenRounds s.app.pc → s.sockets.openFds = []

/-- `socket` returns descriptors that are not open. -/
def Possible (s : Client) : Event → Prop
  | .main a => s.app.pc = .startUdpAndTcp → ∀ p, 0 ≤ a.socket p →
      a.socket p ∉ s.sockets.openFds ∧ ∀ q, a.socket q = a.socket p → q = p
  | _ => True

instance (s : Client) : (e : Event) → Decidable (Possible s e)
  | .main _ => inferInstanceAs (Decidable (_ → _))
  | .l4Connected => inferInstanceAs (Decidable True)
  | .l4Disconnected => inferInstanceAs (Decidable True)

/-- All calls of a start succeed. -/
def Answers.Succeed (a : Answers) : Prop :=
  ∀ p, 0 ≤ a.socket p ∧ a.connects p = true ∧ a.sends p = true

instance (a : Answers) : Decidable a.Succeed := inferInstanceAs (Decidable (∀ _, _))

/-- No start succeeds after an earlier one has, and stopping finds no number of a socket that was
opened in an earlier round. -/
def Careful (s : Client) : Event → Prop
  | .main a =>
    match s.app.pc with
    | .startUdpAndTcp => a.Succeed → s.sockets.succeeded = false
    | .stopUdpAndTcp => ∀ p, 0 ≤ s.sockets.sock p → p ∈ s.sockets.opened
    | _ => True
  | _ => True

instance (s : Client) (e : Event) : Decidable (Careful s e) := by
  cases e <;> unfold Careful
  · cases s.app.pc <;> infer_instance
  · infer_instance
  · infer_instance

/-- The sockets opened in a round are those that are open. -/
structure Opening (k : Sockets) : Prop where
  opened : k.opened.Nodup
  openFds : k.openFds = k.opened.map k.sock
  nodup : k.openFds.Nodup
  nonneg : ∀ p ∈ k.opened, 0 ≤ k.sock p

structure Inv (s : Client) : Prop where
  nfds : s.sockets.nfds = if s.sockets.succeeded then fdsSize else 0
  writes : ∀ i ∈ s.sockets.writes, i < fdsSize
  closed : ∀ c ∈ s.sockets.closed, c.2 = true
  opening : Opening s.sockets
  polled : s.app.pc = .runUdpAndTcp ∨ s.app.pc = .ifIterations ∨
    s.app.pc = .whileConnected ∧ s.app.ret = 0 → s.sockets.pollSet.Perm s.sockets.openFds
  released : BetweenRounds s.app.pc → s.sockets.openFds = []

variable {iterations : Int} {s : Client} {e : Event} {a : Answers} {k : Sockets} {p v6 v4 : Proto}

theorem inv_start : Inv start where
  nfds := rfl
  writes _ h := nomatch h
  closed _ h := nomatch h
  opening := ⟨List.nodup_nil, rfl, List.nodup_nil, fun _ h => nomatch h⟩
  polled h := by rcases h with h | h | ⟨h, -⟩ <;> exact nomatch h
  released _ := rfl

theorem Inv.sound (h : Inv s) : Sound s where
  nfds := by
    rw [h.nfds]
    split
    · exact Nat.le_refl _
    · exact Nat.zero_le _
  writes := h.writes
  polled hpc := ⟨h.polled (.inl hpc), h.opening.nodup, h.opening.openFds⟩
  closed := h.closed
  released := h.released

/-- What a start changes when it does not succeed, or before it prepares the poll set. -/
def SameButSockets (k k' : Sockets) : Prop :=
  k'.fds = k.fds ∧ k'.nfds = k.nfds ∧ k'.writes = k.writes ∧ k'.closed = k.closed ∧
    k'.succeeded = k.succeeded

theorem startProto_same : SameButSockets k (startProto a k p).1 := by
  unfold startProto
  simp only
  split <;> exact ⟨rfl, rfl, rfl, rfl, rfl⟩

theorem SameButSockets.trans {k' k'' : Sockets} (h : SameButSockets k k')
    (h' : SameButSockets k' k'') : SameButSockets k k'' := by
  obtain ⟨h1, h2, h3, h4, h5⟩ := h
  obtain ⟨h1', h2', h3', h4', h5'⟩ := h'
  exact ⟨h1'.trans h1, h2'.trans h2, h3'.trans h3, h4'.trans h4, h5'.trans h5⟩

theorem startBoth_same : SameButSockets k (startBoth a v6 v4 k).1 := by
  unfold startBoth
  simp only
  split
  · split
    · exact startProto_same.trans startProto_same
    · exact startProto_same.trans startProto_same
  · exact startProto_same

/-- The sockets in `rest` are not opened yet, and the descriptors for them are not open. -/
def Fresh (a : Answers) (k : Sockets) (p : Proto) : Prop :=
  p ∉ k.opened ∧ (0 ≤ a.socket p → a.socket p ∉ k.openFds)

theorem opening_startProto (h : Opening k) (hp : Fresh a k p) : Opening (startProto a k p).1 := by
  have hmap : k.opened.map (Function.update k.sock p (a.socket p)) = k.opened.map k.sock := by
    refine List.map_congr_left fun q hq => Function.update_of_ne ?_ _ _
    rintro rfl
    exact hp.1 hq
  have hsame (q : Proto) (hq : q ∈ k.opened) :
      Function.update k.sock p (a.socket p) q = k.sock q := by
    refine Function.update_of_ne ?_ _ _
    rintro rfl
    exact hp.1 hq
  unfold startProto
  simp only
  split
  · refine ⟨h.opened, h.openFds.trans hmap.symm, h.nodup, fun q hq => ?_⟩
    show 0 ≤ Function.update k.sock p (a.socket p) q
    rw [hsame q hq]
    exact h.nonneg q hq
  · rename_i hsocket
    have hpos : 0 ≤ a.socket p := Int.not_lt.mp hsocket
    refine ⟨?_, ?_, ?_, fun q hq => ?_⟩
    · exact List.nodup_append.mpr ⟨h.opened, List.nodup_singleton p, fun q hq r hr heq => by
        rw [heq, List.mem_singleton.mp hr] at hq
        exact hp.1 hq⟩
    · show k.openFds ++ [a.socket p] =
        (k.opened ++ [p]).map (Function.update k.sock p (a.socket p))
      rw [List.map_append, hmap, h.openFds, List.map_singleton, Function.update_self]
    · exact List.nodup_append.mpr ⟨h.nodup, List.nodup_singleton _, fun x hx y hy heq => by
        rw [heq, List.mem_singleton.mp hy] at hx
        exact hp.2 hpos hx⟩
    · show 0 ≤ Function.update k.sock p (a.socket p) q
      rcases List.mem_append.mp hq with hq | hq
      · rw [hsame q hq]
        exact h.nonneg q hq
      · rw [List.mem_singleton.mp hq, Function.update_self]
        exact hpos

theorem fresh_startProto {q : Proto} (hq : Fresh a k q) (hne : q ≠ p)
    (hdistinct : 0 ≤ a.socket q → a.socket q ≠ a.socket p) :
    Fresh a (startProto a k p).1 q := by
  unfold startProto
  simp only
  split
  · exact hq
  · constructor
    · rw [List.mem_append, List.mem_singleton]
      rintro (hno | hno)
      · exact hq.1 hno
      · exact hne hno
    · intro hpos
      rw [List.mem_append, List.mem_singleton]
      rintro (hno | hno)
      · exact hq.2 hpos hno
      · exact hdistinct hpos hno

theorem startProto_ok (h : (startProto a k p).2 = true) :
    0 ≤ a.socket p ∧ a.connects p = true ∧ (startProto a k p).1.opened = k.opened ++ [p] := by
  unfold startProto at h ⊢
  simp only at h ⊢
  split at h
  · exact nomatch h
  · rename_i hsocket
    rw [if_neg hsocket]
    exact ⟨Int.not_lt.mp hsocket, h, rfl⟩

theorem startProto_of_ok (h : 0 ≤ a.socket p) : (startProto a k p).2 = a.connects p := by
  unfold startProto
  simp only [if_neg (Int.not_lt.mpr h)]

/-- When different sockets are given different descriptors. -/
def Distinct (a : Answers) : Prop := ∀ p, 0 ≤ a.socket p → ∀ q, a.socket q = a.socket p → q = p

theorem opening_startBoth (h : Opening k) (hdistinct : Distinct a) (hne : v4 ≠ v6)
    (h6 : Fresh a k v6) (h4 : Fresh a k v4) : Opening (startBoth a v6 v4 k).1 := by
  have h4' : Fresh a (startProto a k v6).1 v4 :=
    fresh_startProto h4 hne fun hpos heq => hne.symm (hdistinct v4 hpos v6 heq.symm)
  unfold startBoth
  simp only
  split
  · split
    · exact opening_startProto (opening_startProto h h6) h4'
    · exact opening_startProto (opening_startProto h h6) h4'
  · exact opening_startProto h h6

theorem fresh_startBoth {q : Proto} (hdistinct : Distinct a) (hq : Fresh a k q) (h6 : q ≠ v6)
    (h4 : q ≠ v4) : Fresh a (startBoth a v6 v4 k).1 q := by
  have hfirst : Fresh a (startProto a k v6).1 q :=
    fresh_startProto hq h6 fun hpos heq => h6.symm (hdistinct q hpos v6 heq.symm)
  have hsecond : Fresh a (startProto a (startProto a k v6).1 v4).1 q :=
    fresh_startProto hfirst h4 fun hpos heq => h4.symm (hdistinct q hpos v4 heq.symm)
  unfold startBoth
  simp only
  split
  · split <;> exact hsecond
  · exact hfirst

theorem startBoth_ok (h : (startBoth a v6 v4 k).2 = true) :
    (0 ≤ a.socket v6 ∧ a.connects v6 = true ∧ a.sends v6 = true) ∧
      (0 ≤ a.socket v4 ∧ a.connects v4 = true ∧ a.sends v4 = true) ∧
      (startBoth a v6 v4 k).1.opened = k.opened ++ [v6, v4] := by
  unfold startBoth at h ⊢
  simp only at h ⊢
  split at h
  · rename_i hsix
    obtain ⟨hsocket, hconnect, hopened⟩ := startProto_ok hsix
    rw [if_pos hsix]
    split at h
    · rename_i hfour
      obtain ⟨hsocket', hconnect', hopened'⟩ := startProto_ok hfour
      obtain ⟨hsend, hsend'⟩ : a.sends v6 = true ∧ a.sends v4 = true := by simpa using h
      rw [if_pos hfour]
      refine ⟨⟨hsocket, hconnect, hsend⟩, ⟨hsocket', hconnect', hsend'⟩, ?_⟩
      rw [hopened', hopened, List.append_assoc]
      rfl
    · rename_i hfour
      exact absurd h hfour
  · rename_i hsix
    exact absurd h hsix

theorem startBoth_of_succeed (h : a.Succeed) : (startBoth a v6 v4 k).2 = true := by
  obtain ⟨hsocket, hconnect, hsend⟩ := h v6
  obtain ⟨hsocket', hconnect', hsend'⟩ := h v4
  have hsix : (startProto a k v6).2 = true := (startProto_of_ok hsocket).trans hconnect
  have hfour : (startProto a (startProto a k v6).1 v4).2 = true :=
    (startProto_of_ok hsocket').trans hconnect'
  simp [startBoth, hsix, hfour, hsend, hsend']

/-- A start opens all four sockets and puts them into the poll set, or fails with those open that it
has opened. -/
theorem startUdpAndTcp_cases (h : Opening k) (hopened : k.opened = [])
    (hfresh : ∀ p, 0 ≤ a.socket p → a.socket p ∉ k.openFds) (hdistinct : Distinct a) :
    (a.Succeed ∧ ∃ k', Opening k' ∧ SameButSockets k k' ∧
      k'.opened = [.tcp6, .tcp4, .udp6, .udp4] ∧
      startUdpAndTcp a k = ({ prepareFds k' with succeeded := true }, 0)) ∨
    (¬ a.Succeed ∧ Opening (startUdpAndTcp a k).1 ∧ SameButSockets k (startUdpAndTcp a k).1 ∧
      (startUdpAndTcp a k).2 = -1) := by
  have hall (p : Proto) : Fresh a k p := ⟨by rw [hopened]; exact List.not_mem_nil, hfresh p⟩
  have htcp : Opening (startTcp a k).1 :=
    opening_startBoth h hdistinct (by decide) (hall _) (hall _)
  have htcp' : SameButSockets k (startTcp a k).1 := startBoth_same
  have hudp : Opening (startUdp a (startTcp a k).1).1 :=
    opening_startBoth htcp hdistinct (by decide)
      (fresh_startBoth hdistinct (hall _) (by decide) (by decide))
      (fresh_startBoth hdistinct (hall _) (by decide) (by decide))
  have hudp' : SameButSockets k (startUdp a (startTcp a k).1).1 := htcp'.trans startBoth_same
  cases htcpOk : (startTcp a k).2 with
  | false =>
    refine .inr ⟨fun hsucceed => ?_, ?_⟩
    · exact Bool.false_ne_true (htcpOk.symm.trans (startBoth_of_succeed hsucceed))
    · have hstart : startUdpAndTcp a k = ((startTcp a k).1, -1) := by simp [startUdpAndTcp, htcpOk]
      rw [hstart]
      exact ⟨htcp, htcp', rfl⟩
  | true =>
    cases hudpOk : (startUdp a (startTcp a k).1).2 with
    | false =>
      refine .inr ⟨fun hsucceed => ?_, ?_⟩
      · exact Bool.false_ne_true (hudpOk.symm.trans (startBoth_of_succeed hsucceed))
      · have hstart : startUdpAndTcp a k = ((startUdp a (startTcp a k).1).1, -1) := by
          simp [startUdpAndTcp, htcpOk, hudpOk]
        rw [hstart]
        exact ⟨hudp, hudp', rfl⟩
    | true =>
      obtain ⟨htcp6, htcp4, hopened'⟩ := startBoth_ok htcpOk
      obtain ⟨hudp6, hudp4, hopened''⟩ := startBoth_ok hudpOk
      refine .inl ⟨fun p => ?_, _, hudp, hudp', ?_, by simp [startUdpAndTcp, htcpOk, hudpOk]⟩
      · cases p with
        | udp4 => exact hudp4
        | tcp4 => exact htcp4
        | udp6 => exact hudp6
        | tcp6 => exact htcp6
      · rw [startUdp, hopened'', startTcp, hopened', hopened]
        rfl

theorem mem_all {ps : List Proto} (h : ps = [.tcp6, .tcp4, .udp6, .udp4]) (p : Proto) : p ∈ ps := by
  rw [h]
  cases p <;> decide

theorem prepareFds_eq (h : ∀ p, 0 ≤ k.sock p) :
    (prepareFds k).writes = k.writes ++ [k.nfds, k.nfds + 1, k.nfds + 2, k.nfds + 3] ∧
      (prepareFds k).nfds = k.nfds + 4 ∧ (prepareFds k).sock = k.sock ∧
      (prepareFds k).openFds = k.openFds ∧ (prepareFds k).closed = k.closed ∧
      (prepareFds k).opened = k.opened := by
  simp [prepareFds, prepareFd, h]

theorem pollSet_prepareFds (h : ∀ p, 0 ≤ k.sock p) (hzero : k.nfds = 0) :
    (prepareFds k).pollSet = [Proto.udp4, .tcp4, .udp6, .tcp6].map k.sock := by
  simp [Sockets.pollSet, prepareFds, prepareFd, h, hzero, List.range_succ]

/-- The descriptors are in the poll set after a start that is the first to succeed. -/
theorem polled_prepareFds (h : Opening k) (hopened : k.opened = [.tcp6, .tcp4, .udp6, .udp4])
    (hzero : k.nfds = 0) : (prepareFds k).pollSet.Perm k.openFds := by
  rw [pollSet_prepareFds (fun p => h.nonneg p (mem_all hopened p)) hzero, h.openFds, hopened]
  exact List.Perm.map k.sock (by decide)

/-- The sockets that stopping passes to `close`. -/
def toClose (k : Sockets) (ps : List Proto) : List Proto := ps.filter fun p => 0 ≤ k.sock p

theorem toClose_stopProto {ps : List Proto} : toClose (stopProto k p) ps = toClose k ps := by
  unfold toClose stopProto
  split <;> rfl

theorem sock_stopProto : (stopProto k p).sock = k.sock := by
  unfold stopProto
  split <;> rfl

/-- Descriptors that are open are each closed once. -/
theorem foldl_stopProto {ps : List Proto} (hopen : k.openFds.Perm ((toClose k ps).map k.sock))
    (hclosed : ∀ c ∈ k.closed, c.2 = true) :
    (ps.foldl stopProto k).openFds = [] ∧ ∀ c ∈ (ps.foldl stopProto k).closed, c.2 = true := by
  induction ps generalizing k with
  | nil => exact ⟨List.perm_nil.mp hopen, hclosed⟩
  | cons p ps ih =>
    rw [List.foldl_cons]
    by_cases hpos : 0 ≤ k.sock p
    · have hcons : toClose k (p :: ps) = p :: toClose k ps :=
        List.filter_cons_of_pos (by simpa using hpos)
      rw [hcons, List.map_cons] at hopen
      have hmem : k.sock p ∈ k.openFds := hopen.mem_iff.mpr List.mem_cons_self
      have hnext : stopProto k p =
          { k with closed := k.closed ++ [(k.sock p, true)]
                   openFds := k.openFds.erase (k.sock p) } := by
        simp [stopProto, hpos, hmem]
      refine ih ?_ ?_
      · rw [toClose_stopProto, sock_stopProto, hnext]
        have herase := hopen.erase (k.sock p)
        rwa [List.erase_cons_head] at herase
      · rw [hnext]
        intro c hc
        rcases List.mem_append.mp hc with hc | hc
        · exact hclosed c hc
        · rw [List.mem_singleton.mp hc]
    · have hcons : toClose k (p :: ps) = toClose k ps :=
        List.filter_cons_of_neg (by simpa using hpos)
      have hnext : stopProto k p = k := if_neg hpos
      rw [hnext]
      exact ih (hcons ▸ hopen) hclosed

theorem closed_foldl_stopProto {c : Int × Bool} (hc : c ∈ k.closed) (ps : List Proto) :
    c ∈ (ps.foldl stopProto k).closed := by
  induction ps generalizing k with
  | nil => exact hc
  | cons p ps ih =>
    refine ih ?_
    unfold stopProto
    split
    · exact List.mem_append_left _ hc
    · exact hc

/-- No more descriptors can be closed than are open. -/
theorem length_toClose_le {ps : List Proto}
    (h : ∀ c ∈ (ps.foldl stopProto k).closed, c.2 = true) :
    (toClose k ps).length ≤ k.openFds.length := by
  induction ps generalizing k with
  | nil => exact Nat.zero_le _
  | cons p ps ih =>
    rw [List.foldl_cons] at h
    have hrest := ih h
    rw [toClose_stopProto] at hrest
    by_cases hpos : 0 ≤ k.sock p
    · have hcons : toClose k (p :: ps) = p :: toClose k ps :=
        List.filter_cons_of_pos (by simpa using hpos)
      have hnext : stopProto k p =
          { k with closed := k.closed ++ [(k.sock p, decide (k.sock p ∈ k.openFds))]
                   openFds := k.openFds.erase (k.sock p) } := if_pos hpos
      have hmem : k.sock p ∈ k.openFds := by
        have hlogged : (k.sock p, decide (k.sock p ∈ k.openFds)) ∈ (stopProto k p).closed := by
          rw [hnext]
          exact List.mem_append_right _ List.mem_cons_self
        exact of_decide_eq_true (h _ (closed_foldl_stopProto hlogged ps))
      rw [hnext] at hrest
      have hlength := List.length_erase_of_mem hmem
      have hlt := List.length_pos_of_mem hmem
      rw [hcons, List.length_cons]
      simp only at hrest
      omega
    · have hcons : toClose k (p :: ps) = toClose k ps :=
        List.filter_cons_of_neg (by simpa using hpos)
      have hnext : stopProto k p = k := if_neg hpos
      rw [hnext] at hrest
      rwa [hcons]

theorem mem_toClose_stopOrder : p ∈ toClose k stopOrder ↔ 0 ≤ k.sock p := by
  have hall : p ∈ stopOrder := by cases p <;> decide
  simp [toClose, hall]

theorem nodup_toClose_stopOrder : (toClose k stopOrder).Nodup :=
  List.Nodup.filter _ (by decide : stopOrder.Nodup)

/-- With no number of an earlier round left, the descriptors of this round are closed. -/
theorem stop_releases (h : Opening k) (hclosed : ∀ c ∈ k.closed, c.2 = true)
    (hown : ∀ p, 0 ≤ k.sock p → p ∈ k.opened) :
    (stopUdpAndTcp k).openFds = [] ∧ ∀ c ∈ (stopUdpAndTcp k).closed, c.2 = true := by
  have hperm : k.opened.Perm (toClose k stopOrder) :=
    (List.perm_ext_iff_of_nodup h.opened nodup_toClose_stopOrder).mpr fun p =>
      ⟨fun hp => mem_toClose_stopOrder.mpr (h.nonneg p hp),
        fun hp => hown p (mem_toClose_stopOrder.mp hp)⟩
  refine foldl_stopProto ?_ hclosed
  rw [h.openFds]
  exact hperm.map k.sock

/-- A number of an earlier round makes one descriptor too many to close. -/
theorem own_of_closed (h : Opening k) (hclosed : ∀ c ∈ (stopUdpAndTcp k).closed, c.2 = true)
    (hpos : 0 ≤ k.sock p) : p ∈ k.opened := by
  by_contra hstale
  have hsubset : p :: k.opened ⊆ toClose k stopOrder := by
    intro q hq
    rcases List.mem_cons.mp hq with rfl | hq
    · exact mem_toClose_stopOrder.mpr hpos
    · exact mem_toClose_stopOrder.mpr (h.nonneg q hq)
  have hmore := (List.subperm_of_subset (List.nodup_cons.mpr ⟨hstale, h.opened⟩) hsubset).length_le
  have hle : (toClose k stopOrder).length ≤ k.openFds.length := length_toClose_le hclosed
  rw [h.openFds, List.length_map] at hle
  rw [List.length_cons] at hmore
  omega

theorem stop_same : (stopUdpAndTcp k).nfds = k.nfds ∧ (stopUdpAndTcp k).writes = k.writes ∧
    (stopUdpAndTcp k).succeeded = k.succeeded := by
  have hstep (k : Sockets) (p : Proto) : (stopProto k p).nfds = k.nfds ∧
      (stopProto k p).writes = k.writes ∧ (stopProto k p).succeeded = k.succeeded := by
    unfold stopProto
    split <;> exact ⟨rfl, rfl, rfl⟩
  have hfold (ps : List Proto) (k : Sockets) : (ps.foldl stopProto k).nfds = k.nfds ∧
      (ps.foldl stopProto k).writes = k.writes ∧
      (ps.foldl stopProto k).succeeded = k.succeeded := by
    induction ps generalizing k with
    | nil => exact ⟨rfl, rfl, rfl⟩
    | cons p ps ih =>
      obtain ⟨h1, h2, h3⟩ := hstep k p
      obtain ⟨h1', h2', h3'⟩ := ih (stopProto k p)
      exact ⟨h1'.trans h1, h2'.trans h2, h3'.trans h3⟩
  exact hfold stopOrder k

/-- Main goes on, and the sockets stay. -/
theorem Inv.move (h : Inv s) {app : App}
    (hpolled : app.pc = .runUdpAndTcp ∨ app.pc = .ifIterations ∨
      app.pc = .whileConnected ∧ app.ret = 0 → s.sockets.pollSet.Perm s.sockets.openFds)
    (hreleased : BetweenRounds app.pc → s.sockets.openFds = []) : Inv ⟨app, s.sockets⟩ :=
  ⟨h.nfds, h.writes, h.closed, h.opening, hpolled, hreleased⟩

/-- A round starts with no socket open. -/
theorem Inv.opened_eq_nil (h : Inv s) (hpc : s.app.pc = .startUdpAndTcp) :
    s.sockets.opened = [] := by
  have hreleased : s.sockets.openFds = [] := h.released (by rw [hpc]; trivial)
  have hmap := h.opening.openFds
  rw [hreleased] at hmap
  exact List.map_eq_nil_iff.mp hmap.symm

theorem opening_prepareFds (h : Opening k) (hpos : ∀ p, 0 ≤ k.sock p) :
    Opening (prepareFds k) := by
  obtain ⟨-, -, hsock, hopenFds, -, hopened⟩ := prepareFds_eq hpos
  refine ⟨?_, ?_, ?_, ?_⟩
  · rw [hopened]
    exact h.opened
  · rw [hopenFds, hopened, hsock]
    exact h.openFds
  · rw [hopenFds]
    exact h.nodup
  · rw [hopened, hsock]
    exact h.nonneg

theorem inv_startUdpAndTcp (h : Inv s) (hpc : s.app.pc = .startUdpAndTcp)
    (hpossible : Possible s (.main a)) (hcareful : a.Succeed → s.sockets.succeeded = false) :
    Inv (step iterations s (.main a)) := by
  have hnext : step iterations s (.main a) =
      ⟨mainStep iterations s.app (startUdpAndTcp a s.sockets).2,
        (startUdpAndTcp a s.sockets).1⟩ := by
    simp only [step, hpc]
  have hmain (ret : Int) :
      mainStep iterations s.app ret = { s.app with ret := ret, pc := .whileConnected } := by
    simp only [mainStep, hpc]
  rw [hnext, hmain]
  rcases startUdpAndTcp_cases h.opening (h.opened_eq_nil hpc) (fun p hp => (hpossible hpc p hp).1)
    (fun p hp => (hpossible hpc p hp).2) with
    ⟨hsucceed, k', hopening, ⟨-, hnfds, hwrites, hclosed, -⟩, hall, hstart⟩ |
    ⟨-, hopening, ⟨hfds, hnfds, hwrites, hclosed, hsucceeded⟩, hret⟩
  · have hzero : k'.nfds = 0 := by
      rw [hnfds, h.nfds, hcareful hsucceed]
      rfl
    have hpos (p : Proto) : 0 ≤ k'.sock p := hopening.nonneg p (mem_all hall p)
    obtain ⟨hwrites', hnfds', -, hopenFds, hclosed', -⟩ := prepareFds_eq hpos
    have hpolled := polled_prepareFds hopening hall hzero
    rw [hstart]
    refine ⟨?_, fun i hi => ?_, ?_, ?_, fun _ => ?_, fun hno => hno.elim⟩
    · show (prepareFds k').nfds = fdsSize
      rw [hnfds', hzero]
      rfl
    · have hi' : i ∈ (prepareFds k').writes := hi
      rw [hwrites', hzero, List.mem_append, hwrites] at hi'
      rcases hi' with hi' | hi'
      · exact h.writes i hi'
      · simp only [List.mem_cons, List.not_mem_nil, or_false] at hi'
        unfold fdsSize
        omega
    · show ∀ c ∈ (prepareFds k').closed, c.2 = true
      rw [hclosed', hclosed]
      exact h.closed
    · have hprepared := opening_prepareFds hopening hpos
      exact ⟨hprepared.opened, hprepared.openFds, hprepared.nodup, hprepared.nonneg⟩
    · show (prepareFds k').pollSet.Perm (prepareFds k').openFds
      rw [hopenFds]
      exact hpolled
  · rw [hret]
    refine ⟨?_, ?_, ?_, hopening, fun hno => ?_, fun hno => hno.elim⟩
    · rw [hnfds, hsucceeded]
      exact h.nfds
    · rw [hwrites]
      exact h.writes
    · rw [hclosed]
      exact h.closed
    · rcases hno with hno | hno | ⟨-, hno⟩
      · exact absurd hno (by simp)
      · exact absurd hno (by simp)
      · exact absurd hno (by simp)

/-- A second start that succeeds writes behind the end of `fds`. -/
theorem succeeded_of_sound (h : Inv s) (hpc : s.app.pc = .startUdpAndTcp)
    (hpossible : Possible s (.main a)) (hsound : Sound (step iterations s (.main a)))
    (hsucceed : a.Succeed) : s.sockets.succeeded = false := by
  rcases startUdpAndTcp_cases h.opening (h.opened_eq_nil hpc) (fun p hp => (hpossible hpc p hp).1)
    (fun p hp => (hpossible hpc p hp).2) with
    ⟨-, k', hopening, ⟨-, hnfds, -⟩, hall, hstart⟩ | ⟨hno, -⟩
  · by_contra htwice
    have hpos (p : Proto) : 0 ≤ k'.sock p := hopening.nonneg p (mem_all hall p)
    have hnfds' : (step iterations s (.main a)).sockets.nfds = k'.nfds + 4 := by
      simp only [step, hpc, hstart]
      exact (prepareFds_eq hpos).2.1
    have hfour : k'.nfds = fdsSize := by
      rw [hnfds, h.nfds, if_pos (by simpa using htwice)]
    have hle := hsound.nfds
    rw [hnfds', hfour] at hle
    exact absurd hle (by decide)
  · exact absurd hsucceed hno

theorem inv_stopUdpAndTcp (h : Inv s) (hpc : s.app.pc = .stopUdpAndTcp)
    (hcareful : ∀ p, 0 ≤ s.sockets.sock p → p ∈ s.sockets.opened) :
    Inv (step iterations s (.main a)) := by
  have hnext : step iterations s (.main a) =
      ⟨{ s.app with pc := .whileIterations }, stopUdpAndTcp s.sockets⟩ := by
    simp only [step, hpc, mainStep]
  obtain ⟨hreleased, hclosed⟩ := stop_releases h.opening h.closed hcareful
  obtain ⟨hnfds, hwrites, hsucceeded⟩ := stop_same (k := s.sockets)
  rw [hnext]
  refine ⟨?_, ?_, hclosed, ?_, fun hno => ?_, fun _ => hreleased⟩
  · rw [hnfds, hsucceeded]
    exact h.nfds
  · rw [hwrites]
    exact h.writes
  · refine ⟨List.nodup_nil, hreleased, ?_, fun _ hno => absurd hno List.not_mem_nil⟩
    rw [hreleased]
    exact List.nodup_nil
  · rcases hno with hno | hno | ⟨hno, -⟩ <;> exact absurd hno (by simp)

/-- What every other statement keeps. -/
theorem inv_main (h : Inv s) (hstart : s.app.pc ≠ .startUdpAndTcp)
    (hstop : s.app.pc ≠ .stopUdpAndTcp) : Inv (step iterations s (.main a)) := by
  have hpolled := h.polled
  have hreleased := h.released
  cases hpc : s.app.pc with
  | startUdpAndTcp => exact absurd hpc hstart
  | stopUdpAndTcp => exact absurd hpc hstop
  | whileIterations =>
    rw [hpc] at hreleased
    simp only [step, hpc, mainStep]
    split
    · exact h.move (by simp) fun _ => hreleased trivial
    · exact h.move (by simp) fun _ => hreleased trivial
  | takeRunApp =>
    rw [hpc] at hreleased
    simp only [step, hpc, mainStep]
    split
    · exact h.move (by simp) fun _ => hreleased trivial
    · exact h
  | whileConnected =>
    simp only [step, hpc, mainStep]
    split
    · rename_i htest
      have hzero : s.app.ret = 0 := by simpa using (Bool.and_eq_true_iff.mp htest).2
      exact h.move (fun _ => hpolled (.inr (.inr ⟨hpc, hzero⟩))) fun hno => hno.elim
    · exact h.move (by simp) fun hno => hno.elim
  | runUdpAndTcp =>
    simp only [step, hpc, mainStep]
    exact h.move (fun _ => hpolled (.inl hpc)) fun hno => hno.elim
  | ifIterations =>
    simp only [step, hpc, mainStep]
    split
    · split
      · exact h.move (by simp) fun hno => hno.elim
      · exact h.move (fun _ => hpolled (.inr (.inl hpc))) fun hno => hno.elim
    · exact h.move (fun _ => hpolled (.inr (.inl hpc))) fun hno => hno.elim
  | exited =>
    simp only [step, hpc, mainStep]
    exact h

theorem inv_step (h : Inv s) (hpossible : Possible s e) (hcareful : Careful s e) :
    Inv (step iterations s e) := by
  cases e with
  | l4Connected => exact h.move h.polled h.released
  | l4Disconnected => exact h.move h.polled h.released
  | main a =>
    by_cases hstart : s.app.pc = .startUdpAndTcp
    · simp only [Careful, hstart] at hcareful
      exact inv_startUdpAndTcp h hstart hpossible hcareful
    · by_cases hstop : s.app.pc = .stopUdpAndTcp
      · simp only [Careful, hstop] at hcareful
        exact inv_stopUdpAndTcp h hstop hcareful
      · exact inv_main h hstart hstop

theorem sound_step_iff (h : Inv s) (hpossible : Possible s e) :
    Sound (step iterations s e) ↔ Careful s e := by
  refine ⟨fun hsound => ?_, fun hcareful => (inv_step h hpossible hcareful).sound⟩
  cases e with
  | l4Connected => trivial
  | l4Disconnected => trivial
  | main a =>
    simp only [Careful]
    split
    · rename_i hpc
      exact succeeded_of_sound h hpc hpossible hsound
    · rename_i hpc
      have hclosed := hsound.closed
      simp only [step, hpc] at hclosed
      exact fun p hpos => own_of_closed h.opening hclosed hpos
    · trivial

/-- Every run. -/
theorem rounds_sound_iff_careful (iterations : Int) {es : List Event}
    (hpossible : Along (step iterations) Possible start es) :
    Always (step iterations) Sound start es ↔ Along (step iterations) Careful start es := by
  exact always_iff_along_of_kept (step iterations) (I := Inv)
    (fun _ _ h hp hcareful => inv_step h hp hcareful)
    (fun _ _ h hp => sound_step_iff h hp) inv_start
    inv_start.sound hpossible

/-- All goes well, until `run_udp_and_tcp` fails. -/
def served : Answers where
  socket
    | .tcp6 => 3
    | .tcp4 => 4
    | .udp6 => 5
    | .udp4 => 6
  connects _ := true
  sends _ := true
  ret := -1

/-- No socket is opened. -/
def refused : Answers := ⟨fun _ => -1, fun _ => false, fun _ => false, -1⟩

/-- A round up to the end of `stop_udp_and_tcp`. -/
def oneRound : List Event := .l4Connected :: List.replicate 8 (.main served)

theorem rounds_sound_oneRound : Along (step 0) Possible start oneRound ∧
    Always (step 0) Sound start oneRound := by
  have hpossible : Along (step 0) Possible start oneRound := by decide +kernel
  exact ⟨hpossible, (rounds_sound_iff_careful 0 hpossible).mpr (by decide +kernel)⟩

/-- Another round is started and succeeds. -/
def servedTwice : List Event := oneRound ++ .l4Connected :: List.replicate 3 (.main served)

/-- Another round is started, fails at its first socket and is stopped. -/
def refusedLater : List Event :=
  oneRound ++
    [.l4Connected, .main refused, .main refused, .main refused, .main refused, .main refused]

/-- There are eight descriptors in the four places of `fds`; or three that are closed already are
closed again. -/
theorem later_rounds_not_sound :
    Along (step 0) Possible start servedTwice ∧
      (run (step 0) start servedTwice).sockets.nfds = 8 ∧
      ¬ Always (step 0) Sound start servedTwice ∧
      Along (step 0) Possible start refusedLater ∧
      (run (step 0) start refusedLater).sockets.closed =
        [(5, true), (6, true), (3, true), (4, true), (5, false), (6, false), (4, false)] ∧
      ¬ Always (step 0) Sound start refusedLater := by
  have hnfds : (run (step 0) start servedTwice).sockets.nfds = 8 := by decide +kernel
  have hclosed : (run (step 0) start refusedLater).sockets.closed =
      [(5, true), (6, true), (3, true), (4, true), (5, false), (6, false), (4, false)] := by
    decide +kernel
  refine ⟨by decide +kernel, hnfds, fun h => ?_, by decide +kernel, hclosed, fun h => ?_⟩
  · have hle := h.last.nfds
    rw [hnfds] at hle
    exact absurd hle (by decide)
  · have hall := h.last.closed
    rw [hclosed] at hall
    exact absurd (hall (5, false) (by decide)) (by decide)

end Rounds
end EchoClient
end ZephyrSamples
