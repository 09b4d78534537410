import Mathlib.Data.Finset.Image
import ZephyrSamples.EchoAsync.Server

/-!
# The echo server with poll

`pollfds` is an array whose places are taken one after the other; those of the clients that have
gone hold −1 and are taken again only when the array is full.  In every round the descriptors that
are ready are handled once each, whatever the handling of one does to the array meanwhile. -/

namespace ZephyrSamples
namespace EchoAsync
namespace Poll

/-- `struct pollfd`, where `events` and `revents` are POLLIN or nothing. -/
structure PollFd where
  fd : Int
  events : Bool
  revents : Bool
  deriving DecidableEq, Repr

/-- `pollfds` and `pollnum` -/
structure PollSet where
  pollfds : Nat → PollFd
  pollnum : Nat

def PollSet.init : PollSet := ⟨fun _ => ⟨0, false, false⟩, 0⟩

/-- From the label `found` on. -/
def PollSet.put (w : PollSet) (i : Nat) (fd : Int) : PollSet :=
  { w with pollfds := Function.update w.pollfds i { w.pollfds i with fd := fd, events := true } }

def pollfdsAdd (numFds : Nat) (w : PollSet) (fd : Int) : Option PollSet :=
  if w.pollnum < numFds then some { w.put w.pollnum fd with pollnum := w.pollnum + 1 }
  else ((List.range numFds).find? fun i => (w.pollfds i).fd < 0).map fun i => w.put i fd

/-- The place `i` is free again. -/
def PollSet.clear (w : PollSet) (i : Nat) : PollSet :=
  { w with pollfds := Function.update w.pollfds i { w.pollfds i with fd := -1 } }

def pollfdsDel (w : PollSet) (fd : Int) : PollSet :=
  match (List.range w.pollnum).find? fun i => (w.pollfds i).fd = fd with
  | none => w
  | some i => w.clear i

def watch (numFds : Nat) : Watch PollSet := ⟨pollfdsAdd numFds, pollfdsDel⟩

/-- What `poll` writes: negative descriptors are ignored. -/
def poll (w : PollSet) (r : Round) : PollSet :=
  { w with
    pollfds := fun i =>
      if i < w.pollnum then
        { w.pollfds i with
          revents := decide (0 ≤ (w.pollfds i).fd) && (w.pollfds i).events &&
            (r (w.pollfds i).fd).isSome }
      else w.pollfds i }

/-- `num_servs` -/
def numServs : Nat := 2

/-- The loop over `pollfds`, at `i`. -/
def visit (numFds : Nat) (r : Round) (s : Server PollSet) (i : Nat) : Server PollSet :=
  if s.exited = true ∨ s.watch.pollnum ≤ i ∨ (s.watch.pollfds i).revents = false then s
  else
    let fd := (s.watch.pollfds i).fd
    match r fd with
    | none => s
    | some a =>
      if i < numServs then
        if a.client < 0 then s.log fd []
        else addClient (watch numFds) (s.accepted a.client) fd a.client
      else echo (watch numFds) s fd a

/-- A round of `while (1)`.  `pollnum` never passes `numFds`, so that no `i` from there
on is left. -/
def round (numFds : Nat) (s : Server PollSet) (r : Round) : Server PollSet :=
  if s.exited then s
  else
    (List.range numFds).foldl (visit numFds r) { s with watch := poll s.watch r, done := [] }

/-- When `main` comes to the loop; what `pollfds_add` returns is not checked. -/
def start (numFds : Nat) (servs : Servers) : Server PollSet :=
  let w := (pollfdsAdd numFds .init servs.serv4).getD .init
  { watch := (pollfdsAdd numFds w servs.serv6).getD w
    openFds := {servs.serv4, servs.serv6}
    exited := false
    done := [] }

/-- `poll` watches `fd`. -/
def PollSet.Watched (w : PollSet) (fd : Int) : Prop :=
  ∃ i < w.pollnum, (w.pollfds i).fd = fd ∧ 0 ≤ fd ∧ (w.pollfds i).events = true

/-- What `poll` has reported at a place. -/
def PollSet.reported (w : PollSet) (i : Nat) : Option Int :=
  if (w.pollfds i).revents then some (w.pollfds i).fd else none

/-- The array holds each of the open descriptors once, the listening sockets at the first two
places. -/
structure Watches (numFds : Nat) (servs : Servers) (w : PollSet) (openFds : Finset Int) : Prop where
  pollnum_le : w.pollnum ≤ numFds
  two_le : numServs ≤ w.pollnum
  serv4 : (w.pollfds 0).fd = servs.serv4
  serv6 : (w.pollfds 1).fd = servs.serv6
  inj : ∀ i < w.pollnum, ∀ j < w.pollnum, 0 ≤ (w.pollfds i).fd →
    (w.pollfds i).fd = (w.pollfds j).fd → i = j
  mem : ∀ fd, fd ∈ openFds ↔ 0 ≤ fd ∧ ∃ i < w.pollnum, (w.pollfds i).fd = fd
  events : ∀ i < w.pollnum, (w.pollfds i).events = true
  unused : ∀ i, w.pollnum ≤ i → (w.pollfds i).revents = false

variable {numFds : Nat} {servs : Servers} {w : PollSet} {openFds : Finset Int} {r : Round}
  {s : Server PollSet} {fd c : Int} {i : Nat}

theorem put_of_ne {j : Nat} (hj : j ≠ i) : (w.put i c).pollfds j = w.pollfds j :=
  Function.update_of_ne hj _ _

theorem put_self : (w.put i c).pollfds i = { w.pollfds i with fd := c, events := true } :=
  Function.update_self ..

theorem clear_of_ne {j : Nat} (hj : j ≠ i) : (w.clear i).pollfds j = w.pollfds j :=
  Function.update_of_ne hj _ _

theorem clear_self : (w.clear i).pollfds i = { w.pollfds i with fd := -1 } :=
  Function.update_self ..

theorem Watches.watched_iff (h : Watches numFds servs w openFds) :
    w.Watched fd ↔ fd ∈ openFds := by
  rw [h.mem]
  constructor
  · rintro ⟨i, hi, hfd, hpos, -⟩
    exact ⟨hpos, i, hi, hfd⟩
  · rintro ⟨hpos, i, hi, hfd⟩
    exact ⟨i, hi, hfd, hpos, h.events i hi⟩

/-- The first two places are those of the listening sockets. -/
theorem Watches.lt_numServs_iff (h : Watches numFds servs w openFds) (hi : i < w.pollnum) :
    i < numServs ↔ servs.IsServer (w.pollfds i).fd := by
  have htwo := h.two_le
  unfold numServs at *
  constructor
  · intro hlt
    obtain rfl | rfl : i = 0 ∨ i = 1 := by omega
    · exact .inl h.serv4
    · exact .inr h.serv6
  · rintro (h4 | h6)
    · have hzero : i = 0 := by
        refine h.inj i hi 0 (by omega) ?_ (h4.trans h.serv4.symm)
        rw [h4]
        exact servs.nonneg4
      omega
    · have hone : i = 1 := by
        refine h.inj i hi 1 (by omega) ?_ (h6.trans h.serv6.symm)
        rw [h6]
        exact servs.nonneg6
      omega

/-- As long as there are fewer open descriptors than places, one is free. -/
theorem pollfdsAdd_eq (h : Watches numFds servs w openFds) (hroom : openFds.card < numFds)
    (c : Int) : ∃ i < numFds, i ≤ w.pollnum ∧ (i < w.pollnum → (w.pollfds i).fd < 0) ∧
      pollfdsAdd numFds w c = some { w.put i c with pollnum := max w.pollnum (i + 1) } := by
  unfold pollfdsAdd
  by_cases hlt : w.pollnum < numFds
  · refine ⟨w.pollnum, hlt, Nat.le_refl _, fun hno => absurd hno (Nat.lt_irrefl _), ?_⟩
    rw [if_pos hlt, Nat.max_eq_right (Nat.le_succ _)]
  · have hfull : w.pollnum = numFds := Nat.le_antisymm h.pollnum_le (Nat.le_of_not_lt hlt)
    rw [if_neg hlt]
    cases hfind : (List.range numFds).find? fun i => (w.pollfds i).fd < 0 with
    | some i =>
      have hi : i < numFds := List.mem_range.mp (List.mem_of_find?_eq_some hfind)
      have hhole : (w.pollfds i).fd < 0 := by simpa using List.find?_some hfind
      refine ⟨i, hi, hfull ▸ Nat.le_of_lt hi, fun _ => hhole, ?_⟩
      rw [Nat.max_eq_left (hfull ▸ hi)]
      rfl
    | none =>
      -- Without a free place there are as many open descriptors as places.
      have hall (i : Nat) (hi : i < numFds) : 0 ≤ (w.pollfds i).fd := by
        have := List.find?_eq_none.mp hfind i (List.mem_range.mpr hi)
        simpa using this
      have hcard : (Finset.range numFds).card ≤ openFds.card := by
        refine Finset.card_le_card_of_injOn (fun i => (w.pollfds i).fd) (fun i hi => ?_)
          (fun i hi j hj heq => ?_)
        · have hi' : i < numFds := by simpa using hi
          exact (h.mem _).mpr ⟨hall i hi', i, hfull ▸ hi', rfl⟩
        · have hi' : i < numFds := by simpa using hi
          have hj' : j < numFds := by simpa using hj
          exact h.inj i (hfull ▸ hi') j (hfull ▸ hj') (hall i hi') heq
      rw [Finset.card_range] at hcard
      omega

theorem pollfdsDel_eq (h : Watches numFds servs w openFds) (hi : i < w.pollnum)
    (hpos : 0 ≤ (w.pollfds i).fd) :
    pollfdsDel w (w.pollfds i).fd = w.clear i := by
  unfold pollfdsDel
  cases hfind : (List.range w.pollnum).find? fun j => (w.pollfds j).fd = (w.pollfds i).fd with
  | some j =>
    have hj : j < w.pollnum := List.mem_range.mp (List.mem_of_find?_eq_some hfind)
    have heq : (w.pollfds j).fd = (w.pollfds i).fd := by simpa using List.find?_some hfind
    exact congrArg w.clear (h.inj i hi j hj hpos heq.symm).symm
  | none =>
    have hno := List.find?_eq_none.mp hfind i (List.mem_range.mpr hi)
    simp at hno

theorem watches_put (h : Watches numFds servs w openFds) (hc : 0 ≤ c) (hfresh : c ∉ openFds)
    (hi : i < numFds) (hle : i ≤ w.pollnum) (hfree : i < w.pollnum → (w.pollfds i).fd < 0) :
    Watches numFds servs { w.put i c with pollnum := max w.pollnum (i + 1) }
      (insert c openFds) := by
  have htwo := h.two_le
  have hused {j : Nat} (hj : j < max w.pollnum (i + 1)) (hne : j ≠ i) : j < w.pollnum := by omega
  have hsplit {j : Nat} (hj : j < w.pollnum) (hpos : 0 ≤ (w.pollfds j).fd) : j ≠ i := by
    rintro rfl
    have := hfree hj
    omega
  have hnotc {j : Nat} (hj : j < w.pollnum) : (w.pollfds j).fd ≠ c := by
    rintro rfl
    exact hfresh ((h.mem _).mpr ⟨hc, j, hj, rfl⟩)
  have hzero : (0 : Nat) ≠ i :=
    hsplit (by unfold numServs at htwo; omega) (by rw [h.serv4]; exact servs.nonneg4)
  have hone : 1 ≠ i :=
    hsplit (by unfold numServs at htwo; omega) (by rw [h.serv6]; exact servs.nonneg6)
  refine ⟨?_, ?_, ?_, ?_, fun j hj k hk hpos heq => ?_, fun fd => ?_, fun j hj => ?_,
    fun j hj => ?_⟩
  · exact Nat.max_le.mpr ⟨h.pollnum_le, hi⟩
  · exact Nat.le_trans htwo (Nat.le_max_left _ _)
  · exact (congrArg PollFd.fd (put_of_ne hzero)).trans h.serv4
  · exact (congrArg PollFd.fd (put_of_ne hone)).trans h.serv6
  · simp only at heq hpos
    by_cases hji : j = i <;> by_cases hki : k = i
    · exact hji.trans hki.symm
    · rw [hji, put_self, put_of_ne hki] at heq
      exact absurd heq.symm (hnotc (hused hk hki))
    · rw [hki, put_self, put_of_ne hji] at heq
      exact absurd heq (hnotc (hused hj hji))
    · rw [put_of_ne hji, put_of_ne hki] at heq
      rw [put_of_ne hji] at hpos
      exact h.inj j (hused hj hji) k (hused hk hki) hpos heq
  · rw [Finset.mem_insert, h.mem]
    constructor
    · rintro (rfl | ⟨hpos, j, hj, hfd⟩)
      · exact ⟨hc, i, by simp, congrArg PollFd.fd put_self⟩
      · refine ⟨hpos, j, Nat.lt_of_lt_of_le hj (Nat.le_max_left _ _), ?_⟩
        exact (congrArg PollFd.fd (put_of_ne (hsplit hj (hfd ▸ hpos)))).trans hfd
    · rintro ⟨hpos, j, hj, hfd⟩
      by_cases hji : j = i
      · rw [hji] at hfd
        exact .inl (hfd.symm.trans (congrArg PollFd.fd put_self))
      · exact .inr ⟨hpos, j, hused hj hji, (congrArg PollFd.fd (put_of_ne hji)).symm.trans hfd⟩
  · by_cases hji : j = i
    · rw [hji]
      exact congrArg PollFd.events put_self
    · exact (congrArg PollFd.events (put_of_ne hji)).trans (h.events j (hused hj hji))
  · have hji : j ≠ i := by
      simp only at hj
      omega
    refine (congrArg PollFd.revents (put_of_ne hji)).trans (h.unused j ?_)
    exact Nat.le_trans (Nat.le_max_left _ _) hj

theorem watches_del (h : Watches numFds servs w openFds) (hi : i < w.pollnum)
    (hclient : ¬ servs.IsServer (w.pollfds i).fd) :
    Watches numFds servs (w.clear i) (openFds.erase (w.pollfds i).fd) := by
  have htwo := (h.lt_numServs_iff hi).not.mpr hclient
  unfold numServs at htwo
  refine ⟨h.pollnum_le, h.two_le, ?_, ?_, fun j hj k hk hpos heq => ?_, fun fd => ?_,
    fun j hj => ?_, fun j hj => ?_⟩
  · exact (congrArg PollFd.fd (clear_of_ne (by omega))).trans h.serv4
  · exact (congrArg PollFd.fd (clear_of_ne (by omega))).trans h.serv6
  · by_cases hji : j = i
    · rw [hji, clear_self] at hpos
      exact absurd hpos (show ¬ (0 : Int) ≤ -1 by decide)
    · by_cases hki : k = i
      · rw [heq, hki, clear_self] at hpos
        exact absurd hpos (show ¬ (0 : Int) ≤ -1 by decide)
      · rw [clear_of_ne hji, clear_of_ne hki] at heq
        rw [clear_of_ne hji] at hpos
        exact h.inj j hj k hk hpos heq
  · rw [Finset.mem_erase, h.mem]
    constructor
    · rintro ⟨hne, hpos, j, hj, hfd⟩
      refine ⟨hpos, j, hj, (congrArg PollFd.fd (clear_of_ne ?_)).trans hfd⟩
      rintro rfl
      exact hne hfd.symm
    · rintro ⟨hpos, j, hj, hfd⟩
      by_cases hji : j = i
      · rw [hji, clear_self] at hfd
        rw [← hfd] at hpos
        exact absurd hpos (show ¬ (0 : Int) ≤ -1 by decide)
      · rw [clear_of_ne hji] at hfd
        refine ⟨fun heq => hji ?_, hpos, j, hj, hfd⟩
        rw [← hfd] at hpos heq
        exact h.inj j hj i hi hpos heq
  · by_cases hji : j = i
    · rw [hji]
      exact (congrArg PollFd.events clear_self).trans (h.events i hi)
    · exact (congrArg PollFd.events (clear_of_ne hji)).trans (h.events j hj)
  · have hji : j ≠ i := by
      rintro rfl
      exact absurd hi (Nat.not_lt.mpr hj)
    exact (congrArg PollFd.revents (clear_of_ne hji)).trans (h.unused j hj)

/-- The loop with the places `rest` still to come, where `poll` has reported what `sel` says. -/
structure Polling (numFds : Nat) (servs : Servers) (r : Round) (sel : Nat → Option Int)
    (rest : List Nat) (s : Server PollSet) : Prop where
  watches : Watches numFds servs s.watch s.openFds
  running : s.exited = false
  nodup : rest.Nodup
  slots : ∀ i ∈ rest, s.watch.reported i = sel i
  pending : Pending numFds servs r s.openFds (rest.filterMap sel)

variable {sel : Nat → Option Int} {rest : List Nat} {k : Nat}

theorem reported_eq_some_iff :
    w.reported i = some fd ↔ (w.pollfds i).revents = true ∧ (w.pollfds i).fd = fd := by
  unfold PollSet.reported
  split <;> simp_all

theorem reported_eq_none_iff : w.reported i = none ↔ (w.pollfds i).revents = false := by
  unfold PollSet.reported
  split <;> simp_all

theorem polling_skip (h : Polling numFds servs r sel (k :: rest) s) (hsel : sel k = none) :
    visit numFds r s k = s ∧ Polling numFds servs r sel rest s := by
  have hno : (s.watch.pollfds k).revents = false := by
    rw [← reported_eq_none_iff, h.slots k List.mem_cons_self, hsel]
  refine ⟨if_pos (.inr (.inr hno)), h.watches, h.running, h.nodup.of_cons,
    fun i hi => h.slots i (List.mem_cons_of_mem _ hi), ?_⟩
  have hpending := h.pending
  rwa [List.filterMap_cons_none hsel] at hpending

/-- What is known of a place that has been reported, when the loop comes to it. -/
theorem Polling.reported (h : Polling numFds servs r sel (k :: rest) s) (hsel : sel k = some fd) :
    (s.watch.pollfds k).revents = true ∧ (s.watch.pollfds k).fd = fd ∧ k < s.watch.pollnum ∧
      fd ∈ s.openFds ∧ 0 ≤ fd ∧
      Pending numFds servs r s.openFds (fd :: rest.filterMap sel) := by
  obtain ⟨hrevents, hfd⟩ := reported_eq_some_iff.mp ((h.slots k List.mem_cons_self).trans hsel)
  have hpending := h.pending
  rw [List.filterMap_cons_some hsel] at hpending
  have hopen := hpending.isOpen fd List.mem_cons_self
  refine ⟨hrevents, hfd, ?_, hopen, ((h.watches.mem fd).mp hopen).1, hpending⟩
  by_contra hle
  have := h.watches.unused k (Nat.le_of_not_lt hle)
  exact Bool.false_ne_true (this.symm.trans hrevents)

/-- What the loop does at a place that has been reported. -/
theorem visit_eq (h : Polling numFds servs r sel (k :: rest) s) (hsel : sel k = some fd)
    {a : Answer} (ha : r fd = some a) :
    visit numFds r s k =
      if servs.IsServer fd then
        if a.client < 0 then s.log fd []
        else addClient (watch numFds) (s.accepted a.client) fd a.client
      else echo (watch numFds) s fd a := by
  obtain ⟨hrevents, hfd, hlt, -⟩ := h.reported hsel
  have hgoes : ¬ (s.exited = true ∨ s.watch.pollnum ≤ k ∨ (s.watch.pollfds k).revents = false) := by
    rw [h.running, hrevents]
    simpa using hlt
  have hserver := h.watches.lt_numServs_iff hlt
  rw [hfd] at hserver
  unfold visit
  rw [if_neg hgoes]
  simp only [hfd, ha, hserver]

/-- A new client is put where nothing has been reported. -/
theorem polling_put (h : Polling numFds servs r sel (k :: rest) s) (hsel : sel k = some fd)
    (hnew : newClient servs r fd = some c) (hnext : next servs r s.openFds fd = insert c s.openFds)
    {i : Nat} (hi : i < numFds) (hle : i ≤ s.watch.pollnum)
    (hfree : i < s.watch.pollnum → (s.watch.pollfds i).fd < 0)
    (effects : List (Int × List Effect)) :
    Polling numFds servs r sel rest
      { s with watch := { s.watch.put i c with pollnum := max s.watch.pollnum (i + 1) }
               openFds := insert c s.openFds, done := effects } := by
  obtain ⟨-, -, -, -, -, hpending⟩ := h.reported hsel
  obtain ⟨hc, hfresh, -⟩ := hpending.newClient hnew
  refine ⟨watches_put h.watches hc hfresh hi hle hfree, h.running, h.nodup.of_cons,
    fun j hj => ?_, ?_⟩
  · have hslot := h.slots j (List.mem_cons_of_mem _ hj)
    by_cases hji : j = i
    · have hnone : s.watch.reported i = none := by
        rw [reported_eq_none_iff]
        by_cases hused : i < s.watch.pollnum
        · by_contra hrevents
          have hsome : sel j = some (s.watch.pollfds i).fd := by
            rw [← hslot, hji, reported_eq_some_iff]
            exact ⟨by simpa using hrevents, rfl⟩
          have hopen : (s.watch.pollfds i).fd ∈ s.openFds :=
            h.pending.isOpen _ (List.mem_filterMap.mpr ⟨j, List.mem_cons_of_mem _ hj, hsome⟩)
          have hpos := ((h.watches.mem _).mp hopen).1
          have hneg := hfree hused
          omega
        · exact h.watches.unused i (Nat.le_of_not_lt hused)
      rw [← hslot, hji, hnone, reported_eq_none_iff]
      exact (congrArg PollFd.revents put_self).trans (reported_eq_none_iff.mp hnone)
    · rw [← hslot]
      simp only [PollSet.reported, put_of_ne hji]
  · have htail := hpending.tail
    rwa [hnext] at htail

/-- The place of a client that has gone is the one the loop is at. -/
theorem polling_clear (h : Polling numFds servs r sel (k :: rest) s) (hsel : sel k = some fd)
    (hclient : ¬ servs.IsServer fd) (hnext : next servs r s.openFds fd = s.openFds.erase fd)
    (effects : List (Int × List Effect)) :
    Polling numFds servs r sel rest
      { s with
        watch := pollfdsDel s.watch fd, openFds := s.openFds.erase fd, done := effects } := by
  obtain ⟨-, hfd, hlt, -, hpos, hpending⟩ := h.reported hsel
  have hdel : pollfdsDel s.watch fd = s.watch.clear k := by
    rw [← hfd]
    exact pollfdsDel_eq h.watches hlt (by rwa [hfd])
  have hwatches := watches_del h.watches hlt (by rwa [hfd])
  rw [hfd] at hwatches
  rw [hdel]
  refine ⟨hwatches, h.running, h.nodup.of_cons, fun j hj => ?_, ?_⟩
  · have hjk : j ≠ k := by
      rintro rfl
      exact h.nodup.notMem hj
    rw [← h.slots j (List.mem_cons_of_mem _ hj)]
    simp only [PollSet.reported, clear_of_ne hjk]
  · have htail := hpending.tail
    rwa [hnext] at htail

theorem polling_stay (h : Polling numFds servs r sel (k :: rest) s) (hsel : sel k = some fd)
    (hnext : next servs r s.openFds fd = s.openFds) (effects : List (Int × List Effect)) :
    Polling numFds servs r sel rest { s with done := effects } := by
  obtain ⟨-, -, -, -, -, hpending⟩ := h.reported hsel
  refine ⟨h.watches, h.running, h.nodup.of_cons,
    fun i hi => h.slots i (List.mem_cons_of_mem _ hi), ?_⟩
  have htail := hpending.tail
  rwa [hnext] at htail

theorem polling_visit (hready : ∀ i fd, sel i = some fd → (r fd).isSome)
    (h : Polling numFds servs r sel (k :: rest) s) (hsel : sel k = some fd) :
    Polling numFds servs r sel rest (visit numFds r s k) ∧
      (visit numFds r s k).openFds = next servs r s.openFds fd ∧
      (visit numFds r s k).done = s.done ++ [entry servs r fd] := by
  obtain ⟨a, ha⟩ := Option.isSome_iff_exists.mp (hready k fd hsel)
  obtain ⟨-, -, -, hopen, -, hpending⟩ := h.reported hsel
  rw [visit_eq h hsel ha]
  by_cases hserver : servs.IsServer fd
  · rw [if_pos hserver]
    by_cases hfail : a.client < 0
    · have hnext : next servs r s.openFds fd = s.openFds := by
        simp [next, ha, hserver, Int.not_le.mpr hfail]
      have hentry : entry servs r fd = (fd, []) := by
        simp [entry, ha, hserver, accepts, Int.not_le.mpr hfail]
      rw [if_pos hfail, hnext, hentry]
      exact ⟨polling_stay h hsel hnext _, rfl, rfl⟩
    · have hclient : 0 ≤ a.client := Int.not_lt.mp hfail
      have hnew : newClient servs r fd = some a.client := by simp [newClient, ha, hserver, hclient]
      have hnext : next servs r s.openFds fd = insert a.client s.openFds := by
        simp [next, ha, hserver, hclient]
      have hentry : entry servs r fd = (fd, accepts a.client) := by simp [entry, ha, hserver]
      obtain ⟨i, hi, hle, hfree, hadd⟩ :=
        pollfdsAdd_eq h.watches (hpending.newClient hnew).2.2 a.client
      rw [if_neg hfail, addClient_accepted hadd hclient, hnext, hentry]
      exact ⟨polling_put h hsel hnew hnext hi hle hfree _, rfl, rfl⟩
  · have hentry : entry servs r fd = (fd, (a.echoed fd).1) := by simp [entry, ha, hserver]
    rw [if_neg hserver, echo_eq hopen h.running, hentry]
    by_cases hclosed : (a.echoed fd).2 = true
    · have hnext : next servs r s.openFds fd = s.openFds.erase fd := by
        simp [next, ha, hserver, hclosed]
      rw [if_pos hclosed, hnext]
      exact ⟨polling_clear h hsel hserver hnext _, rfl, rfl⟩
    · have hnext : next servs r s.openFds fd = s.openFds := by
        simp [next, ha, hserver, hclosed]
      rw [if_neg hclosed, hnext]
      exact ⟨polling_stay h hsel hnext _, rfl, rfl⟩

theorem watches_poll (h : Watches numFds servs w openFds) (r : Round) :
    Watches numFds servs (poll w r) openFds := by
  have hfd (i : Nat) : ((poll w r).pollfds i).fd = (w.pollfds i).fd := by
    simp only [poll]
    split <;> rfl
  have hnum : (poll w r).pollnum = w.pollnum := rfl
  refine ⟨h.pollnum_le, h.two_le, (hfd 0).trans h.serv4, (hfd 1).trans h.serv6, ?_, ?_, ?_, ?_⟩
  · simpa only [hfd, hnum] using h.inj
  · simpa only [hfd, hnum] using h.mem
  · intro i hi
    simp only [poll]
    split
    · exact h.events i hi
    · exact h.events i hi
  · intro i hi
    have hno : ¬ i < w.pollnum := Nat.not_lt.mpr hi
    simp only [poll, if_neg hno]
    exact h.unused i hi

/-- What `poll` reports are the open descriptors that are ready. -/
theorem reported_poll_iff (h : Watches numFds servs w openFds) :
    (∃ i, (poll w r).reported i = some fd) ↔ fd ∈ openFds ∧ (r fd).isSome := by
  constructor
  · rintro ⟨i, hi⟩
    obtain ⟨hrevents, hfd⟩ := reported_eq_some_iff.mp hi
    simp only [poll] at hrevents hfd
    split at hrevents
    · rename_i hlt
      rw [if_pos hlt] at hfd
      simp only at hfd
      rw [hfd] at hrevents
      simp only [Bool.and_eq_true, decide_eq_true_eq] at hrevents
      exact ⟨(h.mem fd).mpr ⟨hrevents.1.1, i, hlt, hfd⟩, hrevents.2⟩
    · rename_i hge
      have := h.unused i (Nat.le_of_not_lt hge)
      exact absurd (this.symm.trans hrevents) Bool.false_ne_true
  · rintro ⟨hopen, hsome⟩
    obtain ⟨hpos, i, hlt, hfd⟩ := (h.mem fd).mp hopen
    refine ⟨i, reported_eq_some_iff.mpr ?_⟩
    simp only [poll, if_pos hlt]
    refine ⟨?_, hfd⟩
    rw [hfd, h.events i hlt, hsome]
    simpa using hpos

/-- A round handles the open descriptors that are ready, and goes on. -/
theorem round_handles (h : Watches numFds servs s.watch s.openFds) (hrunning : s.exited = false)
    (hfits : Fits numFds s.openFds (newClients servs r)) :
    Watches numFds servs (round numFds s r).watch (round numFds s r).openFds ∧
      (round numFds s r).exited = false ∧
      Worklist.Handled (next servs r) (entry servs r) (fun fd => fd ∈ s.openFds ∧ (r fd).isSome)
        s.openFds (round numFds s r).openFds (round numFds s r).done := by
  have hround : round numFds s r = (List.range numFds).foldl (visit numFds r)
      { s with watch := poll s.watch r, done := [] } := if_neg (by simp [hrunning])
  have hwatches := watches_poll h r
  have hlt {i : Nat} (hi : (poll s.watch r).reported i ≠ none) : i < (poll s.watch r).pollnum := by
    by_contra hge
    exact hi (reported_eq_none_iff.mpr (hwatches.unused i (Nat.le_of_not_lt hge)))
  have hready (i : Nat) (fd : Int) (hi : (poll s.watch r).reported i = some fd) :
      fd ∈ s.openFds ∧ (r fd).isSome := (reported_poll_iff h).mp ⟨i, hi⟩
  have hnodup : ((List.range numFds).filterMap (poll s.watch r).reported).Nodup := by
    refine List.nodup_range.filterMap fun i j fd hi hj => ?_
    have hi' := (reported_eq_some_iff.mp hi).2
    have hj' := (reported_eq_some_iff.mp hj).2
    have hone : (poll s.watch r).reported i ≠ none := fun hno => nomatch hno.symm.trans hi
    have htwo : (poll s.watch r).reported j ≠ none := fun hno => nomatch hno.symm.trans hj
    refine hwatches.inj i (hlt hone) j (hlt htwo) ?_ (hi'.trans hj'.symm)
    rw [hi']
    exact ((h.mem fd).mp (hready i fd hi).1).1
  have hstart : Polling numFds servs r (poll s.watch r).reported (List.range numFds)
      { s with watch := poll s.watch r, done := [] } := by
    refine ⟨hwatches, hrunning, List.nodup_range, fun _ _ => rfl, hfits.pending hnodup ?_⟩
    intro fd hfd
    obtain ⟨i, -, hi⟩ := List.mem_filterMap.mp hfd
    exact (hready i fd hi).1
  obtain ⟨hend, hopen, hdone⟩ :=
    Worklist.foldl_handles (next servs r) (entry servs r) Server.openFds Server.done
      (I := Polling numFds servs r (poll s.watch r).reported)
      (fun k rest s hs hsel => polling_skip hs hsel)
      (fun k rest s fd hs hsel => polling_visit (fun i fd hi => (hready i fd hi).2) hs hsel) hstart
  rw [hround]
  refine ⟨hend.watches, hend.running, _, hnodup, fun fd => ?_, hopen, hdone⟩
  refine Iff.trans ?_ (reported_poll_iff h)
  rw [List.mem_filterMap]
  constructor
  · rintro ⟨i, -, hi⟩
    exact ⟨i, hi⟩
  · rintro ⟨i, hi⟩
    refine ⟨i, List.mem_range.mpr ?_, hi⟩
    exact Nat.lt_of_lt_of_le (hlt (by simp [hi])) hwatches.pollnum_le

/-- The places after both listening sockets are added. -/
theorem start_watch (h : numServs ≤ numFds) (servs : Servers) :
    (start numFds servs).watch =
      { (PollSet.put { PollSet.init.put 0 servs.serv4 with pollnum := 1 } 1 servs.serv6) with
        pollnum := 2 } := by
  have hfirst : pollfdsAdd numFds .init servs.serv4 =
      some { PollSet.init.put 0 servs.serv4 with pollnum := 1 } := if_pos (Nat.lt_of_succ_lt h)
  have hsecond :
      pollfdsAdd numFds { PollSet.init.put 0 servs.serv4 with pollnum := 1 } servs.serv6 =
      some { (PollSet.put { PollSet.init.put 0 servs.serv4 with pollnum := 1 } 1 servs.serv6) with
        pollnum := 2 } := if_pos h
  simp only [start, hfirst, Option.getD_some, hsecond]

theorem watches_start (h : numServs ≤ numFds) (servs : Servers) :
    Watches numFds servs (start numFds servs).watch (start numFds servs).openFds := by
  have hne : servs.serv4 ≠ servs.serv6 := servs.ne
  rw [start_watch h]
  refine ⟨h, Nat.le_refl _, by simp [PollSet.put], by simp [PollSet.put], fun i hi j hj _ heq => ?_,
    fun fd => ?_, fun i hi => ?_, fun i hi => ?_⟩
  · obtain rfl | rfl : i = 0 ∨ i = 1 := by simp only at hi; omega
    · obtain rfl | rfl : j = 0 ∨ j = 1 := by simp only at hj; omega
      · rfl
      · simp [PollSet.put, hne] at heq
    · obtain rfl | rfl : j = 0 ∨ j = 1 := by simp only at hj; omega
      · simp [PollSet.put, hne.symm] at heq
      · rfl
  · constructor
    · intro hopen
      obtain rfl | rfl : fd = servs.serv4 ∨ fd = servs.serv6 := by simpa [start] using hopen
      · exact ⟨servs.nonneg4, 0, by simp, by simp [PollSet.put]⟩
      · exact ⟨servs.nonneg6, 1, by simp, by simp [PollSet.put]⟩
    · rintro ⟨-, i, hi, hfd⟩
      obtain rfl | rfl : i = 0 ∨ i = 1 := by simp only at hi; omega
      · have heq : servs.serv4 = fd := by simpa [PollSet.put] using hfd
        simp [start, heq]
      · have heq : servs.serv6 = fd := by simpa [PollSet.put] using hfd
        simp [start, heq]
  · obtain rfl | rfl : i = 0 ∨ i = 1 := by simp only at hi; omega
    · simp [PollSet.put]
    · simp [PollSet.put]
  · have hi' : 2 ≤ i := hi
    have h0 : i ≠ 0 := by omega
    have h1 : i ≠ 1 := by omega
    simp [PollSet.put, PollSet.init, h0, h1]

end Poll
end EchoAsync
end ZephyrSamples
