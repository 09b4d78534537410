import ZephyrSamples.EchoAsync.Server

/-!
# The echo server with select

`readfds` is a bit set, and `fdnum` a bound on what has ever been in it.  `accept` is not checked:
as long as it does not fail the descriptors that are ready are handled once each in every round, and
with its first failure the server ends. -/

namespace ZephyrSamples
namespace EchoAsync
namespace Select

/-- `readfds` and `fdnum` -/
structure FdSet where
  readfds : Finset Nat
  fdnum : Nat

/-- `FD_SET`, which ignores a negative descriptor. -/
def fdSet (fd : Int) (readfds : Finset Nat) : Finset Nat :=
  if 0 ≤ fd then insert fd.toNat readfds else readfds

/-- `FD_CLR` -/
def fdClr (fd : Int) (readfds : Finset Nat) : Finset Nat :=
  if 0 ≤ fd then readfds.erase fd.toNat else readfds

def pollfdsAdd (w : FdSet) (fd : Int) : Option FdSet :=
  some { readfds := fdSet fd w.readfds
         fdnum := if (w.fdnum : Int) ≤ fd then (fd + 1).toNat else w.fdnum }

def pollfdsDel (w : FdSet) (fd : Int) : FdSet := { w with readfds := fdClr fd w.readfds }

def watch : Watch FdSet := ⟨pollfdsAdd, pollfdsDel⟩

/-- What `select` leaves of `workfds`, a copy of `readfds`. -/
def select (w : FdSet) (r : Round) : Finset Nat :=
  w.readfds.filter fun i => i < w.fdnum ∧ (r i).isSome

/-- The loop over the descriptors, at `i`. -/
def visit (servs : Servers) (r : Round) (workfds : Finset Nat) (s : Server FdSet) (i : Nat) :
    Server FdSet :=
  if s.exited = true ∨ s.watch.fdnum ≤ i ∨ i ∉ workfds then s
  else
    match r i with
    | none => s
    | some a =>
      if servs.IsServer i then addClient watch (s.accepted a.client) i a.client
      else echo watch s i a

/-- `fdnum` at its highest in a round. -/
def top (servs : Servers) (r : Round) (w : FdSet) : Nat :=
  ((r servs.serv4).toList ++ (r servs.serv6).toList).foldl
    (fun n a => max n (a.client + 1).toNat) w.fdnum

/-- A round of `while (1)`. -/
def round (servs : Servers) (s : Server FdSet) (r : Round) : Server FdSet :=
  if s.exited then s
  else
    (List.range (top servs r s.watch)).foldl (visit servs r (select s.watch r))
      { s with done := [] }

/-- When `main` comes to the loop. -/
def start (servs : Servers) : Server FdSet :=
  let w := (pollfdsAdd ⟨∅, 0⟩ servs.serv4).getD ⟨∅, 0⟩
  { watch := (pollfdsAdd w servs.serv6).getD w
    openFds := {servs.serv4, servs.serv6}
    exited := false
    done := [] }

/-- `select` watches `fd`. -/
def FdSet.Watched (w : FdSet) (fd : Int) : Prop := ∃ i ∈ w.readfds, i < w.fdnum ∧ fd = i

/-- The set holds the open descriptors. -/
structure Watches (w : FdSet) (openFds : Finset Int) : Prop where
  mem : ∀ fd, fd ∈ openFds ↔ 0 ≤ fd ∧ fd.toNat ∈ w.readfds
  lt : ∀ i ∈ w.readfds, i < w.fdnum

variable {servs : Servers} {w : FdSet} {openFds : Finset Int} {r : Round} {workfds : Finset Nat}
  {s : Server FdSet} {fd c : Int} {k : Nat} {rest : List Nat} {numFds : Nat}

theorem Watches.watched_iff (h : Watches w openFds) : w.Watched fd ↔ fd ∈ openFds := by
  rw [h.mem]
  constructor
  · rintro ⟨i, hi, -, rfl⟩
    exact ⟨Int.natCast_nonneg i, hi⟩
  · rintro ⟨hpos, hi⟩
    exact ⟨fd.toNat, hi, h.lt _ hi, (Int.toNat_of_nonneg hpos).symm⟩

theorem watches_add (h : Watches w openFds) (hc : 0 ≤ c) :
    ∃ w', pollfdsAdd w c = some w' ∧ Watches w' (insert c openFds) := by
  refine ⟨_, rfl, fun fd => ?_, fun i hi => ?_⟩
  · simp only [fdSet, if_pos hc, Finset.mem_insert, h.mem]
    constructor
    · rintro (rfl | ⟨hpos, hmem⟩)
      · exact ⟨hc, .inl rfl⟩
      · exact ⟨hpos, .inr hmem⟩
    · rintro ⟨hpos, heq | hmem⟩
      · exact .inl (by omega)
      · exact .inr ⟨hpos, hmem⟩
  · simp only [fdSet, if_pos hc, Finset.mem_insert] at hi
    show i < if (w.fdnum : Int) ≤ c then (c + 1).toNat else w.fdnum
    rcases hi with rfl | hi
    · split <;> omega
    · have hlt := h.lt i hi
      split <;> omega

theorem watches_del (h : Watches w openFds) : Watches (pollfdsDel w fd) (openFds.erase fd) := by
  refine ⟨fun x => ?_, fun i hi => h.lt i ?_⟩
  · rw [Finset.mem_erase, h.mem]
    unfold pollfdsDel fdClr
    split
    · rename_i hpos
      rw [Finset.mem_erase]
      constructor
      · rintro ⟨hne, hx, hmem⟩
        exact ⟨hx, by omega, hmem⟩
      · rintro ⟨hx, hne, hmem⟩
        exact ⟨by omega, hx, hmem⟩
    · exact ⟨fun hx => hx.2, fun hx => ⟨by omega, hx⟩⟩
  · unfold pollfdsDel fdClr at hi
    split at hi
    · exact Finset.mem_of_mem_erase hi
    · exact hi

/-- What the loop finds at `i`. -/
def found (workfds : Finset Nat) (i : Nat) : Option Int := if i ∈ workfds then some i else none

theorem found_eq_some_iff {i : Nat} : found workfds i = some fd ↔ i ∈ workfds ∧ (i : Int) = fd := by
  unfold found
  split <;> simp_all

/-- The loop with `rest` still to come. -/
structure Selecting (numFds : Nat) (servs : Servers) (r : Round) (workfds : Finset Nat)
    (rest : List Nat) (s : Server FdSet) : Prop where
  watches : Watches s.watch s.openFds
  running : s.exited = false
  pending : Pending numFds servs r s.openFds (rest.filterMap (found workfds))

theorem selecting_skip (h : Selecting numFds servs r workfds (k :: rest) s)
    (hfound : found workfds k = none) :
    visit servs r workfds s k = s ∧ Selecting numFds servs r workfds rest s := by
  have hno : k ∉ workfds := by
    intro hmem
    exact nomatch hfound.symm.trans (if_pos hmem)
  refine ⟨if_pos (.inr (.inr hno)), h.watches, h.running, ?_⟩
  have hpending := h.pending
  rwa [List.filterMap_cons_none hfound] at hpending

/-- What the loop does with a descriptor that is ready. -/
theorem visit_eq (hrunning : s.exited = false) (hlt : k < s.watch.fdnum) (hk : k ∈ workfds)
    {a : Answer} (ha : r k = some a) :
    visit servs r workfds s k =
      if servs.IsServer k then addClient watch (s.accepted a.client) k a.client
      else echo watch s k a := by
  have hgoes : ¬ (s.exited = true ∨ s.watch.fdnum ≤ k ∨ k ∉ workfds) := by
    rw [hrunning]
    simp [hlt, hk]
  unfold visit
  rw [if_neg hgoes]
  simp only [ha]

theorem selecting_visit (hready : ∀ k ∈ workfds, (r k).isSome) (hall : AcceptsAll servs r)
    (h : Selecting numFds servs r workfds (k :: rest) s) (hfound : found workfds k = some fd) :
    Selecting numFds servs r workfds rest (visit servs r workfds s k) ∧
      (visit servs r workfds s k).openFds = next servs r s.openFds fd ∧
      (visit servs r workfds s k).done = s.done ++ [entry servs r fd] := by
  have hpending := h.pending
  rw [List.filterMap_cons_some hfound] at hpending
  obtain ⟨hk, rfl⟩ := found_eq_some_iff.mp hfound
  obtain ⟨a, ha⟩ := Option.isSome_iff_exists.mp (hready k hk)
  have hopen := hpending.isOpen k List.mem_cons_self
  have hlt : k < s.watch.fdnum := h.watches.lt k ((h.watches.mem k).mp hopen).2
  have htail := hpending.tail
  rw [visit_eq h.running hlt hk ha]
  by_cases hserver : servs.IsServer k
  · have hclient : 0 ≤ a.client := hall k hserver a ha
    have hnext : next servs r s.openFds k = insert a.client s.openFds := by
      simp [next, ha, hserver, hclient]
    have hentry : entry servs r k = ((k : Int), accepts a.client) := by simp [entry, ha, hserver]
    obtain ⟨w, hadd, hwatches⟩ : ∃ w, watch.pollfdsAdd s.watch a.client = some w ∧
        Watches w (insert a.client s.openFds) := watches_add h.watches hclient
    rw [hnext] at htail
    rw [if_pos hserver, addClient_accepted hadd hclient, hnext, hentry]
    exact ⟨⟨hwatches, h.running, htail⟩, rfl, rfl⟩
  · have hentry : entry servs r k = ((k : Int), (a.echoed k).1) := by simp [entry, ha, hserver]
    rw [if_neg hserver, echo_eq hopen h.running, hentry]
    by_cases hclosed : (a.echoed k).2 = true
    · have hnext : next servs r s.openFds k = s.openFds.erase k := by
        simp [next, ha, hserver, hclosed]
      rw [hnext] at htail
      rw [if_pos hclosed, hnext]
      exact ⟨⟨watches_del h.watches, h.running, htail⟩, rfl, rfl⟩
    · have hnext : next servs r s.openFds k = s.openFds := by
        simp [next, ha, hserver, hclosed]
      rw [hnext] at htail
      rw [if_neg hclosed, hnext]
      exact ⟨⟨h.watches, h.running, htail⟩, rfl, rfl⟩

theorem fdnum_le_top : w.fdnum ≤ top servs r w := by
  have hfold (as : List Answer) (n : Nat) :
      n ≤ as.foldl (fun n a => max n (a.client + 1).toNat) n := by
    induction as generalizing n with
    | nil => exact Nat.le_refl n
    | cons a as ih => exact Nat.le_trans (Nat.le_max_left _ _) (ih _)
  exact hfold _ _

theorem mem_select : k ∈ select w r ↔ k ∈ w.readfds ∧ k < w.fdnum ∧ (r k).isSome :=
  Finset.mem_filter

/-- The descriptors the loop comes to are the open ones that are ready. -/
theorem mem_found_iff (h : Watches w openFds) :
    fd ∈ (List.range (top servs r w)).filterMap (found (select w r)) ↔
      fd ∈ openFds ∧ (r fd).isSome := by
  rw [List.mem_filterMap, h.mem]
  constructor
  · rintro ⟨k, -, hfound⟩
    obtain ⟨hk, rfl⟩ := found_eq_some_iff.mp hfound
    obtain ⟨hmem, -, hsome⟩ := mem_select.mp hk
    exact ⟨⟨Int.natCast_nonneg k, hmem⟩, hsome⟩
  · rintro ⟨⟨hpos, hmem⟩, hsome⟩
    have heq : (fd.toNat : Int) = fd := Int.toNat_of_nonneg hpos
    have hlt := h.lt _ hmem
    refine ⟨fd.toNat, List.mem_range.mpr (Nat.lt_of_lt_of_le hlt fdnum_le_top), ?_⟩
    rw [found_eq_some_iff, mem_select, heq]
    exact ⟨⟨hmem, hlt, hsome⟩, rfl⟩

/-- A round in which no `accept` fails handles the open descriptors that are ready, and goes on. -/
theorem round_handles (h : Watches s.watch s.openFds) (hrunning : s.exited = false)
    (hfits : Fits numFds s.openFds (newClients servs r)) (hall : AcceptsAll servs r) :
    Watches (round servs s r).watch (round servs s r).openFds ∧ (round servs s r).exited = false ∧
      Worklist.Handled (next servs r) (entry servs r) (fun fd => fd ∈ s.openFds ∧ (r fd).isSome)
        s.openFds (round servs s r).openFds (round servs s r).done := by
  have hround : round servs s r =
      (List.range (top servs r s.watch)).foldl (visit servs r (select s.watch r))
        { s with done := [] } := if_neg (by simp [hrunning])
  have hnodup :
      ((List.range (top servs r s.watch)).filterMap (found (select s.watch r))).Nodup := by
    refine List.nodup_range.filterMap fun i j fd hi hj => ?_
    exact Int.ofNat.inj ((found_eq_some_iff.mp hi).2.trans (found_eq_some_iff.mp hj).2.symm)
  have hstart : Selecting numFds servs r (select s.watch r) (List.range (top servs r s.watch))
      { s with done := [] } :=
    ⟨h, hrunning, hfits.pending hnodup fun fd hfd => ((mem_found_iff h).mp hfd).1⟩
  obtain ⟨hend, hopen, hdone⟩ :=
    Worklist.foldl_handles (next servs r) (entry servs r) Server.openFds Server.done
      (I := Selecting numFds servs r (select s.watch r))
      (fun k rest s hs hfound => selecting_skip hs hfound)
      (fun k rest s fd hs hfound =>
        selecting_visit (fun k hk => (mem_select.mp hk).2.2) hall hs hfound) hstart
  rw [hround]
  exact ⟨hend.watches, hend.running, _, hnodup, fun fd => mem_found_iff h, hopen, hdone⟩

theorem exited_foldl (hexited : s.exited = true) (keys : List Nat) :
    (keys.foldl (visit servs r workfds) s).exited = true := by
  induction keys generalizing s with
  | nil => exact hexited
  | cons j keys ih =>
    rw [List.foldl_cons, visit, if_pos (.inl hexited)]
    exact ih hexited

/-- No descriptor is ever negative, and `fdnum` does not fall. -/
theorem nonneg_visit (servs : Servers) (r : Round) (workfds : Finset Nat)
    (hpos : ∀ fd ∈ s.openFds, 0 ≤ fd) (hlt : k < s.watch.fdnum) (j : Nat) :
    (∀ fd ∈ (visit servs r workfds s j).openFds, 0 ≤ fd) ∧
      k < (visit servs r workfds s j).watch.fdnum := by
  have hset (s : Server FdSet) (fd : Int) : (s.setblocking fd).openFds = s.openFds ∧
      (s.setblocking fd).watch = s.watch := by
    unfold Server.setblocking
    split <;> exact ⟨rfl, rfl⟩
  unfold visit
  split
  · exact ⟨hpos, hlt⟩
  · split
    · exact ⟨hpos, hlt⟩
    · rename_i a ha
      split
      · simp only [addClient, watch, pollfdsAdd, hset]
        unfold Server.accepted
        split
        · rename_i hclient
          refine ⟨fun fd hfd => ?_, ?_⟩
          · rcases Finset.mem_insert.mp hfd with rfl | hfd
            · exact hclient
            · exact hpos fd hfd
          · simp only [Server.log]
            split <;> omega
        · refine ⟨hpos, ?_⟩
          simp only [Server.log]
          split <;> omega
      · refine ⟨fun fd hfd => hpos fd (echo_openFds_subset hfd), ?_⟩
        have hwatch : (echo watch s j a).watch = s.watch ∨
            (echo watch s j a).watch = pollfdsDel s.watch j := echo_watch
        rcases hwatch with heq | heq <;> rw [heq]
        · exact hlt
        · exact hlt

/-- The server ends where an `accept` fails. -/
theorem exits_foldl {keys : List Nat} (hmem : k ∈ keys) (hk : k ∈ workfds)
    (hserver : servs.IsServer k) {a : Answer} (ha : r k = some a) (hfail : a.client < 0)
    (hpos : ∀ fd ∈ s.openFds, 0 ≤ fd) (hlt : k < s.watch.fdnum) :
    (keys.foldl (visit servs r workfds) s).exited = true := by
  induction keys generalizing s with
  | nil => exact absurd hmem List.not_mem_nil
  | cons j keys ih =>
    rw [List.foldl_cons]
    rcases List.mem_cons.mp hmem with rfl | hrest
    · apply exited_foldl
      cases hrunning : s.exited with
      | true => rw [visit, if_pos (.inl hrunning)]; exact hrunning
      | false =>
        rw [visit_eq hrunning hlt hk ha, if_pos hserver]
        have hacc : s.accepted a.client = s := if_neg (Int.not_le.mpr hfail)
        have hno : a.client ∉ s.openFds := fun hopen => by
          have := hpos _ hopen
          omega
        rw [hacc]
        simp only [addClient, watch, pollfdsAdd]
        exact congrArg Server.exited (if_neg hno)
    · obtain ⟨hpos', hlt'⟩ := nonneg_visit servs r workfds hpos hlt j
      exact ih hrest hpos' hlt'

theorem round_exits (h : Watches s.watch s.openFds) (hrunning : s.exited = false)
    (hservers : ∀ fd, servs.IsServer fd → fd ∈ s.openFds) (hfail : ¬ AcceptsAll servs r) :
    (round servs s r).exited = true := by
  unfold AcceptsAll at hfail
  push Not at hfail
  obtain ⟨fd, hserver, a, ha, hneg⟩ := hfail
  have hround : round servs s r =
      (List.range (top servs r s.watch)).foldl (visit servs r (select s.watch r))
        { s with done := [] } := if_neg (by simp [hrunning])
  obtain ⟨hpos, hmem⟩ := (h.mem fd).mp (hservers fd hserver)
  have heq : (fd.toNat : Int) = fd := Int.toNat_of_nonneg hpos
  have hlt := h.lt _ hmem
  rw [hround]
  refine exits_foldl (k := fd.toNat) (List.mem_range.mpr (Nat.lt_of_lt_of_le hlt fdnum_le_top)) ?_
    (by rwa [heq]) (by rwa [heq]) hneg (fun x hx => ((h.mem x).mp hx).1) hlt
  rw [mem_select, heq, ha]
  exact ⟨hmem, hlt, rfl⟩

theorem watches_start (servs : Servers) : Watches (start servs).watch (start servs).openFds := by
  have hnone : Watches ⟨∅, 0⟩ ∅ :=
    ⟨fun fd => by simp, fun i hi => absurd hi (Finset.notMem_empty i)⟩
  obtain ⟨w, hw, hwatches⟩ := watches_add hnone servs.nonneg4
  obtain ⟨w', hw', hwatches'⟩ := watches_add hwatches servs.nonneg6
  have hstart : (start servs).watch = w' := by
    simp only [start, hw, Option.getD_some, hw']
  have hopen : (start servs).openFds = insert servs.serv6 (insert servs.serv4 ∅) :=
    Finset.pair_comm servs.serv4 servs.serv6
  rw [hstart, hopen]
  exact hwatches'

end Select
end EchoAsync
end ZephyrSamples
