import ZephyrSamples.Lib.TopList
import ZephyrSamples.MeshBadge.Statistics

/-!
# The top senders of the mesh badge

`show_statistics`, which picks the four entries with the most hellos in one pass over the table.
-/

namespace ZephyrSamples
namespace MeshBadge

open TopList

def helloCount (stats : List Stat) (i : Nat) : Nat := (stats.getD i .unused).helloCount

/-- The loop over `top`, in which `none` is a negative index.  The entry takes the place of the
first that has fewer hellos, and the others move down the list. -/
def insertTop (stats : List Stat) (i : Nat) : List (Option Nat) → List (Option Nat)
  | [] => []
  | none :: rest => some i :: rest
  | some t :: rest =>
    if helloCount stats i ≤ helloCount stats t then some t :: insertTop stats i rest
    else some i :: (some t :: rest).dropLast

/-- The loop over the table, at index `i`. -/
def scanTop (stats : List Stat) : Nat → List Stat → List (Option Nat) → List (Option Nat)
  | _, [], top => top
  | i, stat :: rest, top =>
    if stat.addr = 0 then top
    else if stat.helloCount = 0 then scanTop stats (i + 1) rest top
    else scanTop stats (i + 1) rest (insertTop stats i top)

/-- The length of `top`. -/
def topSize : Nat := 4

def topSenders (stats : List Stat) : List (Option Nat) :=
  scanTop stats 0 stats (List.replicate topSize none)

/-- The lines on the screen. -/
inductive Line where
  | ownAddress (addr : BitVec 16)
  | nodeCount (n : Nat)
  | mostMessagesFrom
  | sender (helloCount : Nat) (addr : BitVec 16) (name : List UInt8)
  deriving DecidableEq, Repr

def showStatistics (ownAddr : BitVec 16) (t : Table) : List Line :=
  let lines := [.ownAddress ownAddr, .nodeCount (t.statCount + 1)]
  if 0 < t.statCount then
    let shown := (topSenders t.stats).takeWhile Option.isSome
    lines ++ .mostMessagesFrom :: shown.map fun i =>
      let stat := t.stats.getD (i.getD 0) .unused
      .sender stat.helloCount stat.addr (stat.name.takeWhile (· ≠ 0))
  else lines

/-- A table whose used entries form a prefix. -/
structure Entries where
  used : List Stat
  free : List Stat
  used_addr : ∀ s ∈ used, s.addr ≠ 0
  free_addr : ∀ s ∈ free, s.addr = 0

def Entries.stats (e : Entries) : List Stat := e.used ++ e.free

/-- The indices of the entries in use that have counted a hello. -/
def helloSenders (stats : List Stat) : List Nat :=
  (stats.zipIdx.filter fun e => e.1.addr ≠ 0 ∧ 0 < e.1.helloCount).map Prod.snd

/-- Entry `i` is above entry `j`. -/
def Above (stats : List Stat) (i j : Nat) : Prop :=
  helloCount stats j < helloCount stats i ∨ helloCount stats j = helloCount stats i ∧ i < j

/-- `top` has the `topSize` entries above all others, in their order, and then no more. -/
structure IsTop (stats : List Stat) (top : List (Option Nat)) (chosen : List Nat) : Prop where
  slots : top = chosen.map some ++ List.replicate (topSize - chosen.length) none
  length : chosen.length = min topSize (helloSenders stats).length
  nodup : chosen.Nodup
  senders : ∀ i ∈ chosen, i ∈ helloSenders stats
  order : chosen.Pairwise (Above stats)
  largest : ∀ i ∈ chosen, ∀ j ∈ helloSenders stats, j ∉ chosen → Above stats i j

/-- A window of `k` slots, the first of them filled with `c`. -/
def window (k : Nat) (c : List Nat) : List (Option Nat) :=
  c.map some ++ List.replicate (k - c.length) none

variable {stats : List Stat} {k i n : Nat} {c : List Nat}

theorem dropLast_window (h : c.length ≤ k + 1) :
    (window (k + 1) c).dropLast = window k (c.take k) := by
  have hlen : (window (k + 1) c).length = k + 1 := by
    rw [window, List.length_append, List.length_map, List.length_replicate]
    omega
  rw [List.dropLast_eq_take, hlen, Nat.add_sub_cancel, window, window, List.take_append,
    List.length_map, List.take_replicate, List.map_take, List.length_take]
  congr 2
  omega

/-- The loop over the window is the placement that keeps `k`. -/
theorem insertTop_window (h : c.length ≤ k) :
    insertTop stats i (window k c) = window k (push (helloCount stats) k c i) := by
  induction c generalizing k with
  | nil =>
    cases k with
    | zero => rfl
    | succ k =>
      rw [push, place_nil, List.take_succ_cons, List.take_nil]
      rfl
  | cons t c ih =>
    cases k with
    | zero => exact absurd h (Nat.not_succ_le_zero _)
    | succ k =>
      have hwindow : window (k + 1) (t :: c) = some t :: window k c := by
        rw [window, window, List.length_cons, Nat.add_sub_add_right]
        rfl
      have hc : c.length ≤ k := Nat.le_of_succ_le_succ h
      rw [hwindow, insertTop]
      rcases lt_or_ge (helloCount stats t) (helloCount stats i) with hlt | hle
      · rw [if_neg (Nat.not_le.mpr hlt), ← hwindow, dropLast_window h, push, place_cons_of_lt hlt,
          List.take_succ_cons, window, window, List.length_cons, Nat.add_sub_add_right]
        rfl
      · rw [if_pos hle, ih hc, push, push, place_cons_of_le hle, List.take_succ_cons, window,
          window, List.length_cons, Nat.add_sub_add_right]
        rfl

theorem length_push_le (c : List Nat) : (push (helloCount stats) k c i).length ≤ k :=
  List.length_take_le k _

/-- What the scan of the rest of the table has still to place. -/
theorem scanTop_window (used free : List Stat) (hused : ∀ s ∈ used, s.addr ≠ 0)
    (hfree : ∀ s ∈ free, s.addr = 0) (h : c.length ≤ k) :
    scanTop stats n (used ++ free) (window k c) =
      window k ((((used ++ free).zipIdx n).filter fun e => e.1.addr ≠ 0 ∧ 0 < e.1.helloCount).map
        Prod.snd |>.foldl (push (helloCount stats) k) c) := by
  induction used generalizing n c with
  | nil =>
    have hnone : ((free.zipIdx n).filter fun e => e.1.addr ≠ 0 ∧ 0 < e.1.helloCount) = [] := by
      refine List.filter_eq_nil_iff.mpr fun e he => ?_
      have haddr := hfree e.1 (List.fst_mem_of_mem_zipIdx he)
      simp [haddr]
    rw [List.nil_append, hnone]
    cases free with
    | nil => rfl
    | cons s free => exact if_pos (hfree s List.mem_cons_self)
  | cons s used ih =>
    have haddr := hused s List.mem_cons_self
    have hused' : ∀ s ∈ used, s.addr ≠ 0 := fun s hs => hused s (List.mem_cons_of_mem _ hs)
    rw [List.cons_append, scanTop, if_neg haddr, List.zipIdx_cons, List.filter_cons]
    by_cases hcount : s.helloCount = 0
    · rw [if_pos hcount, if_neg (by simp [hcount])]
      exact ih hused' h
    · rw [if_neg hcount, if_pos (decide_eq_true ⟨haddr, Nat.pos_of_ne_zero hcount⟩),
        insertTop_window h]
      exact ih hused' (length_push_le c)

theorem helloSenders_pairwise (stats : List Stat) : (helloSenders stats).Pairwise (· < ·) := by
  have hsub : (helloSenders stats).Sublist (List.range' 0 stats.length) := by
    rw [← List.zipIdx_map_snd 0 stats]
    exact List.filter_sublist.map Prod.snd
  exact (List.pairwise_lt_range' 1 Nat.one_pos).sublist hsub

theorem topSenders_eq (e : Entries) : topSenders e.stats =
    window topSize ((ranked (helloCount e.stats) (helloSenders e.stats)).take topSize) := by
  have hempty : ([] : List Nat).length ≤ topSize := Nat.zero_le topSize
  rw [← foldl_push_nil]
  exact scanTop_window e.used e.free e.used_addr e.free_addr hempty

theorem takeWhile_window (k : Nat) (c : List Nat) :
    (window k c).takeWhile Option.isSome = c.map some := by
  have hsome : ∀ o ∈ c.map some, Option.isSome o = true := by
    intro o ho
    obtain ⟨i, _, rfl⟩ := List.mem_map.mp ho
    rfl
  rw [window, List.takeWhile_append_of_pos hsome]
  cases k - c.length with
  | zero => exact List.append_nil _
  | succ m => exact List.append_nil _

/-- One line is shown for each entry that is selected, in their order. -/
theorem showStatistics_eq (ownAddr : BitVec 16) (e : Entries) {n : Nat} (h : 0 < n) :
    showStatistics ownAddr ⟨e.stats, n⟩ = .ownAddress ownAddr :: .nodeCount (n + 1) ::
      .mostMessagesFrom :: ((ranked (helloCount e.stats) (helloSenders e.stats)).take topSize).map
        fun i => .sender (helloCount e.stats i) (e.stats.getD i .unused).addr
          ((e.stats.getD i .unused).name.takeWhile (· ≠ 0)) := by
  rw [showStatistics, if_pos h, topSenders_eq, takeWhile_window]
  show _ :: _ :: _ :: (List.map some _).map _ = _
  rw [List.map_map]
  rfl

/-- The four entries with the most hellos are selected. -/
theorem topSenders_isTop (e : Entries) :
    ∃ chosen, IsTop e.stats (topSenders e.stats) chosen := by
  let all := ranked (helloCount e.stats) (helloSenders e.stats)
  have hperm : all.Perm (helloSenders e.stats) := perm_ranked
  have horder : all.Pairwise (Above e.stats) := ranked_pairwise (helloSenders_pairwise e.stats)
  have hnodup : all.Nodup := hperm.nodup_iff.mpr
    ((helloSenders_pairwise e.stats).imp fun hlt => Nat.ne_of_lt hlt)
  refine ⟨all.take topSize, ?_⟩
  constructor
  case slots => exact topSenders_eq e
  case length => rw [List.length_take, hperm.length_eq]
  case nodup => exact hnodup.sublist (List.take_sublist _ _)
  case senders => exact fun i hi => hperm.mem_iff.mp (List.mem_of_mem_take hi)
  case order => exact horder.sublist (List.take_sublist _ _)
  case largest => exact fun i hi j hj => rel_of_mem_take horder hi (hperm.mem_iff.mpr hj)

/-- Three badges were heard of, two of them with hellos. -/
def threeHeard : Entries where
  used := [{ Stat.unused with addr := 7, helloCount := 1 }, { Stat.unused with addr := 8 },
    { Stat.unused with addr := 9, helloCount := 2 }]
  free := List.replicate 125 .unused
  used_addr := by decide
  free_addr := by decide

example : topSenders threeHeard.stats = [some 2, some 0, none, none] := by decide

end MeshBadge
end ZephyrSamples
