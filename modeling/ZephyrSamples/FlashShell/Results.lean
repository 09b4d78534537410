import Mathlib.Data.List.Range
import ZephyrSamples.FlashShell.Commands

/-!
# What the commands of the flash shell do and report

`request` is what a command line asks for, and `Reports` what is expected of a command that is to do
it: it returns 0 exactly when its arguments parse and no call of the flash API fails, leaves the
flash alone when they do not parse, stays within `buf`, and otherwise makes the accesses asked for.
Every command line within the limits gets that, but for one way out of `cmd_page_erase`: when the
second argument does not parse, it says so and returns 0.
-/

namespace ZephyrSamples
namespace FlashShell

/-! ## What is asked for -/

/-- What a command can be asked to do. -/
inductive Request where
  | erase (offset size : Nat)
  | pageErase (page num : Nat)
  | pageRead (page offset len : Nat)
  | pageWrite (page offset : Nat) (bytes : List UInt8)
  | read (offset len : Nat)
  | write (offset : Nat) (bytes : List UInt8)

/-- The values of the arguments, if they all parse. -/
def values (argv : List Arg) : Option (List Nat) := argv.tail.mapM parseUl

/-- The values as bytes, if they are at most 255. -/
def asBytes (vals : List Nat) : Option (List UInt8) :=
  if ∀ val ∈ vals, val ≤ 255 then some (vals.map UInt8.ofNat) else none

/-- The values as at most `ARGC_MAX` bytes. -/
def bytesOf (cfg : Config) (vals : List Nat) : Option (List UInt8) :=
  if vals.length ≤ cfg.argcMax then asBytes vals else none

/-- What a command line asks for, if its arguments parse. -/
def request (cfg : Config) (cmd : Command) (argv : List Arg) : Option Request :=
  match cmd, values argv with
  | .erase, some [offset, size] => some (.erase offset size)
  | .pageErase, some [page] => some (.pageErase page 1)
  | .pageErase, some [page, num] => some (.pageErase page num)
  | .pageRead, some [page, len] => some (.pageRead page 0 len)
  | .pageRead, some [page, offset, len] => some (.pageRead page offset len)
  | .pageWrite, some (page :: offset :: vals) => (bytesOf cfg vals).map (.pageWrite page offset)
  | .read, some [offset, len] => some (.read offset len)
  | .write, some (offset :: vals) => (bytesOf cfg vals).map (.write offset)
  | _, _ => none

/-! ## What is done -/

/-- The calls that read, write or erase. -/
def FlashCall.isAccess : FlashCall → Bool
  | .flashErase .. => true
  | .flashWrite .. => true
  | .flashRead .. => true
  | _ => false

/-- The reads, writes and erases, in order. -/
def accesses (log : Log) : List FlashCall := (log.map Prod.fst).filter FlashCall.isAccess

/-- The pages that a call asks for, with the answer. -/
def pageAsked : FlashCall × Answer → Option (Nat × PagesInfo)
  | (.flashGetPageInfoByIdx idx, a) => some (idx, a.info)
  | _ => none

/-- The pages asked for, with the answers, in order. -/
def pages (log : Log) : List (Nat × PagesInfo) := log.filterMap pageAsked

/-- The calls read consecutive ascending pieces of at most 64 bytes that cover the area once. -/
def ReadsArea (offset len : Nat) (calls : List FlashCall) : Prop :=
  ∃ pieces, calls = readsOf pieces ∧ (∀ p ∈ pieces.head?, p.1 = offset) ∧
    pieces.IsChain (fun p q => p.1 + p.2 = q.1) ∧ (∀ p ∈ pieces, p.2 ≤ 64) ∧
    ∀ x, pieces.countP (fun p => p.1 ≤ x ∧ x < p.1 + p.2) =
      if offset ≤ x ∧ x < offset + len then 1 else 0

/-- The calls write the bytes and read the area back. -/
def WritesArea (offset : Nat) (bytes : List UInt8) (calls : List FlashCall) : Prop :=
  ∃ reads, calls = .flashWrite offset bytes :: reads ∧ ReadsArea offset bytes.length reads

/-- What was asked for is what was done. -/
def AsAsked : Request → Log → Prop
  | .erase offset size, log => accesses log = [.flashErase offset size]
  | .pageErase page num, log =>
    (pages log).map Prod.fst = (List.range num).map (fun i => u32 (page + i)) ∧
      ((pages log).map Prod.fst).Nodup ∧
      accesses log = (pages log).map fun p => .flashErase p.2.startOffset p.2.size
  | .pageRead page offset len, log =>
    ∃ info, pages log = [(page, info)] ∧ ReadsArea (offset + info.startOffset) len (accesses log)
  | .pageWrite page offset bytes, log =>
    ∃ info, pages log = [(page, info)] ∧
      WritesArea (info.startOffset + offset) bytes (accesses log)
  | .read offset len, log => ReadsArea offset len (accesses log)
  | .write offset bytes, log => WritesArea offset bytes (accesses log)

/-- A command does what it is asked for, and its result says so. -/
structure Reports (cfg : Config) (asked : Option Request) (r : Int × Trace) : Prop where
  result : r.1 = 0 ↔ asked.isSome = true ∧ AllOk r.2.log
  untouched : asked = none → accesses r.2.log = []
  within : ∀ s ∈ r.2.stores, s.1 < cfg.argcMax
  done : ∀ req, asked = some req → r.1 = 0 → AsAsked req r.2.log

/-- A command line within the limits of `sub_flash` and of the shell. -/
structure Line (cfg : Config) where
  cmd : Command
  argv : List Arg
  mandatory_le : cmd.mandatory ≤ argv.length
  le_optional : argv.length ≤ cmd.mandatory + cmd.optional
  le_shell : argv.length ≤ cfg.shellArgcMax - 1

namespace Line

variable {cfg : Config}

/-- What the line asks for. -/
def asked (line : Line cfg) : Option Request := request cfg line.cmd line.argv

/-- The line is executed. -/
def execute (line : Line cfg) (dev : Device) : Int × Trace :=
  perform cfg (some dev) line.cmd line.argv {}

/-- The number of pages of a `page_erase` does not parse, and the page does. -/
def BadNum (line : Line cfg) : Prop :=
  line.cmd = .pageErase ∧ line.argv.length = 3 ∧ (parseUl (argAt line.argv 1)).isSome = true ∧
    parseUl (argAt line.argv 2) = none

end Line

/-! ## What the operations do -/

theorem accesses_append (as bs : Log) : accesses (as ++ bs) = accesses as ++ accesses bs := by
  rw [accesses, List.map_append, List.filter_append]
  rfl

theorem pages_append (as bs : Log) : pages (as ++ bs) = pages as ++ pages bs :=
  List.filterMap_append

theorem accesses_of_reads {made : Log} {pieces : List (Nat × Nat)}
    (h : made.map Prod.fst = readsOf pieces) : accesses made = readsOf pieces := by
  rw [accesses, h, List.filter_eq_self]
  intro c hc
  obtain ⟨p, -, rfl⟩ := List.mem_map.mp hc
  rfl

theorem pages_of_reads {made : Log} {pieces : List (Nat × Nat)}
    (h : made.map Prod.fst = readsOf pieces) : pages made = [] := by
  refine List.filterMap_eq_nil_iff.mpr fun e he => ?_
  have hmem : e.1 ∈ readsOf pieces := h ▸ List.mem_map_of_mem he
  obtain ⟨p, -, hp⟩ := List.mem_map.mp hmem
  obtain ⟨c, a⟩ := e
  obtain rfl : .flashRead p.1 p.2 = c := hp
  rfl

theorem readsArea_of_tiles {offset len : Nat} {pieces : List (Nat × Nat)}
    (h : Tiles 64 offset len pieces) : ReadsArea offset len (readsOf pieces) :=
  ⟨pieces, rfl, h.head_eq, h.consecutive, h.le, h.once⟩

theorem doRead_readsArea (dev : Device) (offset len : Nat) (t : Trace) :
    ∃ made, Made t (doRead dev offset len t) made ∧
      (AllOk made → pages made = [] ∧ ReadsArea offset len (accesses made)) := by
  obtain ⟨made, pieces, hmade, hcalls, htiles⟩ := doRead_made dev offset len t
  refine ⟨made, hmade, fun hok => ⟨pages_of_reads hcalls, ?_⟩⟩
  rw [accesses_of_reads hcalls]
  exact readsArea_of_tiles (htiles hok)

theorem switched_made (dev : Device) (op : FlashCall) (t : Trace) :
    ∃ made, Made t (switched dev op t) made ∧
      (AllOk made → ∃ a b c, made = [(.flashWriteProtectionSet false, a), (op, b),
        (.flashWriteProtectionSet true, c)]) := by
  obtain ⟨a, ha, hr⟩ | ⟨a, b, ha, hb, hr⟩ | ⟨a, b, c, ha, hb, hr⟩ := switched_cases dev op t
  · refine ⟨_, ⟨by rw [hr], ?_⟩, fun hok => absurd (allOk_cons.mp hok).1 ha⟩
    rw [hr, allOk_cons, and_iff_left allOk_nil]
  · have hfail : ¬ AllOk [(.flashWriteProtectionSet false, a), (op, b)] := fun hok =>
      hb (allOk_cons.mp (allOk_cons.mp hok).2).1
    refine ⟨_, ⟨by rw [hr], ?_⟩, fun hok => absurd hok hfail⟩
    rw [hr]
    exact iff_of_false hb hfail
  · refine ⟨_, ⟨by rw [hr], ?_⟩, fun _ => ⟨a, b, c, rfl⟩⟩
    rw [hr, allOk_cons, allOk_cons, allOk_cons, and_iff_right ha, and_iff_right hb,
      and_iff_left allOk_nil]

theorem doErase_made (dev : Device) (offset size : Nat) (t : Trace) :
    ∃ made, Made t (doErase dev offset size t) made ∧
      (AllOk made → pages made = [] ∧ accesses made = [.flashErase offset size]) := by
  obtain ⟨made, hmade, hcalls⟩ := switched_made dev (.flashErase offset size) t
  refine ⟨made, hmade, fun hok => ?_⟩
  obtain ⟨a, b, c, rfl⟩ := hcalls hok
  exact ⟨rfl, rfl⟩

theorem doWrite_made (dev : Device) (offset : Nat) (buf : List UInt8) (t : Trace) :
    ∃ made, Made t (doWrite dev offset buf true t) made ∧
      (AllOk made → pages made = [] ∧ WritesArea offset buf (accesses made)) := by
  obtain ⟨made, hmade, hcalls⟩ := switched_made dev (.flashWrite offset buf) t
  dsimp only [doWrite]
  by_cases h0 : (switched dev (.flashWrite offset buf) t).1 = 0
  · obtain ⟨back, hback, hreads⟩ :=
      doRead_readsArea dev offset buf.length (switched dev (.flashWrite offset buf) t).2
    rw [if_neg (not_not.mpr h0), if_pos rfl]
    refine ⟨made ++ back, hmade.trans h0 hback, fun hok => ?_⟩
    obtain ⟨hfirst, hrest⟩ := allOk_append.mp hok
    obtain ⟨a, b, c, rfl⟩ := hcalls hfirst
    obtain ⟨hpages, harea⟩ := hreads hrest
    rw [pages_append, accesses_append]
    exact ⟨hpages, accesses back, rfl, harea⟩
  · rw [if_pos h0]
    exact ⟨made, hmade, fun hok => absurd (hmade.ok.mpr hok) h0⟩

theorem withPageInfo_made (dev : Device) (page : Nat) {next : PagesInfo → Trace → Int × Trace}
    {Q : PagesInfo → Log → Prop}
    (hnext : ∀ info t, ∃ made, Made t (next info t) made ∧ (AllOk made → Q info made)) (t : Trace) :
    ∃ made, Made t (withPageInfo dev page next t) made ∧
      (AllOk made → ∃ a made', AllOk made' ∧
        made = (.flashGetPageInfoByIdx (u32 page), a) :: made' ∧ Q a.info made') := by
  obtain ⟨a, ha⟩ := exists_call_eq dev (.flashGetPageInfoByIdx (u32 page)) t
  have hcall := Made.single t (.flashGetPageInfoByIdx (u32 page)) a
  simp only [withPageInfo, ha]
  by_cases h0 : a.ret = 0
  · obtain ⟨made', hmade', hQ⟩ := hnext a.info (t.add [(.flashGetPageInfoByIdx (u32 page), a)])
    rw [if_neg (not_not.mpr h0)]
    refine ⟨_, hcall.trans h0 hmade', fun hok => ?_⟩
    have hok' := (allOk_append.mp hok).2
    exact ⟨a, made', hok', rfl, hQ hok'⟩
  · rw [if_pos h0]
    exact ⟨_, hcall, fun hok => absurd (hcall.ok.mpr hok) h0⟩

/-- The pages from `page + i` on are asked for in order, and each is erased. -/
def ErasesFrom (page i num : Nat) (made : Log) : Prop :=
  (pages made).map Prod.fst = (List.range' i num).map (fun i => u32 (page + i)) ∧
    accesses made = (pages made).map fun p => .flashErase p.2.startOffset p.2.size

theorem pageEraseLoop_made (dev : Device) (page left i : Nat) (t : Trace) :
    ∃ made, Made t (pageEraseLoop dev page left i 0 t) made ∧
      (AllOk made → ErasesFrom page i left made) := by
  induction left generalizing i t with
  | zero =>
    exact ⟨[], ⟨(Trace.add_nil t).symm, iff_of_true rfl allOk_nil⟩, fun _ => ⟨rfl, rfl⟩⟩
  | succ left ih =>
    have hpage (info : PagesInfo) (t : Trace) : ∃ made,
        Made t (if (doErase dev info.startOffset info.size t).1 ≠ 0 then
            doErase dev info.startOffset info.size t
          else pageEraseLoop dev page left (i + 1) (doErase dev info.startOffset info.size t).1
            (doErase dev info.startOffset info.size t).2) made ∧
        (AllOk made → (pages made).map Prod.fst =
            (List.range' (i + 1) left).map (fun i => u32 (page + i)) ∧
          accesses made = .flashErase info.startOffset info.size ::
            (pages made).map fun p => .flashErase p.2.startOffset p.2.size) := by
      obtain ⟨made, hmade, herased⟩ := doErase_made dev info.startOffset info.size t
      by_cases h0 : (doErase dev info.startOffset info.size t).1 = 0
      · obtain ⟨rest, hrest, hpages⟩ :=
          ih (i + 1) (doErase dev info.startOffset info.size t).2
        rw [if_neg (not_not.mpr h0), h0]
        refine ⟨made ++ rest, hmade.trans h0 hrest, fun hok => ?_⟩
        obtain ⟨hnone, hfirst⟩ := herased (allOk_append.mp hok).1
        obtain ⟨hindices, herases⟩ := hpages (allOk_append.mp hok).2
        rw [pages_append, accesses_append, hnone, hfirst, herases]
        exact ⟨hindices, rfl⟩
      · rw [if_pos h0]
        exact ⟨made, hmade, fun hok => absurd (hmade.ok.mpr hok) h0⟩
    obtain ⟨made, hmade, hQ⟩ := withPageInfo_made dev (page + i) hpage t
    refine ⟨made, hmade, fun hok => ?_⟩
    obtain ⟨a, made', -, rfl, hindices, herases⟩ := hQ hok
    constructor
    · exact congrArg (u32 (page + i) :: ·) hindices
    · exact herases

/-! ## What the arguments say -/

theorem mapM_parseUl_cons (arg : Arg) (args : List Arg) :
    (arg :: args).mapM parseUl =
      (parseUl arg).bind fun val => (args.mapM parseUl).map (val :: ·) := by
  rw [List.mapM_cons]
  cases parseUl arg with
  | none => rfl
  | some val => cases args.mapM parseUl <;> rfl

theorem length_of_mapM {args : List Arg} {vals : List Nat} (h : args.mapM parseUl = some vals) :
    vals.length = args.length := by
  induction args generalizing vals with
  | nil =>
    cases h
    rfl
  | cons arg args ih =>
    rw [mapM_parseUl_cons] at h
    obtain ⟨val, -, h⟩ := Option.bind_eq_some_iff.mp h
    obtain ⟨rest, hrest, rfl⟩ := Option.map_eq_some_iff.mp h
    exact congrArg (· + 1) (ih hrest)

theorem asBytes_cons (val : Nat) (vals : List Nat) :
    asBytes (val :: vals) =
      if val ≤ 255 then (asBytes vals).map (UInt8.ofNat val :: ·) else none := by
  unfold asBytes
  simp only [List.forall_mem_cons]
  by_cases hval : val ≤ 255
  · by_cases hvals : ∀ val ∈ vals, val ≤ 255
    · rw [if_pos ⟨hval, hvals⟩, if_pos hval, if_pos hvals]
      rfl
    · rw [if_neg fun h => hvals h.2, if_pos hval, if_neg hvals]
      rfl
  · rw [if_neg fun h => hval h.1, if_neg hval]

/-- The loop over the bytes stores them all, or one of them is no byte. -/
theorem parseBytes_eq (args : List Arg) (i : Nat) :
    (args.mapM parseUl).bind asBytes =
      if (parseBytes args i).1 then some ((parseBytes args i).2.map Prod.snd) else none := by
  induction args generalizing i with
  | nil => rfl
  | cons arg args ih =>
    rw [mapM_parseUl_cons]
    cases hval : parseUl arg with
    | none => simp [parseBytes, parseU8, hval]
    | some val =>
      have hcons : ((args.mapM parseUl).map (val :: ·)).bind asBytes =
          if val ≤ 255 then ((args.mapM parseUl).bind asBytes).map (UInt8.ofNat val :: ·)
          else none := by
        cases args.mapM parseUl with
        | none => simp
        | some vals => simp [asBytes_cons]
      rw [Option.bind_some, hcons, ih (i + 1)]
      by_cases hbyte : val ≤ 255
      · have hparse : parseU8 arg = some (UInt8.ofNat val) := by
          simp [parseU8, hval, hbyte]
        rw [if_pos hbyte]
        simp only [parseBytes, hparse]
        split <;> rfl
      · have hparse : parseU8 arg = none := by
          simp only [parseU8, hval, if_pos (Nat.lt_of_not_le hbyte)]
        rw [if_neg hbyte]
        simp [parseBytes, hparse]

theorem parseBytes_index (args : List Arg) (i : Nat) :
    ∀ s ∈ (parseBytes args i).2, s.1 < i + args.length := by
  induction args generalizing i with
  | nil => exact List.forall_mem_nil _
  | cons arg args ih =>
    cases hparse : parseU8 arg with
    | none => simp [parseBytes, hparse]
    | some byte =>
      simp only [parseBytes, hparse]
      refine List.forall_mem_cons.mpr ⟨?_, fun s hs => ?_⟩
      · rw [List.length_cons]
        omega
      · have hrest := ih (i + 1) s hs
        rw [List.length_cons]
        omega

theorem bind_bytesOf_of_le {cfg : Config} {args : List Arg} (h : args.length ≤ cfg.argcMax) :
    (args.mapM parseUl).bind (bytesOf cfg) = (args.mapM parseUl).bind asBytes := by
  cases hvals : args.mapM parseUl with
  | none => rfl
  | some vals =>
    have hlen := length_of_mapM hvals
    exact if_pos (by omega)

theorem bind_bytesOf_of_lt {cfg : Config} {args : List Arg} (h : cfg.argcMax < args.length) :
    (args.mapM parseUl).bind (bytesOf cfg) = none := by
  cases hvals : args.mapM parseUl with
  | none => rfl
  | some vals =>
    have hlen := length_of_mapM hvals
    exact if_neg (by omega)

/-- Two arguments that both parse. -/
def parseTwo (a b : Arg) : Option (Nat × Nat) :=
  (parseUl a).bind fun x => (parseUl b).map fun y => (x, y)

theorem values_two (name a b : Arg) :
    values [name, a, b] = (parseTwo a b).map fun v => [v.1, v.2] := by
  simp only [values, List.tail_cons, mapM_parseUl_cons, List.mapM_nil, parseTwo]
  cases parseUl a <;> cases parseUl b <;> rfl

theorem parseTwo_left {a b : Arg} {v : Nat × Nat} (h : parseTwo a b = some v) :
    parseUl a = some v.1 := by
  obtain ⟨x, hx, h⟩ := Option.bind_eq_some_iff.mp h
  obtain ⟨y, -, rfl⟩ := Option.map_eq_some_iff.mp h
  exact hx

/-- The number of a page that parses is its index. -/
theorem u32_of_parseUl {arg : Arg} {page : Nat} (h : parseUl arg = some page) : u32 page = page :=
  Nat.mod_eq_of_lt (parseUl_lt h)

/-- No page is named twice by as many numbers as `num` can be. -/
theorem nodup_pages {arg : Arg} {num : Nat} (h : parseUl arg = some num) (page : Nat) :
    ((List.range num).map fun i => u32 (page + i)).Nodup := by
  have hnum := parseUl_lt h
  refine List.Nodup.map_on (fun i hi j hj hij => ?_) List.nodup_range
  have hi' := List.mem_range.mp hi
  have hj' := List.mem_range.mp hj
  unfold u32 at hij
  omega

/-! ## What the commands do -/

namespace Reports

variable {cfg : Config} {stores : List (Nat × UInt8)}

theorem of_made {req : Request} {r : Int × Trace} {made : Log}
    (hstores : ∀ s ∈ stores, s.1 < cfg.argcMax) (hmade : Made { stores := stores } r made)
    (hdone : AllOk made → AsAsked req made) : Reports cfg (some req) r := by
  have hlog : r.2.log = made := by rw [hmade.trace]; rfl
  have hbuf : r.2.stores = stores := by rw [hmade.trace]; rfl
  have hok : r.1 = 0 ↔ AllOk r.2.log := by rw [hlog, hmade.ok]
  refine ⟨hok.trans (and_iff_right rfl).symm, nofun, by rw [hbuf]; exact hstores, ?_⟩
  rintro req' hreq h0
  obtain rfl : req = req' := Option.some.inj hreq
  rw [hlog]
  exact hdone (hmade.ok.mp h0)

theorem of_refused (hstores : ∀ s ∈ stores, s.1 < cfg.argcMax) :
    Reports cfg none (-einval, { stores := stores }) := by
  have hret : (-einval : Int) ≠ 0 := by decide
  exact ⟨iff_of_false hret fun h => Bool.false_ne_true h.1, fun _ => rfl, hstores, nofun⟩

/-- What parses is done, and the rest is refused. -/
theorem of_parse {α : Type} {parsed : Option α} {req : α → Request} {act : α → Int × Trace}
    (hdone : ∀ v, parsed = some v → ∃ made, Made {} (act v) made ∧
      (AllOk made → AsAsked (req v) made)) :
    Reports cfg (parsed.map req) (parsed.elim (-einval, {}) act) := by
  cases parsed with
  | none => exact of_refused (List.forall_mem_nil _)
  | some v =>
    obtain ⟨made, hmade, hasked⟩ := hdone v rfl
    exact of_made (List.forall_mem_nil _) hmade hasked

end Reports

section Commands

variable (cfg : Config) (dev : Device) {argv : List Arg}

theorem cmdRead_reports (h : argv.length = 3) :
    Reports cfg (request cfg .read argv) (cmdRead dev argv {}) := by
  obtain ⟨name, a, b, rfl⟩ := List.length_eq_three.mp h
  have hreq : request cfg .read [name, a, b] =
      (parseTwo a b).map fun v => .read v.1 v.2 := by
    delta request
    rw [values_two]
    cases parseTwo a b <;> rfl
  have hcmd : cmdRead dev [name, a, b] {} =
      (parseTwo a b).elim (-einval, {}) fun v => doRead dev v.1 v.2 {} := by
    simp only [cmdRead, argAt, List.getD_cons_succ, List.getD_cons_zero, parseTwo]
    cases parseUl a <;> cases parseUl b <;> rfl
  rw [hreq, hcmd]
  refine .of_parse fun v _ => ?_
  obtain ⟨made, hmade, hread⟩ := doRead_readsArea dev v.1 v.2 {}
  exact ⟨made, hmade, fun hok => (hread hok).2⟩

theorem cmdErase_reports (h : argv.length = 3) :
    Reports cfg (request cfg .erase argv) (cmdErase dev argv {}) := by
  obtain ⟨name, a, b, rfl⟩ := List.length_eq_three.mp h
  have hreq : request cfg .erase [name, a, b] =
      (parseTwo a b).map fun v => .erase v.1 v.2 := by
    delta request
    rw [values_two]
    cases parseTwo a b <;> rfl
  have hcmd : cmdErase dev [name, a, b] {} =
      (parseTwo a b).elim (-einval, {}) fun v => doErase dev v.1 v.2 {} := by
    simp only [cmdErase, argAt, List.getD_cons_succ, List.getD_cons_zero, parseTwo]
    cases parseUl a <;> cases parseUl b <;> rfl
  rw [hreq, hcmd]
  refine .of_parse fun v _ => ?_
  obtain ⟨made, hmade, herase⟩ := doErase_made dev v.1 v.2 {}
  exact ⟨made, hmade, fun hok => (herase hok).2⟩

theorem pageReadAt_made {arg : Arg} {page : Nat} (hpage : parseUl arg = some page)
    (offset len : Nat) : ∃ made, Made {} (pageReadAt dev page offset len {}) made ∧
      (AllOk made → AsAsked (.pageRead page offset len) made) := by
  obtain ⟨made, hmade, hQ⟩ := withPageInfo_made dev page
    (fun info t => doRead_readsArea dev (offset + info.startOffset) len t) {}
  refine ⟨made, hmade, fun hok => ?_⟩
  obtain ⟨a, made', -, rfl, hnone, hread⟩ := hQ hok
  refine ⟨a.info, ?_, hread⟩
  rw [u32_of_parseUl hpage]
  exact congrArg ((page, a.info) :: ·) hnone

theorem cmdPageRead_reports (h : argv.length = 3 ∨ argv.length = 4) :
    Reports cfg (request cfg .pageRead argv) (cmdPageRead dev argv {}) := by
  rcases h with h | h
  · obtain ⟨name, a, b, rfl⟩ := List.length_eq_three.mp h
    have hreq : request cfg .pageRead [name, a, b] =
        (parseTwo a b).map fun v => .pageRead v.1 0 v.2 := by
      delta request
      rw [values_two]
      cases parseTwo a b <;> rfl
    have hcmd : cmdPageRead dev [name, a, b] {} =
        (parseTwo a b).elim (-einval, {}) fun v => pageReadAt dev v.1 0 v.2 {} := by
      simp only [cmdPageRead, h, if_true, argAt, List.getD_cons_succ, List.getD_cons_zero,
        parseTwo]
      cases parseUl a <;> cases parseUl b <;> rfl
    rw [hreq, hcmd]
    exact .of_parse fun v hv => pageReadAt_made dev (parseTwo_left hv) 0 v.2
  · obtain ⟨name, a, b, c, rfl⟩ := List.length_eq_four.mp h
    have hreq : request cfg .pageRead [name, a, b, c] =
        ((parseTwo a b).bind fun v => (parseUl c).map fun z => (v, z)).map
          fun v => .pageRead v.1.1 v.1.2 v.2 := by
      delta request
      simp only [values, List.tail_cons, mapM_parseUl_cons, List.mapM_nil, parseTwo]
      cases parseUl a <;> cases parseUl b <;> cases parseUl c <;> rfl
    have hcmd : cmdPageRead dev [name, a, b, c] {} =
        ((parseTwo a b).bind fun v => (parseUl c).map fun z => (v, z)).elim (-einval, {})
          fun v => pageReadAt dev v.1.1 v.1.2 v.2 {} := by
      simp only [cmdPageRead, h, argAt, List.getD_cons_succ, List.getD_cons_zero, parseTwo]
      cases parseUl a <;> cases parseUl b <;> cases parseUl c <;> rfl
    rw [hreq, hcmd]
    refine .of_parse fun v hv => ?_
    obtain ⟨ab, hab, hv⟩ := Option.bind_eq_some_iff.mp hv
    obtain ⟨z, -, rfl⟩ := Option.map_eq_some_iff.mp hv
    exact pageReadAt_made dev (parseTwo_left hab) ab.2 z

theorem pageEraseLoop_asAsked {page num : Nat} {arg : Arg} (hnum : parseUl arg = some num) :
    ∃ made, Made {} (pageEraseLoop dev page num 0 0 {}) made ∧
      (AllOk made → AsAsked (.pageErase page num) made) := by
  obtain ⟨made, hmade, hpages⟩ := pageEraseLoop_made dev page num 0 {}
  refine ⟨made, hmade, fun hok => ?_⟩
  obtain ⟨hindices, herases⟩ := hpages hok
  rw [← List.range_eq_range'] at hindices
  exact ⟨hindices, by rw [hindices]; exact nodup_pages hnum page, herases⟩

theorem cmdPageErase_reports (h : argv.length = 2 ∨ argv.length = 3)
    (hnum : argv.length = 3 → (parseUl (argAt argv 1)).isSome = true →
      parseUl (argAt argv 2) ≠ none) :
    Reports cfg (request cfg .pageErase argv) (cmdPageErase dev argv {}) := by
  rcases h with h | h
  · obtain ⟨name, a, rfl⟩ := List.length_eq_two.mp h
    have hreq : request cfg .pageErase [name, a] =
        (parseUl a).map fun page => .pageErase page 1 := by
      delta request
      simp only [values, List.tail_cons, mapM_parseUl_cons, List.mapM_nil]
      cases parseUl a <;> rfl
    have hcmd : cmdPageErase dev [name, a] {} =
        (parseUl a).elim (-einval, {}) fun page => pageEraseLoop dev page 1 0 0 {} := by
      simp only [cmdPageErase, h, if_true, argAt, List.getD_cons_succ, List.getD_cons_zero]
      cases parseUl a <;> rfl
    have hone : parseUl ['1'] = some 1 := by decide
    rw [hreq, hcmd]
    exact .of_parse fun page _ => pageEraseLoop_asAsked dev hone
  · obtain ⟨name, a, b, rfl⟩ := List.length_eq_three.mp h
    have hreq : request cfg .pageErase [name, a, b] =
        (parseTwo a b).map fun v => .pageErase v.1 v.2 := by
      delta request
      rw [values_two]
      cases parseTwo a b <;> rfl
    have hcmd : cmdPageErase dev [name, a, b] {} =
        (parseTwo a b).elim (-einval, {}) fun v => pageEraseLoop dev v.1 v.2 0 0 {} := by
      have hb : (parseUl a).isSome = true → parseUl b ≠ none := hnum h
      simp only [cmdPageErase, h, argAt, List.getD_cons_succ, List.getD_cons_zero, parseTwo]
      cases ha : parseUl a with
      | none => rfl
      | some page =>
        cases hn : parseUl b with
        | none => exact absurd hn (hb (by rw [ha]; rfl))
        | some num => rfl
    rw [hreq, hcmd]
    refine .of_parse fun v hv => ?_
    obtain ⟨page, -, hv⟩ := Option.bind_eq_some_iff.mp hv
    obtain ⟨num, hnum, rfl⟩ := Option.map_eq_some_iff.mp hv
    exact pageEraseLoop_asAsked dev hnum

/-- Bytes that fit into `buf` are all stored and passed on, or one of them is no byte. -/
theorem bytes_reports {args : List Arg} (hfit : args.length ≤ cfg.argcMax)
    {req : List UInt8 → Request} (act : List UInt8 → Trace → Int × Trace)
    (hdone : ∀ bytes t, ∃ made, Made t (act bytes t) made ∧
      (AllOk made → AsAsked (req bytes) made)) :
    Reports cfg (((args.mapM parseUl).bind (bytesOf cfg)).map req)
      (if (parseBytes args 0).1 then
        act ((parseBytes args 0).2.map Prod.snd) { stores := (parseBytes args 0).2 }
      else (-einval, { stores := (parseBytes args 0).2 })) := by
  have hstores : ∀ s ∈ (parseBytes args 0).2, s.1 < cfg.argcMax := fun s hs => by
    have hindex := parseBytes_index args 0 s hs
    omega
  rw [bind_bytesOf_of_le hfit, parseBytes_eq args 0]
  by_cases hok : (parseBytes args 0).1 = true
  · obtain ⟨made, hmade, hasked⟩ :=
      hdone ((parseBytes args 0).2.map Prod.snd) { stores := (parseBytes args 0).2 }
    rw [if_pos hok, if_pos hok]
    exact .of_made hstores hmade hasked
  · rw [if_neg hok, if_neg hok]
    exact .of_refused hstores

theorem cmdWrite_reports (h : 2 ≤ argv.length) :
    Reports cfg (request cfg .write argv) (cmdWrite cfg dev argv {}) := by
  obtain ⟨name, o, args, rfl⟩ : ∃ name o args, argv = name :: o :: args := by
    match argv, h with
    | name :: o :: args, _ => exact ⟨name, o, args, rfl⟩
  have hreq : request cfg .write (name :: o :: args) = (parseUl o).bind fun offset =>
      ((args.mapM parseUl).bind (bytesOf cfg)).map (.write offset) := by
    delta request
    simp only [values, List.tail_cons, mapM_parseUl_cons]
    cases parseUl o <;> cases args.mapM parseUl <;> rfl
  have hcmd : cmdWrite cfg dev (name :: o :: args) {} = (parseUl o).elim (-einval, {})
      fun offset => if cfg.argcMax < args.length then (-einval, {})
        else if (parseBytes args 0).1 then
          doWrite dev offset ((parseBytes args 0).2.map Prod.snd) true
            { stores := (parseBytes args 0).2 }
        else (-einval, { stores := (parseBytes args 0).2 }) := by
    simp only [cmdWrite, argAt, List.getD_cons_succ, List.getD_cons_zero]
    cases parseUl o <;> rfl
  rw [hreq, hcmd]
  cases parseUl o with
  | none => exact .of_refused (List.forall_mem_nil _)
  | some offset =>
    dsimp only [Option.bind_some, Option.elim_some]
    by_cases hfit : cfg.argcMax < args.length
    · rw [bind_bytesOf_of_lt hfit, if_pos hfit]
      exact .of_refused (List.forall_mem_nil _)
    · rw [if_neg hfit]
      refine bytes_reports cfg (Nat.le_of_not_lt hfit)
        (fun bytes t => doWrite dev offset bytes true t) fun bytes t => ?_
      obtain ⟨made, hmade, hwrite⟩ := doWrite_made dev offset bytes t
      exact ⟨made, hmade, fun hok => (hwrite hok).2⟩

theorem cmdPageWrite_reports (h : 3 ≤ argv.length) (hfit : argv.length - 3 ≤ cfg.argcMax) :
    Reports cfg (request cfg .pageWrite argv) (cmdPageWrite dev argv {}) := by
  obtain ⟨name, p, o, args, rfl⟩ : ∃ name p o args, argv = name :: p :: o :: args := by
    match argv, h with
    | name :: p :: o :: args, _ => exact ⟨name, p, o, args, rfl⟩
  have hreq : request cfg .pageWrite (name :: p :: o :: args) = (parseTwo p o).bind fun v =>
      ((args.mapM parseUl).bind (bytesOf cfg)).map (.pageWrite v.1 v.2) := by
    delta request
    simp only [values, List.tail_cons, mapM_parseUl_cons, parseTwo]
    cases parseUl p <;> cases parseUl o <;> cases args.mapM parseUl <;> rfl
  have hcmd : cmdPageWrite dev (name :: p :: o :: args) {} = (parseTwo p o).elim (-einval, {})
      fun v => if (parseBytes args 0).1 then
          withPageInfo dev v.1 (fun info t =>
            doWrite dev (info.startOffset + v.2) ((parseBytes args 0).2.map Prod.snd) true t)
            { stores := (parseBytes args 0).2 }
        else (-einval, { stores := (parseBytes args 0).2 }) := by
    simp only [cmdPageWrite, argAt, List.getD_cons_succ, List.getD_cons_zero, parseTwo]
    cases parseUl p <;> cases parseUl o <;> rfl
  rw [hreq, hcmd]
  cases hv : parseTwo p o with
  | none => exact .of_refused (List.forall_mem_nil _)
  | some v =>
    refine bytes_reports cfg hfit (fun bytes t => withPageInfo dev v.1
      (fun info t => doWrite dev (info.startOffset + v.2) bytes true t) t) fun bytes t => ?_
    obtain ⟨made, hmade, hQ⟩ := withPageInfo_made dev v.1
      (fun info t => doWrite_made dev (info.startOffset + v.2) bytes t) t
    refine ⟨made, hmade, fun hok => ?_⟩
    obtain ⟨a, made', -, rfl, hnone, hwrite⟩ := hQ hok
    refine ⟨a.info, ?_, hwrite⟩
    rw [u32_of_parseUl (parseTwo_left hv)]
    exact congrArg ((v.1, a.info) :: ·) hnone

end Commands

/-- A `page_erase` whose number of pages does not parse does nothing and returns 0. -/
theorem cmdPageErase_of_badNum {argv : List Arg} (dev : Device) (hlen : argv.length = 3)
    (hpage : (parseUl (argAt argv 1)).isSome = true) (hnum : parseUl (argAt argv 2) = none) :
    cmdPageErase dev argv {} = (0, {}) := by
  obtain ⟨page, hpage⟩ := Option.isSome_iff_exists.mp hpage
  have hargc : argv.length ≠ 2 := by omega
  simp only [cmdPageErase, hpage, hnum, if_neg hargc]

theorem request_of_badNum {argv : List Arg} (cfg : Config) (hlen : argv.length = 3)
    (hnum : parseUl (argAt argv 2) = none) : request cfg .pageErase argv = none := by
  obtain ⟨name, a, b, rfl⟩ := List.length_eq_three.mp hlen
  have htwo : parseTwo a b = none := by
    have hb : parseUl b = none := hnum
    rw [parseTwo, hb]
    cases parseUl a <;> rfl
  delta request
  rw [values_two, htwo]
  rfl

/-- A command line within the limits is done and reported, exactly unless it is a `page_erase` whose
number of pages does not parse. -/
theorem reports_iff_not_badNum (cfg : Config) (dev : Device) (line : Line cfg) :
    Reports cfg line.asked (line.execute dev) ↔ ¬ line.BadNum := by
  obtain ⟨cmd, argv, hmin, hmax, hshell⟩ := line
  constructor
  · rintro hreports ⟨hcmd, hlen, hpage, hnum⟩
    obtain rfl : cmd = .pageErase := hcmd
    have hret : (cmdPageErase dev argv {}).1 = 0 := by
      rw [cmdPageErase_of_badNum dev hlen hpage hnum]
    have hasked := (hreports.result.mp hret).1
    rw [Line.asked, request_of_badNum cfg hlen hnum] at hasked
    cases hasked
  · intro hgood
    cases cmd with
    | erase => exact cmdErase_reports cfg dev (Nat.le_antisymm hmax hmin)
    | pageErase =>
      have hlen : argv.length = 2 ∨ argv.length = 3 := by
        dsimp only [Command.mandatory, Command.optional] at hmin hmax
        omega
      exact cmdPageErase_reports cfg dev hlen fun h hpage hnum => hgood ⟨rfl, h, hpage, hnum⟩
    | pageRead =>
      have hlen : argv.length = 3 ∨ argv.length = 4 := by
        dsimp only [Command.mandatory, Command.optional] at hmin hmax
        omega
      exact cmdPageRead_reports cfg dev hlen
    | pageWrite =>
      have hfit : argv.length - 3 ≤ cfg.argcMax := by
        dsimp only [Config.argcMax] at hshell ⊢
        omega
      exact cmdPageWrite_reports cfg dev hmin hfit
    | read => exact cmdRead_reports cfg dev (Nat.le_antisymm hmax hmin)
    | write => exact cmdWrite_reports cfg dev (Nat.le_of_lt hmin)

/-- `page_erase 1 x` -/
def pageEraseX : Line ⟨12, by decide⟩ where
  cmd := .pageErase
  argv := [['p', 'a', 'g', 'e', '_', 'e', 'r', 'a', 's', 'e'], ['1'], ['x']]
  mandatory_le := by decide
  le_optional := by decide
  le_shell := by decide

/-- `page_erase 1 x` returns 0. -/
theorem page_erase_x_returns_zero :
    ¬ Reports ⟨12, by decide⟩ pageEraseX.asked (pageEraseX.execute fun _ _ => { ret := 0 }) := by
  intro h
  have hasked := (h.result.mp (by decide)).1
  revert hasked
  decide

end FlashShell
end ZephyrSamples
