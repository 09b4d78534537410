import Mathlib.Data.List.Basic
import ZephyrSamples.Lib.Pieces
import ZephyrSamples.Zperf.ShellUtils

/-!
# The commands of the flash shell

The handlers of the flash_shell sample's `main.c` that touch the flash, over a flash device that
answers each call of the flash API as it likes.  What a handler prints is left out, and so is the
content of what is read, which is only printed.  Offsets and lengths are numbers: `off_t` and
`size_t` are taken to hold their sums.  An `unsigned long` has 32 bits.
-/

namespace ZephyrSamples
namespace FlashShell

open Zperf (isSpace takeSign)

/-! ## Arguments -/

/-- A string of `argv`. -/
abbrev Arg := List Char

/-- The build, which `#error` stops unless `CONFIG_SHELL_ARGC_MAX` is above 4. -/
structure Config where
  shellArgcMax : Nat
  above : 4 < shellArgcMax

/-- `ARGC_MAX` -/
def Config.argcMax (cfg : Config) : Nat := cfg.shellArgcMax - 4

/-- `EINVAL` -/
def einval : Int := 22

/-- `ENODEV` -/
def enodev : Int := 19

/-- What a character counts for as a digit, in any base. -/
def digitOf (c : Char) : Option Nat :=
  if c.isDigit then some (c.toNat - 48)
  else if c.isUpper then some (c.toNat - 55)
  else if c.isLower then some (c.toNat - 87)
  else none

/-- Whether a character is a digit of the base. -/
def isDigitIn (base : Nat) (c : Char) : Bool := (digitOf c).any (· < base)

/-- The value of a text of digits of the base. -/
def valueIn (base : Nat) (digits : List Char) : Nat :=
  digits.foldl (fun n c => base * n + (digitOf c).getD 0) 0

/-- The base that a text is written in when none is given, and the text after `0x`. -/
def takeBase : List Char → Nat × List Char
  | '0' :: x :: rest => if x = 'x' ∨ x = 'X' then (16, rest) else (8, '0' :: x :: rest)
  | '0' :: [] => (8, ['0'])
  | text => (10, text)

/-- `strtoul` in base 0: the value and where the text goes on, which is its very start if there is
no digit.  Beyond `ULONG_MAX` the value is `ULONG_MAX`, and a minus sign negates in 32 bits. -/
def strtoul (str : Arg) : Nat × Arg :=
  let (negative, rest) := takeSign (str.dropWhile isSpace)
  let (base, text) := takeBase rest
  let digits := text.takeWhile (isDigitIn base)
  if digits = [] then (0, str)
  else
    let value := valueIn base digits
    let suffix := text.dropWhile (isDigitIn base)
    if 4294967296 ≤ value then (4294967295, suffix)
    else (if negative then (4294967296 - value) % 4294967296 else value, suffix)

/-- `parse_ul` -/
def parseUl (str : Arg) : Option Nat :=
  let (val, rest) := strtoul str
  if str = [] ∨ rest ≠ [] then none else some val

/-- `parse_u8` -/
def parseU8 (str : Arg) : Option UInt8 :=
  match parseUl str with
  | none => none
  | some val => if 0xff < val then none else some (UInt8.ofNat val)

/-- The loop over `parse_u8(argv[i], &buf[i])`: whether all bytes parse, and what is stored in `buf`
at which index. -/
def parseBytes : List Arg → Nat → Bool × List (Nat × UInt8)
  | [], _ => (true, [])
  | arg :: args, i =>
    match parseU8 arg with
    | none => (false, [])
    | some byte =>
      let (ok, stores) := parseBytes args (i + 1)
      (ok, (i, byte) :: stores)

/-! ## The flash API -/

/-- A call of the flash API. -/
inductive FlashCall where
  | flashWriteProtectionSet (enable : Bool)
  | flashErase (offset size : Nat)
  | flashWrite (offset : Nat) (data : List UInt8)
  | flashRead (offset len : Nat)
  | flashGetPageInfoByIdx (idx : Nat)
  deriving DecidableEq

/-- The fields of `struct flash_pages_info` that are used. -/
structure PagesInfo where
  startOffset : Nat
  size : Nat
  deriving DecidableEq

/-- What a call returns, and the page info it fills in if it is asked for one. -/
structure Answer where
  ret : Int
  info : PagesInfo := ⟨0, 0⟩
  deriving DecidableEq

/-- The calls made, with their answers. -/
abbrev Log := List (FlashCall × Answer)

/-- A flash device answers a call in the light of all the calls made before. -/
abbrev Device := Log → FlashCall → Answer

/-- The calls made, and what was stored in `buf` at which index. -/
structure Trace where
  log : Log := []
  stores : List (Nat × UInt8) := []

/-- Makes a call. -/
def call (dev : Device) (c : FlashCall) (t : Trace) : Answer × Trace :=
  let answer := dev t.log c
  (answer, { t with log := t.log ++ [(c, answer)] })

/-- The index of a page as the `u32_t` that the flash API takes. -/
def u32 (n : Nat) : Nat := n % 4294967296

/-! ## Flash operations -/

/-- `do_read` -/
def doRead (dev : Device) (offset len : Nat) (t : Trace) : Int × Trace :=
  if 64 < len then
    let (answer, t) := call dev (.flashRead offset 64) t
    if answer.ret ≠ 0 then (answer.ret, t) else doRead dev (offset + 64) (len - 64) t
  else
    let (answer, t) := call dev (.flashRead offset len) t
    (answer.ret, t)
termination_by len

/-- An operation between the calls that disable and enable the protection, as `do_erase` and
`do_write` make it.  Protection stays disabled when the operation fails. -/
def switched (dev : Device) (op : FlashCall) (t : Trace) : Int × Trace :=
  let (disabled, t) := call dev (.flashWriteProtectionSet false) t
  if disabled.ret ≠ 0 then (disabled.ret, t)
  else
    let (answer, t) := call dev op t
    if answer.ret ≠ 0 then (answer.ret, t)
    else
      let (enabled, t) := call dev (.flashWriteProtectionSet true) t
      (enabled.ret, t)

/-- `do_erase` -/
def doErase (dev : Device) (offset size : Nat) (t : Trace) : Int × Trace :=
  switched dev (.flashErase offset size) t

/-- `do_write` -/
def doWrite (dev : Device) (offset : Nat) (buf : List UInt8) (readBack : Bool) (t : Trace) :
    Int × Trace :=
  let (ret, t) := switched dev (.flashWrite offset buf) t
  if ret ≠ 0 then (ret, t)
  else if readBack then doRead dev offset buf.length t
  else (ret, t)

/-- `flash_get_page_info_by_idx`, whose failure ends the command. -/
def withPageInfo (dev : Device) (page : Nat) (next : PagesInfo → Trace → Int × Trace) (t : Trace) :
    Int × Trace :=
  let (answer, t) := call dev (.flashGetPageInfoByIdx (u32 page)) t
  if answer.ret ≠ 0 then (answer.ret, t) else next answer.info t

/-! ## Handlers -/

/-- `argv[n]` -/
def argAt (argv : List Arg) (n : Nat) : Arg := argv.getD n []

/-- `cmd_read` -/
def cmdRead (dev : Device) (argv : List Arg) (t : Trace) : Int × Trace :=
  match parseUl (argAt argv 1), parseUl (argAt argv 2) with
  | some offset, some len => doRead dev offset len t
  | _, _ => (-einval, t)

/-- `cmd_erase` -/
def cmdErase (dev : Device) (argv : List Arg) (t : Trace) : Int × Trace :=
  match parseUl (argAt argv 1), parseUl (argAt argv 2) with
  | some offset, some size => doErase dev offset size t
  | _, _ => (-einval, t)

/-- `cmd_write` -/
def cmdWrite (cfg : Config) (dev : Device) (argv : List Arg) (t : Trace) : Int × Trace :=
  match parseUl (argAt argv 1) with
  | none => (-einval, t)
  | some offset =>
    if cfg.argcMax < argv.length - 2 then (-einval, t)
    else
      let (ok, stores) := parseBytes (argv.drop 2) 0
      let t := { t with stores := t.stores ++ stores }
      if ok then doWrite dev offset (stores.map Prod.snd) true t else (-einval, t)

/-- What `cmd_page_read` does once its arguments are parsed. -/
def pageReadAt (dev : Device) (page offset len : Nat) (t : Trace) : Int × Trace :=
  withPageInfo dev page (fun info t => doRead dev (offset + info.startOffset) len t) t

/-- `cmd_page_read` -/
def cmdPageRead (dev : Device) (argv : List Arg) (t : Trace) : Int × Trace :=
  if argv.length = 3 then
    match parseUl (argAt argv 1), parseUl (argAt argv 2) with
    | some page, some len => pageReadAt dev page 0 len t
    | _, _ => (-einval, t)
  else
    match parseUl (argAt argv 1), parseUl (argAt argv 2), parseUl (argAt argv 3) with
    | some page, some offset, some len => pageReadAt dev page offset len t
    | _, _, _ => (-einval, t)

/-- The loop of `cmd_page_erase` from page `page + i` on, with the last result. -/
def pageEraseLoop (dev : Device) (page : Nat) : Nat → Nat → Int → Trace → Int × Trace
  | 0, _, ret, t => (ret, t)
  | left + 1, i, _, t =>
    withPageInfo dev (page + i) (fun info t =>
      let (ret, t) := doErase dev info.startOffset info.size t
      if ret ≠ 0 then (ret, t) else pageEraseLoop dev page left (i + 1) ret t) t

/-- `cmd_page_erase`, where `check_flash_device` has left 0 in `ret`. -/
def cmdPageErase (dev : Device) (argv : List Arg) (t : Trace) : Int × Trace :=
  let ret : Int := 0
  match parseUl (argAt argv 1) with
  | none => (-einval, t)
  | some page =>
    if argv.length = 2 then pageEraseLoop dev page 1 0 ret t
    else
      match parseUl (argAt argv 2) with
      -- this way out does not set `ret`
      | none => (ret, t)
      | some num => pageEraseLoop dev page num 0 ret t

/-- `cmd_page_write` -/
def cmdPageWrite (dev : Device) (argv : List Arg) (t : Trace) : Int × Trace :=
  match parseUl (argAt argv 1), parseUl (argAt argv 2) with
  | some page, some off =>
    let (ok, stores) := parseBytes (argv.drop 3) 0
    let t := { t with stores := t.stores ++ stores }
    if ok then
      withPageInfo dev page (fun info t =>
        doWrite dev (info.startOffset + off) (stores.map Prod.snd) true t) t
    else (-einval, t)
  | _, _ => (-einval, t)

/-- The commands of `sub_flash` that touch the flash. -/
inductive Command where
  | erase | pageErase | pageRead | pageWrite | read | write
  deriving DecidableEq

/-- The number of mandatory arguments in `sub_flash`, the name of the command included. -/
def Command.mandatory : Command → Nat
  | .erase => 3
  | .pageErase => 2
  | .pageRead => 3
  | .pageWrite => 3
  | .read => 3
  | .write => 3

/-- The number of optional arguments in `sub_flash`. -/
def Command.optional : Command → Nat
  | .erase => 0
  | .pageErase => 1
  | .pageRead => 1
  | .pageWrite => 255
  | .read => 0
  | .write => 255

/-- The handler of a command, past `check_flash_device`. -/
def Command.handler (cfg : Config) : Command → Device → List Arg → Trace → Int × Trace
  | .erase => cmdErase
  | .pageErase => cmdPageErase
  | .pageRead => cmdPageRead
  | .pageWrite => cmdPageWrite
  | .read => cmdRead
  | .write => cmdWrite cfg

/-- A command: `check_flash_device` keeps every one of them from doing anything as long as
`flash_device` is `NULL`. -/
def perform (cfg : Config) (flashDevice : Option Device) (cmd : Command) (argv : List Arg)
    (t : Trace) : Int × Trace :=
  match flashDevice with
  | none => (-enodev, t)
  | some dev => cmd.handler cfg dev argv t

/-! ## What the operations do -/

theorem parseUl_lt {str : Arg} {val : Nat} (h : parseUl str = some val) : val < 4294967296 := by
  have hval : (strtoul str).1 < 4294967296 := by
    dsimp only [strtoul]
    split_ifs <;> dsimp only <;> omega
  dsimp only [parseUl] at h
  split_ifs at h
  exact Option.some.inj h ▸ hval

example : parseUl ['0', 'x', '1', 'F'] = some 31 := by decide
example : parseUl ['0', '8'] = none := by decide

/-- More calls are made. -/
def Trace.add (t : Trace) (made : Log) : Trace := { t with log := t.log ++ made }

theorem Trace.add_nil (t : Trace) : t.add [] = t := by
  rw [Trace.add, List.append_nil]

theorem Trace.add_add (t : Trace) (as bs : Log) : (t.add as).add bs = t.add (as ++ bs) := by
  simp only [Trace.add, List.append_assoc]

theorem exists_call_eq (dev : Device) (c : FlashCall) (t : Trace) :
    ∃ answer, call dev c t = (answer, t.add [(c, answer)]) :=
  ⟨_, rfl⟩

/-- The ways an operation between the calls for the protection goes: the call before it fails, the
operation does, or its result is that of the call after it. -/
theorem switched_cases (dev : Device) (op : FlashCall) (t : Trace) :
    (∃ a, a.ret ≠ 0 ∧
      switched dev op t = (a.ret, t.add [(.flashWriteProtectionSet false, a)])) ∨
    (∃ a b, a.ret = 0 ∧ b.ret ≠ 0 ∧
      switched dev op t = (b.ret, t.add [(.flashWriteProtectionSet false, a), (op, b)])) ∨
    ∃ a b c, a.ret = 0 ∧ b.ret = 0 ∧
      switched dev op t =
        (c.ret, t.add [(.flashWriteProtectionSet false, a), (op, b),
          (.flashWriteProtectionSet true, c)]) := by
  obtain ⟨a, ha⟩ := exists_call_eq dev (.flashWriteProtectionSet false) t
  by_cases hdisabled : a.ret = 0
  · obtain ⟨b, hb⟩ := exists_call_eq dev op (t.add [(.flashWriteProtectionSet false, a)])
    by_cases hop : b.ret = 0
    · obtain ⟨c, hc⟩ := exists_call_eq dev (.flashWriteProtectionSet true)
        (t.add [(.flashWriteProtectionSet false, a), (op, b)])
      refine Or.inr (Or.inr ⟨a, b, c, hdisabled, hop, ?_⟩)
      simp only [switched, ha, hb, hc, hdisabled, hop, ne_eq, not_true_eq_false, if_false,
        Trace.add_add, List.cons_append, List.nil_append]
    · refine Or.inr (Or.inl ⟨a, b, hdisabled, hop, ?_⟩)
      simp only [switched, ha, hb, hdisabled, hop, ne_eq, not_true_eq_false, not_false_eq_true,
        if_false, if_true, Trace.add_add, List.cons_append, List.nil_append]
  · refine Or.inl ⟨a, hdisabled, ?_⟩
    simp only [switched, ha, hdisabled, ne_eq, not_false_eq_true, if_true]

/-- All the calls returned 0. -/
def AllOk (log : Log) : Prop := ∀ e ∈ log, e.2.ret = 0

theorem allOk_append {as bs : Log} : AllOk (as ++ bs) ↔ AllOk as ∧ AllOk bs :=
  List.forall_mem_append

theorem allOk_cons {e : FlashCall × Answer} {log : Log} :
    AllOk (e :: log) ↔ e.2.ret = 0 ∧ AllOk log :=
  List.forall_mem_cons

theorem allOk_nil : AllOk [] := List.forall_mem_nil _

/-- From `t` on the calls `made` are made, and the result is 0 exactly when all of them return 0. -/
structure Made (t : Trace) (r : Int × Trace) (made : Log) : Prop where
  trace : r.2 = t.add made
  ok : r.1 = 0 ↔ AllOk made

namespace Made

variable {t : Trace} {r r' : Int × Trace} {made made' : Log}

theorem single (t : Trace) (c : FlashCall) (a : Answer) :
    Made t (a.ret, t.add [(c, a)]) [(c, a)] :=
  ⟨rfl, by rw [allOk_cons, and_iff_left allOk_nil]⟩

/-- What follows a result of 0 decides. -/
theorem trans (h : Made t r made) (h0 : r.1 = 0) (h' : Made r.2 r' made') :
    Made t r' (made ++ made') := by
  constructor
  · rw [h'.trace, h.trace, Trace.add_add]
  · rw [h'.ok, allOk_append, and_iff_right (h.ok.mp h0)]

end Made

/-- The calls that read the pieces of an area. -/
def readsOf (pieces : List (Nat × Nat)) : List FlashCall :=
  pieces.map fun p => .flashRead p.1 p.2

/-- `do_read` only reads, and if all goes well it reads the area piece by piece. -/
theorem doRead_made (dev : Device) (offset len : Nat) (t : Trace) :
    ∃ made pieces, Made t (doRead dev offset len t) made ∧
      made.map Prod.fst = readsOf pieces ∧ (AllOk made → Tiles 64 offset len pieces) := by
  induction len using Nat.strong_induction_on generalizing offset t with
  | _ len ih =>
    by_cases hlen : 64 < len
    · obtain ⟨a, ha⟩ := exists_call_eq dev (.flashRead offset 64) t
      have hfirst := Made.single t (.flashRead offset 64) a
      by_cases h0 : a.ret = 0
      · have hread : doRead dev offset len t =
            doRead dev (offset + 64) (len - 64) (t.add [(.flashRead offset 64, a)]) := by
          rw [doRead, if_pos hlen, ha]
          exact if_neg (not_not.mpr h0)
        obtain ⟨made, pieces, hmade, hcalls, htiles⟩ :=
          ih (len - 64) (by omega) (offset + 64) (t.add [(.flashRead offset 64, a)])
        rw [hread]
        refine ⟨_, (offset, 64) :: pieces, hfirst.trans h0 hmade, ?_, fun hok => ?_⟩
        · rw [List.map_append, hcalls]
          rfl
        · have hrest := htiles (allOk_append.mp hok).2
          exact Tiles.cons_full (Nat.le_of_lt hlen) hrest
      · have hread : doRead dev offset len t =
            (a.ret, t.add [(.flashRead offset 64, a)]) := by
          rw [doRead, if_pos hlen, ha]
          exact if_pos h0
        rw [hread]
        exact ⟨_, [(offset, 64)], hfirst, rfl, fun hok => absurd (hfirst.ok.mpr hok) h0⟩
    · obtain ⟨a, ha⟩ := exists_call_eq dev (.flashRead offset len) t
      have hread : doRead dev offset len t = (a.ret, t.add [(.flashRead offset len, a)]) := by
        rw [doRead, if_neg hlen, ha]
      have htiles : Tiles 64 offset len [(offset, len)] := Tiles.singleton (Nat.le_of_not_lt hlen)
      rw [hread]
      exact ⟨_, _, Made.single t (.flashRead offset len) a, rfl, fun _ => htiles⟩

end FlashShell
end ZephyrSamples
