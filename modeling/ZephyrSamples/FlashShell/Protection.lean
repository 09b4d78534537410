import ZephyrSamples.FlashShell.Commands
import ZephyrSamples.Lib.Runs

/-!
# Write protection over the commands of the flash shell

The flash API's protection changes exactly when a call to change it returns 0.  `do_erase` and
`do_write` disable it and enable it again, but when the operation between fails they return without
enabling it.  So a run of commands leaves the protection enabled, or the attempt to enable it
failed, exactly as long as no erase and no write fails, except after such an attempt.
-/

namespace ZephyrSamples
namespace FlashShell

open Runs

/-! ## The protection along the calls -/

/-- Whether the protection is enabled, and whether a call to enable it has failed and none has
succeeded since. -/
structure Protection where
  enabled : Bool := true
  enableFailed : Bool := false
  deriving DecidableEq

/-- A call changes the protection if it is to and returns 0. -/
def Protection.step (p : Protection) : FlashCall × Answer → Protection
  | (.flashWriteProtectionSet enable, a) =>
    { enabled := if a.ret = 0 then enable else p.enabled
      enableFailed := if enable then a.ret ≠ 0 else p.enableFailed }
  | _ => p

/-- Protection is enabled, unless enabling it failed. -/
def Protection.Guarded (p : Protection) : Prop := p.enabled = true ∨ p.enableFailed = true

instance (p : Protection) : Decidable p.Guarded :=
  inferInstanceAs (Decidable (_ ∨ _))

/-- The calls that need the protection to be disabled. -/
def FlashCall.Changes : FlashCall → Prop
  | .flashErase .. => True
  | .flashWrite .. => True
  | _ => False

instance : DecidablePred FlashCall.Changes
  | .flashErase .. => inferInstanceAs (Decidable True)
  | .flashWrite .. => inferInstanceAs (Decidable True)
  | .flashWriteProtectionSet _ => inferInstanceAs (Decidable False)
  | .flashRead .. => inferInstanceAs (Decidable False)
  | .flashGetPageInfoByIdx _ => inferInstanceAs (Decidable False)

/-- The flash is only erased and written while the protection is disabled. -/
def OnlyOff (p : Protection) (log : Log) : Prop :=
  Along Protection.step (fun p e => e.1.Changes → p.enabled = false) p log

/-- Erasing and writing only fails when enabling the protection had failed. -/
def Excused (p : Protection) (log : Log) : Prop :=
  Along Protection.step (fun p e => e.1.Changes → e.2.ret ≠ 0 → p.enableFailed = true) p log

/-- The protection after the calls of a trace. -/
def protection (t : Trace) : Protection := run Protection.step {} t.log

/-- What is asked for when a command returns. -/
def Sound (t : Trace) : Prop := (protection t).Guarded ∧ OnlyOff {} t.log

/-- A step of a run is a command with its arguments. -/
def step (cfg : Config) (dev : Device) (t : Trace) (line : Command × List Arg) : Trace :=
  (perform cfg (some dev) line.1 line.2 t).2

/-! ## What the operations do to it -/

/-- From a guarded trace, `r` is guarded exactly if no failure went without excuse, and that is so
if the result is 0. -/
structure Handled (t : Trace) (r : Int × Trace) : Prop where
  back : Excused {} r.2.log → Excused {} t.log
  onlyOff : OnlyOff {} t.log → OnlyOff {} r.2.log
  guarded_iff : (protection t).Guarded → Excused {} t.log →
    ((protection r.2).Guarded ↔ Excused {} r.2.log)
  guarded : r.1 = 0 → (protection t).Guarded → (protection r.2).Guarded

namespace Handled

variable {t : Trace} {r r' : Int × Trace} {made : Log}

theorem of_log_eq (h : r.2.log = t.log) : Handled t r := by
  have hp : protection r.2 = protection t := by rw [protection, h]; rfl
  refine ⟨?_, ?_, fun hg hexc => ?_, fun _ hg => ?_⟩
  · rw [h]; exact id
  · rw [h]; exact id
  · rw [hp, h]; exact iff_of_true hg hexc
  · rw [hp]; exact hg

/-- It is enough to look at the calls made and the protection before them. -/
theorem of_made (htrace : r.2 = t.add made)
    (honly : OnlyOff (protection t) made)
    (hiff : (protection t).Guarded →
      ((run Protection.step (protection t) made).Guarded ↔ Excused (protection t) made))
    (hzero : r.1 = 0 → (protection t).Guarded →
      (run Protection.step (protection t) made).Guarded) : Handled t r := by
  have hlog : r.2.log = t.log ++ made := by rw [htrace]; rfl
  have hp : protection r.2 = run Protection.step (protection t) made := by
    rw [protection, hlog, run_append]
    rfl
  have hexc : Excused {} r.2.log ↔ Excused {} t.log ∧ Excused (protection t) made := by
    rw [hlog]
    exact along_append _
  refine ⟨fun h => (hexc.mp h).1, fun h => ?_, fun hg he => ?_, fun h0 hg => ?_⟩
  · rw [hlog]
    exact (along_append _).mpr ⟨h, honly⟩
  · rw [hp, hexc, and_iff_right he]
    exact hiff hg
  · rw [hp]
    exact hzero h0 hg

theorem trans (h : Handled t r) (h0 : r.1 = 0) (h' : Handled r.2 r') : Handled t r' := by
  refine ⟨h.back ∘ h'.back, h'.onlyOff ∘ h.onlyOff, fun hg he => ?_, fun h0' hg => ?_⟩
  · have hmid := h.guarded h0 hg
    exact h'.guarded_iff hmid ((h.guarded_iff hg he).mp hmid)
  · exact h'.guarded h0' (h.guarded h0 hg)

end Handled

/-- Calls that neither set the protection nor need it to be disabled. -/
def FlashCall.Neutral : FlashCall → Prop
  | .flashRead .. => True
  | .flashGetPageInfoByIdx _ => True
  | _ => False

theorem FlashCall.Neutral.step_eq {e : FlashCall × Answer} (h : e.1.Neutral) (p : Protection) :
    p.step e = p := by
  obtain ⟨c, a⟩ := e
  cases c <;> first | rfl | exact h.elim

theorem FlashCall.Neutral.not_changes {c : FlashCall} (h : c.Neutral) : ¬ c.Changes := by
  cases c <;> first | exact id | exact h.elim

theorem run_of_neutral {made : Log} (h : ∀ e ∈ made, e.1.Neutral) (p : Protection) :
    run Protection.step p made = p := by
  induction made with
  | nil => rfl
  | cons e made ih =>
    obtain ⟨he, hmade⟩ := List.forall_mem_cons.mp h
    rw [run_cons, he.step_eq, ih hmade]

theorem along_of_neutral {Q : Protection → FlashCall × Answer → Prop} {made : Log}
    (h : ∀ e ∈ made, e.1.Neutral) (p : Protection) :
    Along Protection.step (fun p e => e.1.Changes → Q p e) p made :=
  along_of_forall _ fun _ e he hchanges => absurd hchanges (h e he).not_changes

theorem Handled.of_neutral {t : Trace} {r : Int × Trace} {made : Log} (htrace : r.2 = t.add made)
    (h : ∀ e ∈ made, e.1.Neutral) : Handled t r := by
  have hrun := run_of_neutral h (protection t)
  have hexc : Excused (protection t) made := along_of_neutral h _
  refine .of_made htrace (along_of_neutral h _) (fun hg => ?_) fun _ hg => ?_
  · rw [hrun]
    exact iff_of_true hg hexc
  · rw [hrun]
    exact hg

theorem doRead_handled (dev : Device) (offset len : Nat) (t : Trace) :
    Handled t (doRead dev offset len t) := by
  obtain ⟨made, pieces, hmade, hcalls, -⟩ := doRead_made dev offset len t
  refine .of_neutral hmade.trace fun e he => ?_
  have hmem : e.1 ∈ readsOf pieces := hcalls ▸ List.mem_map_of_mem he
  obtain ⟨p, -, hp⟩ := List.mem_map.mp hmem
  rw [← hp]
  trivial

theorem FlashCall.Changes.step_eq {e : FlashCall × Answer} (h : e.1.Changes) (p : Protection) :
    p.step e = p := by
  obtain ⟨c, a⟩ := e
  cases c <;> first | rfl | exact h.elim

theorem step_disabled {a : Answer} (ha : a.ret = 0) (p : Protection) :
    p.step (.flashWriteProtectionSet false, a) = { p with enabled := false } := by
  simp [Protection.step, ha]

/-- Only the failure of the operation in the middle leaves the protection disabled. -/
theorem switched_handled (dev : Device) (op : FlashCall) (hop : op.Changes) (t : Trace) :
    Handled t (switched dev op t) := by
  obtain ⟨a, ha, hr⟩ | ⟨a, b, ha, hb, hr⟩ | ⟨a, b, c, ha, hb, hr⟩ := switched_cases dev op t
  all_goals rw [hr]
  · have hstep : (protection t).step (.flashWriteProtectionSet false, a) = protection t := by
      simp [Protection.step, ha]
    refine .of_made rfl ⟨False.elim, trivial⟩ (fun hg => ?_) fun h0 => absurd h0 ha
    rw [run_cons, hstep]
    exact iff_of_true hg ⟨False.elim, trivial⟩
  · have hstep := step_disabled ha (protection t)
    refine .of_made rfl ⟨False.elim, ?_, trivial⟩ (fun _ => ?_) fun h0 => absurd h0 hb
    · rw [hstep]
      exact fun _ => rfl
    · have hguarded : Protection.Guarded { protection t with enabled := false } ↔
          (protection t).enableFailed = true := or_iff_right Bool.false_ne_true
      rw [run_cons, run_cons, hstep, hop.step_eq, run_nil, hguarded]
      constructor
      · exact fun hfailed => ⟨False.elim, fun _ _ => by rw [hstep]; exact hfailed, trivial⟩
      · intro hexc
        have hfailed := hexc.2.1 hop hb
        rwa [hstep] at hfailed
  · have hstep := step_disabled ha (protection t)
    have hguarded : (run Protection.step (protection t) [(.flashWriteProtectionSet false, a),
        (op, b), (.flashWriteProtectionSet true, c)]).Guarded := by
      by_cases hc : c.ret = 0
      · exact Or.inl (by simp [Protection.step, hc])
      · exact Or.inr (by simp [Protection.step, hc])
    refine .of_made rfl ⟨False.elim, ?_, False.elim, trivial⟩ (fun _ => ?_) fun _ _ => hguarded
    · rw [hstep]
      exact fun _ => rfl
    · exact iff_of_true hguarded
        ⟨False.elim, fun _ hb' => absurd hb hb', False.elim, trivial⟩

theorem doErase_handled (dev : Device) (offset size : Nat) (t : Trace) :
    Handled t (doErase dev offset size t) :=
  switched_handled dev (.flashErase offset size) trivial t

theorem doWrite_handled (dev : Device) (offset : Nat) (buf : List UInt8) (readBack : Bool)
    (t : Trace) : Handled t (doWrite dev offset buf readBack t) := by
  have hwrite : Handled t (switched dev (.flashWrite offset buf) t) :=
    switched_handled dev (.flashWrite offset buf) trivial t
  dsimp only [doWrite]
  split
  · exact hwrite
  · next h0 =>
    split
    · exact hwrite.trans (not_not.mp h0) (doRead_handled dev offset buf.length _)
    · exact hwrite

theorem withPageInfo_handled (dev : Device) (page : Nat) {next : PagesInfo → Trace → Int × Trace}
    (hnext : ∀ info t, Handled t (next info t)) (t : Trace) :
    Handled t (withPageInfo dev page next t) := by
  obtain ⟨a, ha⟩ := exists_call_eq dev (.flashGetPageInfoByIdx (u32 page)) t
  have hcall : Handled t (a.ret, t.add [(.flashGetPageInfoByIdx (u32 page), a)]) :=
    .of_neutral rfl (List.forall_mem_singleton.mpr trivial)
  simp only [withPageInfo, ha]
  by_cases h0 : a.ret = 0
  · rw [if_neg (not_not.mpr h0)]
    exact hcall.trans h0 (hnext a.info _)
  · rw [if_pos h0]
    exact hcall

theorem pageEraseLoop_handled (dev : Device) (page left i : Nat) (ret : Int) (t : Trace) :
    Handled t (pageEraseLoop dev page left i ret t) := by
  induction left generalizing i ret t with
  | zero => exact .of_log_eq rfl
  | succ left ih =>
    refine withPageInfo_handled dev (page + i) (fun info t => ?_) t
    have herase := doErase_handled dev info.startOffset info.size t
    dsimp only
    split
    · exact herase
    · next h0 => exact herase.trans (not_not.mp h0) (ih _ _ _)

theorem pageReadAt_handled (dev : Device) (page offset len : Nat) (t : Trace) :
    Handled t (pageReadAt dev page offset len t) :=
  withPageInfo_handled dev page (fun _ t => doRead_handled dev _ _ t) t

/-! ## What the commands do to it -/

theorem cmdRead_handled (dev : Device) (argv : List Arg) (t : Trace) :
    Handled t (cmdRead dev argv t) := by
  unfold cmdRead
  split
  · exact doRead_handled dev _ _ t
  · exact .of_log_eq rfl

theorem cmdErase_handled (dev : Device) (argv : List Arg) (t : Trace) :
    Handled t (cmdErase dev argv t) := by
  unfold cmdErase
  split
  · exact doErase_handled dev _ _ t
  · exact .of_log_eq rfl

/-- What is stored in `buf` makes no difference to the protection. -/
theorem Handled.of_stores {t : Trace} {stores : List (Nat × UInt8)} {r : Int × Trace}
    (h : Handled { t with stores := stores } r) : Handled t r :=
  ⟨h.back, h.onlyOff, h.guarded_iff, h.guarded⟩

theorem cmdWrite_handled (cfg : Config) (dev : Device) (argv : List Arg) (t : Trace) :
    Handled t (cmdWrite cfg dev argv t) := by
  unfold cmdWrite
  split
  · exact .of_log_eq rfl
  · split
    · exact .of_log_eq rfl
    · dsimp only
      split
      · exact .of_stores (doWrite_handled dev _ _ true _)
      · exact .of_log_eq rfl

theorem cmdPageRead_handled (dev : Device) (argv : List Arg) (t : Trace) :
    Handled t (cmdPageRead dev argv t) := by
  unfold cmdPageRead
  split <;> split
  · exact pageReadAt_handled dev _ _ _ t
  · exact .of_log_eq rfl
  · exact pageReadAt_handled dev _ _ _ t
  · exact .of_log_eq rfl

theorem cmdPageErase_handled (dev : Device) (argv : List Arg) (t : Trace) :
    Handled t (cmdPageErase dev argv t) := by
  unfold cmdPageErase
  dsimp only
  split
  · exact .of_log_eq rfl
  · split
    · exact pageEraseLoop_handled dev _ _ _ _ t
    · split
      · exact .of_log_eq rfl
      · exact pageEraseLoop_handled dev _ _ _ _ t

theorem cmdPageWrite_handled (dev : Device) (argv : List Arg) (t : Trace) :
    Handled t (cmdPageWrite dev argv t) := by
  unfold cmdPageWrite
  split
  · dsimp only
    split
    · exact .of_stores (withPageInfo_handled dev _ (fun _ t => doWrite_handled dev _ _ true t) _)
    · exact .of_log_eq rfl
  · exact .of_log_eq rfl

theorem perform_handled (cfg : Config) (flashDevice : Option Device) (cmd : Command)
    (argv : List Arg) (t : Trace) : Handled t (perform cfg flashDevice cmd argv t) := by
  cases flashDevice with
  | none => exact .of_log_eq rfl
  | some dev =>
    cases cmd with
    | erase => exact cmdErase_handled dev argv t
    | pageErase => exact cmdPageErase_handled dev argv t
    | pageRead => exact cmdPageRead_handled dev argv t
    | pageWrite => exact cmdPageWrite_handled dev argv t
    | read => exact cmdRead_handled dev argv t
    | write => exact cmdWrite_handled cfg dev argv t

/-- In a run of commands the protection is enabled whenever one returns, or enabling it has failed,
and the flash is only erased and written while the protection is disabled, if and only if no erase
and no write fails but after a failure to enable it. -/
theorem always_sound_iff_excused (cfg : Config) (dev : Device)
    (lines : List (Command × List Arg)) :
    Always (step cfg dev) Sound {} lines ↔ Excused {} (run (step cfg dev) {} lines).log := by
  have hhandled (t : Trace) (line : Command × List Arg) :=
    perform_handled cfg (some dev) line.1 line.2 t
  have hiff (t : Trace) (line : Command × List Arg) (hsound : Sound t) (hexc : Excused {} t.log) :
      Sound (step cfg dev t line) ↔ Excused {} (step cfg dev t line).log := by
    have honly := (hhandled t line).onlyOff hsound.2
    have hguarded := (hhandled t line).guarded_iff hsound.1 hexc
    exact (and_iff_left honly).trans hguarded
  have hstart : Sound {} := ⟨Or.inl rfl, trivial⟩
  exact always_iff_last (step cfg dev) (fun t line => (hhandled t line).back) hiff hstart
    (show Excused {} [] from trivial) lines

/-- `erase 0 8` on a device whose `flash_erase` fails with `-EIO` returns with the protection
disabled. -/
theorem failed_erase_stays_disabled :
    ¬ Always (step ⟨12, by decide⟩ fun _ c => { ret := if c = .flashErase 0 8 then -5 else 0 })
      Sound {} [(.erase, [['e', 'r', 'a', 's', 'e'], ['0'], ['8']])] := by
  intro h
  have hguarded := (Always.last _ h).1
  revert hguarded
  decide

end FlashShell
end ZephyrSamples
