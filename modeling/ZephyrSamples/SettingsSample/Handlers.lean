import Mathlib.Data.List.Infix
import Mathlib.Data.List.TakeWhile
import Mathlib.Logic.Function.Basic
import ZephyrSamples.Lib.Memory
import ZephyrSamples.Lib.Runs

/-!
# The handlers of the settings sample

`alpha_handle_set` and `beta_handle_set` find the variable of a key, and `alpha_handle_export` and
`beta_handle_export` write the keys.  A component of a name is compared over its own length only,
so an abbreviation passes for the key, and `length` by itself is refused before it is compared. -/

namespace ZephyrSamples
namespace SettingsSample

open Memory Runs

abbrev Byte := UInt8

def einval : Int := 22

def enoent : Int := 2

/-- The settings subsystem, as far as the sample relies on it.  A name ends before a `=`. -/
structure SettingsSubsystem where
  nameSteq : List Char → List Char → Bool × Option (List Char)
  nameNext : List Char → Nat × Option (List Char)
  readCb : List Byte → Nat → Int × List Byte
  nameSteq_full : ∀ name key, '=' ∉ name →
    ((nameSteq name key).1 = true ∧ (nameSteq name key).2 = none ↔ name = key)
  nameNext_last : ∀ name, '=' ∉ name → '/' ∉ name → nameNext name = (name.length, none)
  nameNext_more : ∀ first rest, '=' ∉ first → '/' ∉ first →
    nameNext (first ++ '/' :: rest) = (first.length, some rest)
  readCb_copies : ∀ stored size, (readCb stored size).2 = stored.take size
  readCb_counts : ∀ stored size, (readCb stored size).1 = (stored.take size).length

/-- The variables of the sample. -/
inductive Key where
  | angle1
  | length
  | length1
  | length2
  | voltage
  | source
  deriving DecidableEq, Repr

/-- The `sizeof` of the variable. -/
def Key.size : Key → Nat
  | .angle1 => 1
  | .length => 8
  | .length1 => 2
  | .length2 => 4
  | .voltage => 4
  | .source => 6

/-- The bytes of a variable. -/
@[ext] structure Var (size : Nat) where
  bytes : List Byte
  length_eq : bytes.length = size

/-- `angle_val`, `length_val`, `length_1_val`, `length_2_val`, `voltage_val` and
`source_name_val`. -/
abbrev Vars := (k : Key) → Var k.size

/-- `strncmp` is 0. -/
def strncmpEq : List Char → List Char → Nat → Bool
  | _, _, 0 => true
  | [], [], _ + 1 => true
  | a :: as, b :: bs, n + 1 => a = b && strncmpEq as bs n
  | _, _, _ + 1 => false

section

variable (S : SettingsSubsystem)

/-- `read_cb` into a variable. -/
def Var.read {size : Nat} (v : Var size) (stored : List Byte) : Var size where
  bytes := overwrite v.bytes 0 (S.readCb stored size).2
  length_eq := by
    have hle : 0 + (S.readCb stored size).2.length ≤ v.bytes.length := by
      rw [S.readCb_copies, List.length_take, v.length_eq]
      omega
    exact (length_overwrite hle).trans v.length_eq

/-- A call of `read_cb` for the variable of a key. -/
def readKey (s : Vars) (k : Key) (stored : List Byte) : Vars :=
  Function.update s k ((s k).read S stored)

def alphaHandleSet (name : List Char) (stored : List Byte) (s : Vars) : Int × Vars :=
  if (S.nameSteq name "angle/1".toList).1 = true ∧ (S.nameSteq name "angle/1".toList).2 = none then
    if stored.length ≠ Key.angle1.size then (-einval, s)
    else (0, readKey S s .angle1 stored)
  else
    match S.nameNext name with
    | (_, none) => (-enoent, s)
    | (nextLen, some _) =>
      if strncmpEq name "length".toList nextLen then
        match S.nameNext name with
        | (_, none) => (0, readKey S s .length stored)
        | (nextLen, some next) =>
          if strncmpEq next "1".toList nextLen then (0, readKey S s .length1 stored)
          else if strncmpEq next "2".toList nextLen then (0, readKey S s .length2 stored)
          else (-enoent, s)
      else (-enoent, s)

def betaHandleSet (name : List Char) (stored : List Byte) (s : Vars) : Int × Vars :=
  match S.nameNext name with
  | (nameLen, none) =>
    if strncmpEq name "voltage".toList nameLen then (0, readKey S s .voltage stored)
    else if strncmpEq name "source".toList nameLen then
      if stored.length > Key.source.size - 1 then (-einval, s)
      else
        let rc := (S.readCb stored Key.source.size).1
        (if rc < 0 then rc else 0, readKey S s .source stored)
    else (-enoent, s)
  | (_, some _) => (-enoent, s)

end

/-- The bytes of a string, up to its terminator. -/
def cString (bytes : List Byte) : List Byte := bytes.takeWhile (· ≠ 0)

def strlen (bytes : List Byte) : Nat := (cString bytes).length

/-- `alpha_handle_export`, by the calls of `cb`. -/
def alphaHandleExport (v : Vars) : List (List Char × List Byte) :=
  [("alpha/angle/1".toList, (v .angle1).bytes), ("alpha/length".toList, (v .length).bytes),
    ("alpha/length/1".toList, (v .length1).bytes), ("alpha/length/2".toList, (v .length2).bytes)]

def betaHandleExport (v : Vars) : List (List Char × List Byte) :=
  [("alpha/beta/voltage".toList, (v .voltage).bytes),
    ("alpha/beta/source".toList, (v .source).bytes.take (strlen (v .source).bytes + 1))]

inductive Handler where
  | alpha
  | beta
  deriving DecidableEq, Repr

/-- The name under which a handler is registered, with the separator. -/
def Handler.subtree : Handler → List Char
  | .alpha => "alpha/".toList
  | .beta => "alpha/beta/".toList

def handle (S : SettingsSubsystem) : Handler → List Char → List Byte → Vars → Int × Vars
  | .alpha => alphaHandleSet S
  | .beta => betaHandleSet S

/-- The handler that is registered for a key, with the longer name first. -/
def handlerFor (key : List Char) : Option (Handler × List Char) :=
  if Handler.beta.subtree.isPrefixOf key then some (.beta, key.drop Handler.beta.subtree.length)
  else if Handler.alpha.subtree.isPrefixOf key then
    some (.alpha, key.drop Handler.alpha.subtree.length)
  else none

/-- One item of a load. -/
def loadItem (S : SettingsSubsystem) (s : Vars) (item : List Char × List Byte) : Vars :=
  match handlerFor item.1 with
  | none => s
  | some (h, name) => (handle S h name item.2 s).2

/-! ## The keys -/

def Key.handler : Key → Handler
  | .angle1 | .length | .length1 | .length2 => .alpha
  | .voltage | .source => .beta

/-- The name of a key as its handler gets it. -/
def Key.name : Key → List Char
  | .angle1 => "angle/1".toList
  | .length => "length".toList
  | .length1 => "length/1".toList
  | .length2 => "length/2".toList
  | .voltage => "voltage".toList
  | .source => "source".toList

def IsKey (h : Handler) (name : List Char) (k : Key) : Prop := k.handler = h ∧ k.name = name

instance (h : Handler) (name : List Char) (k : Key) : Decidable (IsKey h name k) :=
  inferInstanceAs (Decidable (_ ∧ _))

/-- No variable has the length of the stored value; a string comes with its terminator. -/
def WrongLength (k : Key) (stored : List Byte) : Prop :=
  match k with
  | .source => stored.length = 0 ∨ Key.source.size < stored.length
  | k => stored.length ≠ k.size

/-- Every component is that of a key as far as it goes. -/
def Abbreviates : Handler → List Char → Prop
  | .alpha, name => ∃ first rest, name = first ++ '/' :: rest ∧ '/' ∉ first ∧
      first <+: "length".toList ∧
        (rest.take first.length = "1".toList.take first.length ∨
          rest.take first.length = "2".toList.take first.length)
  | .beta, name => name <+: "voltage".toList ∨ name <+: "source".toList

/-- A name as the subsystem passes it. -/
structure Name where
  chars : List Char
  ends : '=' ∉ chars
  terminated : '\x00' ∉ chars

/-- A call of a handler. -/
structure Call where
  handler : Handler
  name : Name
  stored : List Byte

/-- A key changes no variable but its own, and none with a value of the wrong length; another name
is refused. -/
structure Meets (S : SettingsSubsystem) (s : Vars) (c : Call) : Prop where
  others : ∀ k, IsKey c.handler c.name.chars k → ∀ k' ≠ k,
    (handle S c.handler c.name.chars c.stored s).2 k' = s k'
  refused : (∀ k, ¬ IsKey c.handler c.name.chars k) →
    handle S c.handler c.name.chars c.stored s = (-enoent, s)
  length : ∀ k, IsKey c.handler c.name.chars k → WrongLength k c.stored →
    (handle S c.handler c.name.chars c.stored s).2 = s

/-- The name is no abbreviation, and a value of the wrong length that is read is the one in memory.
-/
structure Exact (s : Vars) (c : Call) : Prop where
  name : (∀ k, ¬ IsKey c.handler c.name.chars k) → ¬ Abbreviates c.handler c.name.chars
  stored : ∀ k ∈ [Key.length1, Key.length2, Key.voltage], IsKey c.handler c.name.chars k →
    WrongLength k c.stored → c.stored.take k.size = (s k).bytes.take c.stored.length

/-! ## Comparisons -/

theorem strncmpEq_iff (a b : List Char) (n : Nat) :
    strncmpEq a b n = true ↔ a.take n = b.take n := by
  induction n generalizing a b with
  | zero => exact iff_of_true (by rw [strncmpEq]) rfl
  | succ n ih =>
    cases a with
    | nil =>
      cases b with
      | nil => exact iff_of_true rfl rfl
      | cons b bs => exact iff_of_false Bool.false_ne_true (List.cons_ne_nil b _).symm
    | cons a as =>
      cases b with
      | nil => exact iff_of_false Bool.false_ne_true (List.cons_ne_nil a _)
      | cons b bs =>
        rw [strncmpEq, Bool.and_eq_true, decide_eq_true_eq, ih, List.take_succ_cons,
          List.take_succ_cons, List.cons_eq_cons]

/-- A comparison over the length of what is compared. -/
theorem strncmpEq_length (a b : List Char) : strncmpEq a b a.length = true ↔ a <+: b := by
  rw [strncmpEq_iff, List.take_length, List.prefix_iff_eq_take]

theorem strncmpEq_first (first rest b : List Char) :
    strncmpEq (first ++ '/' :: rest) b first.length = true ↔ first <+: b := by
  rw [strncmpEq_iff, List.take_left, List.prefix_iff_eq_take]

/-! ## What the handlers do with a name -/

section

variable (S : SettingsSubsystem) {name first rest : List Char} (stored : List Byte) (s : Vars)

theorem alphaHandleSet_angle : alphaHandleSet S Key.angle1.name stored s =
    if stored.length ≠ Key.angle1.size then (-einval, s) else (0, readKey S s .angle1 stored) :=
  if_pos ((S.nameSteq_full _ _ (by decide)).mpr rfl)

theorem alphaHandleSet_last (hend : '=' ∉ name) (hslash : '/' ∉ name) :
    alphaHandleSet S name stored s = (-enoent, s) := by
  have hne : name ≠ "angle/1".toList := by
    rintro rfl
    exact absurd hslash (by decide)
  have hsteq := mt (S.nameSteq_full name _ hend).mp hne
  rw [alphaHandleSet, if_neg hsteq, S.nameNext_last name hend hslash]

theorem alphaHandleSet_more (first rest : List Char) (hend : '=' ∉ first ++ '/' :: rest)
    (hslash : '/' ∉ first) (hne : first ++ '/' :: rest ≠ Key.angle1.name) :
    alphaHandleSet S (first ++ '/' :: rest) stored s =
      if first <+: "length".toList then
        if rest.take first.length = "1".toList.take first.length then
          (0, readKey S s .length1 stored)
        else if rest.take first.length = "2".toList.take first.length then
          (0, readKey S s .length2 stored)
        else (-enoent, s)
      else (-enoent, s) := by
  have hsteq := mt (S.nameSteq_full (first ++ '/' :: rest) "angle/1".toList hend).mp hne
  have hfirst : '=' ∉ first := fun hmem => hend (List.mem_append_left _ hmem)
  have hnext := S.nameNext_more first rest hfirst hslash
  rw [alphaHandleSet, if_neg hsteq, hnext]
  simp only [strncmpEq_first]
  simp only [strncmpEq_iff]

theorem betaHandleSet_last (hend : '=' ∉ name) (hslash : '/' ∉ name) :
    betaHandleSet S name stored s =
      if name <+: "voltage".toList then (0, readKey S s .voltage stored)
      else if name <+: "source".toList then
        if stored.length > Key.source.size - 1 then (-einval, s)
        else (0, readKey S s .source stored)
      else (-enoent, s) := by
  have hcount : ¬ (S.readCb stored Key.source.size).1 < 0 := by
    rw [S.readCb_counts]
    omega
  rw [betaHandleSet, S.nameNext_last name hend hslash]
  simp only [strncmpEq_length, if_neg hcount]

theorem betaHandleSet_more (hend : '=' ∉ first ++ '/' :: rest) (hslash : '/' ∉ first) :
    betaHandleSet S (first ++ '/' :: rest) stored s = (-enoent, s) := by
  have hfirst : '=' ∉ first := fun hmem => hend (List.mem_append_left _ hmem)
  rw [betaHandleSet, S.nameNext_more first rest hfirst hslash]

/-! ## What the handlers do with a key -/

/-- Whether the handler reads the value of a key. -/
def Accepts (k : Key) (stored : List Byte) : Prop :=
  match k with
  | .angle1 => stored.length = Key.angle1.size
  | .length => False
  | .source => stored.length ≤ Key.source.size - 1
  | _ => True

instance : ∀ (k : Key) (stored : List Byte), Decidable (Accepts k stored)
  | .angle1, stored => inferInstanceAs (Decidable (stored.length = Key.angle1.size))
  | .length, _ => inferInstanceAs (Decidable False)
  | .source, stored => inferInstanceAs (Decidable (stored.length ≤ Key.source.size - 1))
  | .length1, _ | .length2, _ | .voltage, _ => inferInstanceAs (Decidable True)

/-- What a handler does with a value that it reads or refuses. -/
def takeValue (s : Vars) (k : Key) (stored : List Byte) : Int × Vars :=
  if Accepts k stored then (0, readKey S s k stored) else (-einval, s)

theorem handle_key {k : Key} (hk : k ≠ .length) :
    handle S k.handler k.name stored s = takeValue S s k stored := by
  cases k with
  | angle1 =>
    show alphaHandleSet S Key.angle1.name stored s = _
    rw [alphaHandleSet_angle, takeValue]
    by_cases h : stored.length = Key.angle1.size
    · exact (if_neg (not_not_intro h)).trans (if_pos h).symm
    · exact (if_pos h).trans (if_neg h).symm
  | length => exact absurd rfl hk
  | length1 =>
    exact alphaHandleSet_more S stored s "length".toList ['1'] (by decide) (by decide)
      (by decide)
  | length2 =>
    exact alphaHandleSet_more S stored s "length".toList ['2'] (by decide) (by decide)
      (by decide)
  | voltage => exact betaHandleSet_last S stored s (by decide) (by decide)
  | source =>
    refine (betaHandleSet_last S stored s (by decide) (by decide)).trans ?_
    show (if stored.length > Key.source.size - 1 then _ else _) = _
    by_cases h : stored.length ≤ Key.source.size - 1
    · exact (if_neg (Nat.not_lt.mpr h)).trans (if_pos h).symm
    · exact (if_pos (Nat.not_le.mp h)).trans (if_neg h).symm

theorem handle_length : handle S .alpha Key.length.name stored s = (-enoent, s) :=
  alphaHandleSet_last S stored s (by decide) (by decide)

theorem answer_ne (s' : Vars) : ((0, s') : Int × Vars) ≠ (-enoent, s) := by
  intro h
  exact absurd (Prod.mk.inj h).1 (by decide)

theorem refusal_ne (s' : Vars) : ((-einval, s') : Int × Vars) ≠ (-enoent, s) := by
  intro h
  exact absurd (Prod.mk.inj h).1 (by decide)

/-- The first component of a name. -/
theorem split_unique {first' rest' : List Char} (hfirst : '/' ∉ first) (hfirst' : '/' ∉ first')
    (h : first ++ '/' :: rest = first' ++ '/' :: rest') : first = first' ∧ rest = rest' := by
  induction first generalizing first' with
  | nil =>
    cases first' with
    | nil => exact ⟨rfl, (List.cons.inj h).2⟩
    | cons c first' =>
      have hc := (List.cons.inj h).1
      exact absurd (hc ▸ List.mem_cons_self) hfirst'
  | cons c first ih =>
    cases first' with
    | nil =>
      have hc := (List.cons.inj h).1
      exact absurd (hc ▸ List.mem_cons_self) hfirst
    | cons c' first' =>
      obtain ⟨hc, htail⟩ := List.cons.inj h
      obtain ⟨hsame, hrest⟩ := ih (fun hmem => hfirst (List.mem_cons_of_mem _ hmem))
        (fun hmem => hfirst' (List.mem_cons_of_mem _ hmem)) htail
      exact ⟨by rw [hc, hsame], hrest⟩

theorem alpha_other (hend : '=' ∉ name) (hne : name ≠ Key.angle1.name) :
    alphaHandleSet S name stored s = (-enoent, s) ↔ ¬ Abbreviates .alpha name := by
  by_cases hslash : '/' ∈ name
  · obtain ⟨first, rest, rfl, hfirst⟩ := List.eq_append_cons_of_mem hslash
    rw [alphaHandleSet_more S stored s first rest hend hfirst hne]
    constructor
    · rintro hrefused ⟨first', rest', heq, hfirst', hprefix, htake⟩
      obtain ⟨rfl, rfl⟩ := split_unique hfirst hfirst' heq
      rw [if_pos hprefix] at hrefused
      by_cases hone : rest.take first.length = "1".toList.take first.length
      · rw [if_pos hone] at hrefused
        exact answer_ne s _ hrefused
      · rw [if_neg hone, if_pos (htake.resolve_left hone)] at hrefused
        exact answer_ne s _ hrefused
    · intro hno
      by_cases hprefix : first <+: "length".toList
      · have htake : ¬ (rest.take first.length = "1".toList.take first.length ∨
            rest.take first.length = "2".toList.take first.length) := fun htake =>
          hno ⟨first, rest, rfl, hfirst, hprefix, htake⟩
        rw [if_pos hprefix, if_neg fun h => htake (Or.inl h), if_neg fun h => htake (Or.inr h)]
      · rw [if_neg hprefix]
  · rw [alphaHandleSet_last S stored s hend hslash]
    refine iff_of_true rfl ?_
    rintro ⟨first, rest, rfl, -⟩
    exact hslash (List.mem_append_right _ List.mem_cons_self)

theorem beta_other (hend : '=' ∉ name) :
    betaHandleSet S name stored s = (-enoent, s) ↔ ¬ Abbreviates .beta name := by
  by_cases hslash : '/' ∈ name
  · have hno : ¬ Abbreviates .beta name := by
      rintro (hpre | hpre)
      · exact absurd (hpre.subset hslash) (by decide)
      · exact absurd (hpre.subset hslash) (by decide)
    obtain ⟨first, rest, rfl, hfirst⟩ := List.eq_append_cons_of_mem hslash
    exact iff_of_true (betaHandleSet_more S stored s hend hfirst) hno
  · rw [betaHandleSet_last S stored s hend hslash]
    by_cases hvoltage : name <+: "voltage".toList
    · rw [if_pos hvoltage]
      exact iff_of_false (answer_ne s _) (not_not_intro (Or.inl hvoltage))
    · by_cases hsource : name <+: "source".toList
      · rw [if_neg hvoltage, if_pos hsource]
        refine iff_of_false ?_ (not_not_intro (Or.inr hsource))
        split
        · exact refusal_ne s _
        · exact answer_ne s _
      · rw [if_neg hvoltage, if_neg hsource]
        exact iff_of_true rfl fun h => h.elim hvoltage hsource

/-- A name that is no key is refused exactly when it abbreviates none. -/
theorem handle_other {h : Handler} (hend : '=' ∉ name) (hother : ∀ k, ¬ IsKey h name k) :
    handle S h name stored s = (-enoent, s) ↔ ¬ Abbreviates h name := by
  cases h with
  | alpha =>
    have hne : name ≠ Key.angle1.name := fun heq => hother .angle1 ⟨rfl, heq.symm⟩
    exact alpha_other S stored s hend hne
  | beta => exact beta_other S stored s hend

theorem overwrite_eq_self_iff {mem data : List Byte} :
    overwrite mem 0 data = mem ↔ data = mem.take data.length := by
  rw [overwrite, List.take_zero, List.nil_append, Nat.zero_add]
  constructor
  · intro h
    have htake := congrArg (List.take data.length) h
    rwa [List.take_left] at htake
  · intro h
    calc data ++ mem.drop data.length = mem.take data.length ++ mem.drop data.length := by rw [← h]
      _ = mem := List.take_append_drop _ _

theorem readKey_eq_iff (k : Key) : readKey S s k stored = s ↔
    stored.take k.size = (s k).bytes.take stored.length := by
  have hlength : (s k).bytes.take (stored.take k.size).length = (s k).bytes.take stored.length := by
    have hsize := (s k).length_eq
    rw [List.length_take]
    exact List.take_eq_take_iff.mpr (by omega)
  rw [readKey, Function.update_eq_self_iff, Var.ext_iff, Var.read, overwrite_eq_self_iff,
    S.readCb_copies, hlength]

theorem readKey_of_ne {k k' : Key} (h : k' ≠ k) : readKey S s k stored k' = s k' :=
  Function.update_of_ne h _ _

theorem IsKey.unique {h : Handler} {name : List Char} {k k' : Key} (hk : IsKey h name k)
    (hk' : IsKey h name k') : k = k' := by
  have hnames : ∀ k k' : Key, k.name = k'.name → k = k' := by
    intro k k' heq
    cases k <;> cases k' <;> first | rfl | exact absurd heq (by decide)
  exact hnames k k' (hk.2.trans hk'.2.symm)

theorem takeValue_refused {k : Key} (h : ¬ Accepts k stored) :
    (takeValue S s k stored).2 = s := by
  rw [takeValue, if_neg h]

/-- What a key that is read makes of a value of the wrong length. -/
theorem takeValue_eq_iff {k : Key} (hk : k ∈ [Key.length1, Key.length2, Key.voltage]) :
    (takeValue S s k stored).2 = s ↔
      stored.take k.size = (s k).bytes.take stored.length := by
  have haccepts : Accepts k stored := by
    simp only [List.mem_cons, List.not_mem_nil, or_false] at hk
    rcases hk with rfl | rfl | rfl <;> trivial
  rw [takeValue, if_pos haccepts]
  exact readKey_eq_iff S stored s k

/-- The other keys refuse a value of the wrong length, or read nothing from it. -/
theorem takeValue_wrong {k : Key} (hk : k ∉ [Key.length1, Key.length2, Key.voltage])
    (hwrong : WrongLength k stored) : (takeValue S s k stored).2 = s := by
  cases k with
  | angle1 => exact takeValue_refused S stored s hwrong
  | length => exact takeValue_refused S stored s id
  | source =>
    rcases hwrong with hzero | hlong
    · have hnone : stored = [] := List.length_eq_zero_iff.mp hzero
      have hread : readKey S s .source stored = s := by
        rw [readKey_eq_iff, hnone]
        rfl
      rw [takeValue]
      split
      · exact hread
      · rfl
    · have hno : ¬ Accepts .source stored := by
        show ¬ stored.length ≤ Key.source.size - 1
        unfold Key.size at hlong ⊢
        omega
      exact takeValue_refused S stored s hno
  | length1 => exact absurd (by decide) hk
  | length2 => exact absurd (by decide) hk
  | voltage => exact absurd (by decide) hk

theorem takeValue_of_ne {k k' : Key} (h : k' ≠ k) : (takeValue S s k stored).2 k' = s k' := by
  rw [takeValue]
  split
  · exact readKey_of_ne S stored s h
  · rfl

/-- The effect of a key on the variables, `length` included. -/
theorem handle_isKey {h : Handler} {name : List Char} {k : Key} (hk : IsKey h name k) :
    (handle S h name stored s).2 = (takeValue S s k stored).2 := by
  obtain ⟨rfl, rfl⟩ := hk
  by_cases hlength : k = .length
  · subst hlength
    exact (congrArg Prod.snd (handle_length S stored s)).trans
      (takeValue_refused S stored s id).symm
  · rw [handle_key S stored s hlength]

theorem meets_iff_exact (c : Call) : Meets S s c ↔ Exact s c := by
  constructor
  · rintro ⟨-, hrefused, hlength⟩
    refine ⟨fun hother => ?_, fun k hk hkey hwrong => ?_⟩
    · exact (handle_other S c.stored s c.name.ends hother).mp (hrefused hother)
    · have hsame := hlength k hkey hwrong
      rw [handle_isKey S c.stored s hkey] at hsame
      exact (takeValue_eq_iff S c.stored s hk).mp hsame
  · rintro ⟨hname, hstored⟩
    refine ⟨fun k hkey k' hne => ?_, fun hother => ?_, fun k hkey hwrong => ?_⟩
    · rw [handle_isKey S c.stored s hkey]
      exact takeValue_of_ne S c.stored s hne
    · exact (handle_other S c.stored s c.name.ends hother).mpr (hname hother)
    · rw [handle_isKey S c.stored s hkey]
      by_cases hk : k ∈ [Key.length1, Key.length2, Key.voltage]
      · exact (takeValue_eq_iff S c.stored s hk).mpr (hstored k hk hkey hwrong)
      · exact takeValue_wrong S c.stored s hk hwrong

end

/-! ## A load of what was exported -/

/-- The item that is exported for a key. -/
def item (v : Vars) (k : Key) : List Char × List Byte :=
  (k.handler.subtree ++ k.name,
    match k with
    | .source => (v .source).bytes.take (strlen (v .source).bytes + 1)
    | k => (v k).bytes)

def Key.all : List Key := [.angle1, .length, .length1, .length2, .voltage, .source]

theorem exported_eq (v : Vars) : alphaHandleExport v ++ betaHandleExport v = Key.all.map (item v) :=
  rfl

/-- The variables are those exported; `source_name_val` is compared up to its terminator. -/
def Restored (v s : Vars) : Prop :=
  (∀ k ≠ Key.source, s k = v k) ∧ cString (s .source).bytes = cString (v .source).bytes

section

variable (S : SettingsSubsystem) (v s : Vars)

theorem loadItem_item (k : Key) :
    loadItem S s (item v k) = (takeValue S s k (item v k).2).2 := by
  have hfor : handlerFor (item v k).1 = some (k.handler, k.name) := by cases k <;> rfl
  rw [loadItem, hfor]
  exact handle_isKey S _ s ⟨rfl, rfl⟩

/-- What the item of a key makes of its variable. -/
def loaded (k : Key) : Var k.size :=
  if Accepts k (item v k).2 then (s k).read S (item v k).2 else s k

theorem loadItem_self (k : Key) : loadItem S s (item v k) k = loaded S v s k := by
  rw [loadItem_item, takeValue, loaded]
  split
  · exact Function.update_self _ _ _
  · rfl

theorem loadItem_of_ne {k k' : Key} (h : k' ≠ k) : loadItem S s (item v k) k' = s k' := by
  rw [loadItem_item]
  exact takeValue_of_ne S _ s h

theorem loaded_congr {s s' : Vars} {k : Key} (h : s k = s' k) :
    loaded S v s k = loaded S v s' k := by
  rw [loaded, loaded, h]

/-- Every variable is loaded once, whatever the order. -/
theorem run_items {ks : List Key} (hnodup : ks.Nodup) (k : Key) :
    run (loadItem S) s (ks.map (item v)) k = if k ∈ ks then loaded S v s k else s k := by
  induction ks generalizing s with
  | nil => exact (if_neg List.not_mem_nil).symm
  | cons k' ks ih =>
    obtain ⟨hk', hks⟩ := List.nodup_cons.mp hnodup
    rw [List.map_cons, run_cons, ih _ hks]
    by_cases heq : k = k'
    · subst heq
      rw [if_neg hk', if_pos List.mem_cons_self, loadItem_self]
    · have hother := loadItem_of_ne S v s heq
      have hmem : k ∈ k' :: ks ↔ k ∈ ks := by
        rw [List.mem_cons]
        exact or_iff_right heq
      simp only [hmem, loaded_congr S v hother, hother]

theorem exists_map_of_perm {α β : Type} {f : α → β} {l : List α} {m : List β}
    (h : (l.map f).Perm m) : ∃ l', l.Perm l' ∧ l'.map f = m := by
  generalize hl : l.map f = fl at h
  induction h generalizing l with
  | nil => exact ⟨l, List.Perm.refl l, hl⟩
  | cons b _ ih =>
    obtain ⟨a, l, rfl, rfl, hrest⟩ := List.map_eq_cons_iff.mp hl
    obtain ⟨l', hperm, hmap⟩ := ih hrest
    exact ⟨a :: l', hperm.cons a, by rw [List.map_cons, hmap]⟩
  | swap b c m =>
    obtain ⟨a, l, rfl, rfl, hrest⟩ := List.map_eq_cons_iff.mp hl
    obtain ⟨a', l, rfl, rfl, rfl⟩ := List.map_eq_cons_iff.mp hrest
    exact ⟨a' :: a :: l, List.Perm.swap a' a l, rfl⟩
  | trans _ _ ih ih' =>
    obtain ⟨l₁, hperm, hmap⟩ := ih hl
    obtain ⟨l₂, hperm', hmap'⟩ := ih' hmap
    exact ⟨l₂, hperm.trans hperm', hmap'⟩

theorem run_exported {order : List (List Char × List Byte)}
    (h : order.Perm (alphaHandleExport v ++ betaHandleExport v)) (k : Key) :
    run (loadItem S) s order k = loaded S v s k := by
  rw [exported_eq] at h
  obtain ⟨ks, hperm, rfl⟩ := exists_map_of_perm h.symm
  have hnodup : ks.Nodup := hperm.nodup_iff.mp (by decide)
  have hmem : k ∈ ks := hperm.mem_iff.mp (by cases k <;> decide)
  rw [run_items S v s hnodup, if_pos hmem]

/-! ### What is loaded -/

theorem read_full {size : Nat} (x : Var size) {stored : List Byte} (h : stored.length = size) :
    (x.read S stored).bytes = stored := by
  have hall : stored.take size = stored := by rw [← h, List.take_length]
  have hrest : x.bytes.drop (0 + stored.length) = [] := by
    have hlength := x.length_eq
    exact List.drop_eq_nil_of_le (by omega)
  show overwrite x.bytes 0 (S.readCb stored size).2 = stored
  rw [S.readCb_copies, hall, overwrite, hrest, List.take_zero, List.nil_append, List.append_nil]

theorem cString_append_zero {bytes rest : List Byte} (h : 0 ∉ bytes) :
    cString (bytes ++ 0 :: rest) = bytes := by
  have hall : ∀ b ∈ bytes, decide (b ≠ 0) = true := fun b hb =>
    decide_eq_true fun hzero => h (hzero ▸ hb)
  rw [cString, List.takeWhile_append_of_pos hall, List.takeWhile_cons_of_neg (by simp),
    List.append_nil]

theorem cString_split {bytes : List Byte} (h : 0 ∈ bytes) :
    0 ∉ cString bytes ∧ ∃ rest, bytes = cString bytes ++ 0 :: rest := by
  obtain ⟨front, rest, hsplit, hfront⟩ := List.eq_append_cons_of_mem h
  have hstring : cString bytes = front := by rw [hsplit, cString_append_zero hfront]
  exact ⟨hstring ▸ hfront, rest, hstring ▸ hsplit⟩

/-- The exported string and its terminator. -/
theorem exported_source (h : 0 ∈ (v .source).bytes) :
    (item v .source).2 = cString (v .source).bytes ++ [0] := by
  obtain ⟨-, rest, hsplit⟩ := cString_split h
  show (v .source).bytes.take ((cString (v .source).bytes).length + 1) = _
  generalize cString (v .source).bytes = string at hsplit ⊢
  rw [hsplit, List.take_append, List.take_of_length_le (Nat.le_succ _)]
  simp

/-- A string of at most four characters is read with its terminator, a longer one not at all. -/
theorem loaded_source (h : 0 ∈ (v .source).bytes) : cString (loaded S v s .source).bytes =
    if strlen (v .source).bytes ≤ 4 then cString (v .source).bytes
    else cString (s .source).bytes := by
  have hstored := exported_source v h
  have hlength : (item v .source).2.length = strlen (v .source).bytes + 1 := by
    rw [hstored, List.length_append, strlen]
    rfl
  have haccepts : Accepts .source (item v .source).2 ↔ strlen (v .source).bytes ≤ 4 := by
    show (item v .source).2.length ≤ 5 ↔ _
    omega
  rw [loaded]
  by_cases hshort : strlen (v .source).bytes ≤ 4
  · have hall : (item v .source).2.take Key.source.size = (item v .source).2 :=
      List.take_of_length_le (by
        show (item v .source).2.length ≤ 6
        omega)
    rw [if_pos (haccepts.mpr hshort), if_pos hshort]
    show cString (overwrite _ 0 (S.readCb (item v .source).2 Key.source.size).2) = _
    rw [S.readCb_copies, hall, hstored, overwrite, List.take_zero, List.nil_append,
      List.append_assoc]
    exact cString_append_zero (cString_split h).1
  · rw [if_neg (mt haccepts.mp hshort), if_neg hshort]

theorem loaded_eq {k : Key} (hlength : k ≠ .length) (hsource : k ≠ .source) :
    loaded S v s k = v k := by
  have haccepts : Accepts k (item v k).2 := by
    cases k with
    | angle1 => exact (v .angle1).length_eq
    | length => exact absurd rfl hlength
    | source => exact absurd rfl hsource
    | length1 | length2 | voltage => trivial
  have hstored : (item v k).2 = (v k).bytes := by
    cases k with
    | source => exact absurd rfl hsource
    | angle1 | length | length1 | length2 | voltage => rfl
  rw [loaded, if_pos haccepts, Var.ext_iff, hstored]
  exact read_full S (s k) (v k).length_eq

theorem restored_iff (h : 0 ∈ (v .source).bytes) :
    Restored v (fun k => loaded S v s k) ↔
      s .length = v .length ∧
        (strlen (v .source).bytes ≤ 4 ∨
          cString (s .source).bytes = cString (v .source).bytes) := by
  have hlength : loaded S v s .length = s .length := if_neg id
  have hsource : cString (loaded S v s .source).bytes = cString (v .source).bytes ↔
      strlen (v .source).bytes ≤ 4 ∨
        cString (s .source).bytes = cString (v .source).bytes := by
    rw [loaded_source S v s h]
    by_cases hshort : strlen (v .source).bytes ≤ 4
    · rw [if_pos hshort]
      exact iff_of_true rfl (Or.inl hshort)
    · rw [if_neg hshort, or_iff_right hshort]
  have hall : (∀ k ≠ Key.source, loaded S v s k = v k) ↔ s .length = v .length := by
    constructor
    · intro hall
      rw [← hlength]
      exact hall .length (by decide)
    · intro hsame k hk
      by_cases hkl : k = .length
      · subst hkl
        exact hlength.trans hsame
      · exact loaded_eq S v s hkl hk
  exact and_congr hall hsource

end

/-- A load of what was exported, in any order, restores the variables exactly when `length_val` is
what it was and the string is short or what it was; and a call of a handler is right exactly when
its name is no abbreviation and it reads no value of the wrong length. -/
theorem restored_and_meets_iff (S : SettingsSubsystem) :
    (∀ (v s : Vars) (order : List (List Char × List Byte)), 0 ∈ (v .source).bytes →
        order.Perm (alphaHandleExport v ++ betaHandleExport v) →
          (Restored v (run (loadItem S) s order) ↔
            s .length = v .length ∧
              (strlen (v .source).bytes ≤ 4 ∨
                cString (s .source).bytes = cString (v .source).bytes))) ∧
      ∀ (s : Vars) (c : Call), Meets S s c ↔ Exact s c := by
  refine ⟨fun v s order hsource horder => ?_, fun s c => meets_iff_exact S s c⟩
  have hrun : run (loadItem S) s order = fun k => loaded S v s k :=
    funext fun k => run_exported S v s horder k
  rw [hrun]
  exact restored_iff S v s hsource

/-! ## The subsystem -/

/-- `settings_name_steq` -/
def settingsNameSteq : List Char → List Char → Bool × Option (List Char)
  | [], [] => (true, none)
  | c :: name, [] =>
    if c = '/' then (true, some name) else if c = '=' then (true, none) else (false, none)
  | [], _ :: _ => (false, none)
  | c :: name, k :: key => if c = k then settingsNameSteq name key else (false, none)

/-- `settings_name_next` -/
def settingsNameNext : List Char → Nat × Option (List Char)
  | [] => (0, none)
  | c :: name =>
    if c = '=' then (0, none)
    else if c = '/' then (0, some name)
    else ((settingsNameNext name).1 + 1, (settingsNameNext name).2)

theorem settingsNameSteq_full (name key : List Char) (h : '=' ∉ name) :
    (settingsNameSteq name key).1 = true ∧ (settingsNameSteq name key).2 = none ↔ name = key := by
  induction name generalizing key with
  | nil =>
    cases key with
    | nil => exact iff_of_true ⟨rfl, rfl⟩ rfl
    | cons k key => exact iff_of_false (fun h => Bool.noConfusion h.1) (List.cons_ne_nil k _).symm
  | cons c name ih =>
    have hc : c ≠ '=' := fun heq => h (heq ▸ List.mem_cons_self)
    cases key with
    | nil =>
      refine iff_of_false ?_ (List.cons_ne_nil c _)
      rw [settingsNameSteq, if_neg hc]
      split
      · exact fun h => Option.some_ne_none name h.2
      · exact fun h => Bool.noConfusion h.1
    | cons k key =>
      have hrest := ih key fun hmem => h (List.mem_cons_of_mem _ hmem)
      rw [settingsNameSteq, List.cons_eq_cons]
      by_cases hck : c = k
      · rw [if_pos hck, hrest, and_iff_right hck]
      · rw [if_neg hck]
        exact iff_of_false (fun h => Bool.noConfusion h.1) fun h => hck h.1

theorem settingsNameNext_last (name : List Char) (hend : '=' ∉ name) (hslash : '/' ∉ name) :
    settingsNameNext name = (name.length, none) := by
  induction name with
  | nil => rfl
  | cons c name ih =>
    have hc : c ≠ '=' := fun heq => hend (heq ▸ List.mem_cons_self)
    have hc' : c ≠ '/' := fun heq => hslash (heq ▸ List.mem_cons_self)
    have hrest := ih (fun hmem => hend (List.mem_cons_of_mem _ hmem))
      fun hmem => hslash (List.mem_cons_of_mem _ hmem)
    rw [settingsNameNext, if_neg hc, if_neg hc', hrest, List.length_cons]

theorem settingsNameNext_more (first rest : List Char) (hend : '=' ∉ first)
    (hslash : '/' ∉ first) :
    settingsNameNext (first ++ '/' :: rest) = (first.length, some rest) := by
  induction first with
  | nil => rfl
  | cons c first ih =>
    have hc : c ≠ '=' := fun heq => hend (heq ▸ List.mem_cons_self)
    have hc' : c ≠ '/' := fun heq => hslash (heq ▸ List.mem_cons_self)
    have hrest := ih (fun hmem => hend (List.mem_cons_of_mem _ hmem))
      fun hmem => hslash (List.mem_cons_of_mem _ hmem)
    rw [List.cons_append, settingsNameNext, if_neg hc, if_neg hc', hrest, List.length_cons]

/-- The settings subsystem of Zephyr. -/
def zephyr : SettingsSubsystem where
  nameSteq := settingsNameSteq
  nameNext := settingsNameNext
  readCb stored size := ((stored.take size).length, stored.take size)
  nameSteq_full := settingsNameSteq_full
  nameNext_last := settingsNameNext_last
  nameNext_more := settingsNameNext_more
  readCb_copies _ _ := rfl
  readCb_counts _ _ := rfl

/-- Variables in which `length_val` has the byte `b` throughout and the others are 0. -/
def lengthOf (b : Byte) : Vars := fun k =>
  { bytes := List.replicate k.size (if k = .length then b else 0)
    length_eq := List.length_replicate }

/-- The key `alpha/length` is exported and not loaded again. -/
theorem length_not_restored :
    ¬ ∀ S : SettingsSubsystem,
        (∀ (v s : Vars) (order : List (List Char × List Byte)), 0 ∈ (v .source).bytes →
          order.Perm (alphaHandleExport v ++ betaHandleExport v) →
            Restored v (run (loadItem S) s order)) ∧
          ∀ (s : Vars) (c : Call), Meets S s c := by
  intro h
  have hloaded := ((h zephyr).1 (lengthOf 1) (lengthOf 0) _ (by decide) (List.Perm.refl _)).1
    .length (by decide)
  rw [run_exported zephyr (lengthOf 1) (lengthOf 0) (List.Perm.refl _)] at hloaded
  have hbytes : List.replicate 8 (0 : Byte) = List.replicate 8 1 := congrArg Var.bytes hloaded
  exact absurd hbytes (by decide)

end SettingsSample
end ZephyrSamples
