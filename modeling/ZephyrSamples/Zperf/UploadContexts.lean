import ZephyrSamples.Zperf.ShellUtils
import ZephyrSamples.Lib.HandleLog
import ZephyrSamples.Lib.Runs

/-!
# The network contexts of the upload commands

An upload takes a context for each address family, IPv6 first, and puts both in the end:
`execute_upload` puts them on every path of its own, and over TCP leaves the one in use to
`zperf_tcp_upload`.  But when `setup_contexts` fails after the first context it returns with what it
has taken, and nobody puts it.
-/

namespace ZephyrSamples
namespace Zperf
namespace Upload

open Runs HandleLog

/-! ## The commands -/

/-- `sa_family_t`, as far as an upload uses it -/
inductive Family where
  | inet
  | inet6
  deriving DecidableEq

/-- `enum net_ip_protocol`, as far as an upload uses it -/
inductive Proto where
  | udp
  | tcp
  deriving DecidableEq

/-- What a context is used for: `net_context_bind`, `net_context_connect`, `net_context_send`. -/
inductive Use where
  | bind
  | connect
  | send
  deriving DecidableEq

/-- A call that gets or is given a context; the contexts have numbers. -/
abbrev Call := Op Nat Use

/-- `-ENOMEM` -/
def enomem : Int := -12

/-- `-ENOEXEC` -/
def enoexec : Int := -8

/-- What is the same for all commands: the protocols that are enabled, next to IPv4 and IPv6, and
`net_addr_pton` for each address family. -/
structure Config where
  netUdp : Bool
  netTcp : Bool
  pton6 : List Char → Int
  pton4 : List Char → Int

/-- What a command meets: what the calls return, how often `zperf_udp_upload` uses its context, and
for each packet over TCP what the send returns and whether the duration is over then.  The last four
say which of the addresses of `upload2` are unspecified. -/
structure Net where
  get6 : Int := 0
  get4 : Int := 0
  bind : Int := 0
  connect : Int := 0
  udpUses : Nat := 0
  sends : List (Int × Bool) := []
  my6 : Bool := false
  dst6 : Bool := false
  my4 : Bool := false
  dst4 : Bool := false

/-- An upload command: `upload2` or `upload`, the protocol, the arguments with the name first. -/
structure Command where
  second : Bool
  proto : Proto
  argv : List (List Char)
  net : Net

/-- `DEF_PORT_STR` -/
def defPortStr : List Char := ['5', '0', '0', '1']

/-- `addr->sin6_port`, or `sin_port` -/
def parsePort (port : List Char) : BitVec 16 := (strtoul port).1.setWidth 16

/-- `parse_ipv6_addr` and `parse_ipv4_addr`, which do the same with the `net_addr_pton` of their
family. -/
def parseAddr (pton : List Char → Int) (host port : List Char) : Bool :=
  0 ≤ pton host && parsePort port ≠ 0

/-- The family of the address that `shell_cmd_upload` is told, if it is told any. -/
def uploadFamily (cfg : Config) : List (List Char) → Option Family
  | _ :: host :: rest =>
    let port := rest.head?.getD defPortStr
    if parseAddr cfg.pton6 host port then some .inet6
    else if parseAddr cfg.pton4 host port then some .inet
    else none
  | _ => none

/-- The family that `shell_cmd_upload2` is told, if it has both addresses of it. -/
def upload2Family (net : Net) : List (List Char) → Option Family
  | _ :: arg :: _ =>
    if arg = ['v', '4'] then
      if net.my4 then none else if net.dst4 then none else some .inet
    else
      if net.my6 then none else if net.dst6 then none else some .inet6
  | _ => none

/-- The family of a command that gets as far as `setup_contexts`. -/
def Command.family (cfg : Config) (cmd : Command) : Option Family :=
  if cmd.second then upload2Family cmd.net cmd.argv else uploadFamily cfg cmd.argv

/-- The context of a family. -/
def own : Family → Nat → Nat → Nat
  | .inet6, context6, _ => context6
  | .inet, _, context4 => context4

/-- The context of the other family. -/
def other : Family → Nat → Nat → Nat
  | .inet6, _, context4 => context4
  | .inet, context6, _ => context6

/-- What `setup_contexts` does if it gets both contexts. -/
def taken (family : Family) (context6 context4 : Nat) : List Call :=
  [.get context6, .get context4, .use .bind (own family context6 context4)]

/-- `setup_contexts` -/
def setupContexts (family : Family) (net : Net) (context6 context4 : Nat) : List Call × Int :=
  if net.get6 < 0 then ([], enoexec)
  else if net.get4 < 0 then ([.get context6], enoexec)
  else if net.bind < 0 then (taken family context6 context4, enoexec)
  else (taken family context6 context4, 0)

/-- The loop of `zperf_tcp_upload`, which ends with a send that fails, if not for want of memory, or
with one that succeeds after the duration: whether it ends. -/
def sendLoop (ctx : Nat) : Bool → List (Int × Bool) → List Call × Bool
  | _, [] => ([], false)
  | elapsed, (ret, late) :: sends =>
    if ret < 0 ∧ ret ≠ enomem then ([.use .send ctx], true)
    else if 0 ≤ ret ∧ elapsed = true then ([.use .send ctx], true)
    else
      let (calls, ended) := sendLoop ctx (elapsed || late) sends
      (.use .send ctx :: calls, ended)

/-- `zperf_tcp_upload`: whether it returns. -/
def zperfTcpUpload (ctx : Nat) (net : Net) : List Call × Bool :=
  let (calls, ended) := sendLoop ctx false net.sends
  (calls ++ if ended then [.put ctx] else [], ended)

/-- `zperf_udp_upload` -/
def zperfUdpUpload (ctx : Nat) (net : Net) : List Call :=
  List.replicate net.udpUses (.use .send ctx)

/-- `execute_upload`: what it returns, if it does. -/
def executeUpload (cfg : Config) (family : Family) (proto : Proto) (net : Net)
    (context6 context4 : Nat) : List Call × Option Int :=
  let context := own family context6 context4
  let out := [.put context6, .put context4]
  match proto with
  | .udp =>
    if cfg.netUdp then
      if net.connect < 0 then (.use .connect context :: out, some 0)
      else (.use .connect context :: zperfUdpUpload context net ++ out, some 0)
    else (out, some 0)
  | .tcp =>
    if cfg.netTcp then
      if net.connect < 0 then (.use .connect context :: out, some 0)
      else
        let (calls, returned) := zperfTcpUpload context net
        (.use .connect context :: .put (other family context6 context4) :: calls,
          if returned then some 0 else none)
    else (out, some 0)

/-- `shell_cmd_upload` and `shell_cmd_upload2`: what the command returns, if it does. -/
def shellCmd (cfg : Config) (cmd : Command) (context6 context4 : Nat) : List Call × Option Int :=
  match cmd.family cfg with
  | none => ([], some enoexec)
  | some family =>
    let (taken, ret) := setupContexts family cmd.net context6 context4
    if ret < 0 then (taken, some enoexec)
    else
      let (calls, ret) := executeUpload cfg family cmd.proto cmd.net context6 context4
      (taken ++ calls, ret)

/-- The calls so far, the next number of a context, and whether the last command has returned. -/
structure Shell where
  log : List Call := []
  next : Nat := 0
  returned : Bool := true

/-- A command is run when the one before has returned.  The contexts that it may take are the next
two. -/
def step (cfg : Config) (s : Shell) (cmd : Command) : Shell :=
  if s.returned then
    let (calls, ret) := shellCmd cfg cmd s.next (s.next + 1)
    { log := s.log ++ calls, next := s.next + 2, returned := ret.isSome }
  else s

/-- No context is used after it was put, and when no command runs every context that was taken has
been put once. -/
def Sound (s : Shell) : Prop := Proper s.log ∧ (s.returned = true → Released s.log)

/-- The command takes the IPv6 context, and then fails to take the IPv4 context or to bind. -/
def SetupBreaks (cfg : Config) (cmd : Command) : Prop :=
  (cmd.family cfg).isSome ∧ 0 ≤ cmd.net.get6 ∧ (cmd.net.get4 < 0 ∨ cmd.net.bind < 0)

/-! ## One command -/

theorem sendLoop_uses (ctx : Nat) (elapsed : Bool) (sends : List (Int × Bool)) :
    Uses ctx (sendLoop ctx elapsed sends).1 := by
  induction sends generalizing elapsed with
  | nil => exact fun _ hop => absurd hop List.not_mem_nil
  | cons send sends ih =>
    obtain ⟨ret, late⟩ := send
    unfold sendLoop
    split_ifs
    · exact uses_replicate Use.send ctx 1
    · exact uses_replicate Use.send ctx 1
    · exact (ih (elapsed || late)).cons .send

/-- An upload puts both contexts in the end, or over TCP first the other one and in the end its own,
if it returns. -/
theorem executeUpload_cases (cfg : Config) (family : Family) (proto : Proto) (net : Net)
    (context6 context4 : Nat) :
    (∃ uses, Uses (own family context6 context4) uses ∧
      executeUpload cfg family proto net context6 context4 =
        (uses ++ [.put context6, .put context4], some 0)) ∨
    (∃ (uses uses' : List Call) (returned : Bool), Uses (own family context6 context4) uses ∧
      Uses (own family context6 context4) uses' ∧
      executeUpload cfg family proto net context6 context4 =
        (uses ++ .put (other family context6 context4) ::
          (uses' ++ if returned then [.put (own family context6 context4)] else []),
          if returned then some 0 else none)) := by
  have hnone : Uses (own family context6 context4) ([] : List Call) :=
    fun _ hop => absurd hop List.not_mem_nil
  cases proto with
  | udp =>
    refine Or.inl ?_
    unfold executeUpload
    dsimp only
    split_ifs
    · exact ⟨_, hnone.cons .connect, rfl⟩
    · exact ⟨_, (uses_replicate Use.send _ net.udpUses).cons .connect, rfl⟩
    · exact ⟨[], hnone, rfl⟩
  | tcp =>
    unfold executeUpload
    dsimp only
    by_cases htcp : cfg.netTcp = true
    · rw [if_pos htcp]
      by_cases hconnect : net.connect < 0
      · rw [if_pos hconnect]
        exact Or.inl ⟨_, hnone.cons .connect, rfl⟩
      · rw [if_neg hconnect]
        exact Or.inr ⟨_, _, (sendLoop _ false net.sends).2, hnone.cons .connect,
          sendLoop_uses _ false net.sends, rfl⟩
    · rw [if_neg htcp]
      exact Or.inl ⟨[], hnone, rfl⟩

theorem own_ne_other {context6 context4 : Nat} (h : context6 ≠ context4) (family : Family) :
    own family context6 context4 ≠ other family context6 context4 := by
  cases family with
  | inet => exact h.symm
  | inet6 => exact h

theorem taken_isPut (family : Family) (context6 context4 : Nat) :
    ∀ op ∈ taken family context6 context4, op.isPut = false := by
  simp [taken]

theorem proper_put {a b : Nat} (h : a ≠ b) : Proper [(Op.put a : Call), .put b] := by
  simp [Proper, h.symm]

theorem proper_upload (cfg : Config) (family : Family) (proto : Proto) (net : Net)
    {context6 context4 : Nat} (h : context6 ≠ context4) :
    Proper (taken family context6 context4 ++
      (executeUpload cfg family proto net context6 context4).1) := by
  refine proper_append_of_unput (taken_isPut family context6 context4) ?_
  rcases executeUpload_cases cfg family proto net context6 context4 with
    ⟨uses, huses, heq⟩ | ⟨uses, uses', returned, huses, huses', heq⟩
  · rw [heq]
    exact proper_append_of_unput (fun _ hop => huses.isPut hop) (proper_put h)
  · rw [heq]
    refine proper_append_of_unput (fun _ hop => huses.isPut hop) ?_
    have hlast : Proper (if returned then [(Op.put (own family context6 context4) : Call)]
        else []) := by
      cases returned <;> simp [Proper]
    refine List.pairwise_cons.mpr
      ⟨fun op hop _ => ?_, proper_append_of_unput (fun _ hop => huses'.isPut hop) hlast⟩
    have hown : op.handle = own family context6 context4 := by
      rcases List.mem_append.mp hop with hop | hop
      · exact huses'.handle hop
      · cases returned with
        | false => exact absurd hop List.not_mem_nil
        | true => exact congrArg Op.handle (List.mem_singleton.mp hop)
    rw [hown]
    exact own_ne_other h family

theorem released_upload {cfg : Config} {family : Family} {proto : Proto} {net : Net}
    {context6 context4 : Nat} (h : context6 ≠ context4)
    (hret : (executeUpload cfg family proto net context6 context4).2.isSome) :
    Released (taken family context6 context4 ++
      (executeUpload cfg family proto net context6 context4).1) := by
  rcases executeUpload_cases cfg family proto net context6 context4 with
    ⟨uses, huses, heq⟩ | ⟨uses, uses', returned, huses, huses', heq⟩
  · rw [heq]
    intro c hc
    have htaken : c = context6 ∨ c = context4 := by
      simpa [taken, huses.get_notMem] using hc
    rcases htaken with rfl | rfl <;> simp [taken, huses.count_put, h, h.symm]
  · rw [heq] at hret ⊢
    obtain rfl : returned = true := by simpa using hret
    intro c hc
    have htaken : c = context6 ∨ c = context4 := by
      simpa [taken, huses.get_notMem, huses'.get_notMem] using hc
    cases family <;> rcases htaken with rfl | rfl <;>
      simp [taken, own, other, huses.count_put, huses'.count_put, h, h.symm]

theorem handle_taken {family : Family} {context6 context4 : Nat} {op : Call}
    (hop : op ∈ taken family context6 context4) : op.handle = context6 ∨ op.handle = context4 := by
  cases family <;> simp [taken, own] at hop <;> rcases hop with rfl | rfl | rfl <;> simp

theorem handle_executeUpload {cfg : Config} {family : Family} {proto : Proto} {net : Net}
    {context6 context4 : Nat} {op : Call}
    (hop : op ∈ (executeUpload cfg family proto net context6 context4).1) :
    op.handle = context6 ∨ op.handle = context4 := by
  have hown : own family context6 context4 = context6 ∨
      own family context6 context4 = context4 := by
    cases family
    · exact Or.inr rfl
    · exact Or.inl rfl
  have hother : other family context6 context4 = context6 ∨
      other family context6 context4 = context4 := by
    cases family
    · exact Or.inl rfl
    · exact Or.inr rfl
  rcases executeUpload_cases cfg family proto net context6 context4 with
    ⟨uses, huses, heq⟩ | ⟨uses, uses', returned, huses, huses', heq⟩
  · rw [heq] at hop
    rcases List.mem_append.mp hop with hop | hop
    · rwa [huses.handle hop]
    · simp at hop
      rcases hop with rfl | rfl
      · exact Or.inl rfl
      · exact Or.inr rfl
  · rw [heq] at hop
    rcases List.mem_append.mp hop with hop | hop
    · rwa [huses.handle hop]
    · rcases List.mem_cons.mp hop with rfl | hop
      · exact hother
      · rcases List.mem_append.mp hop with hop | hop
        · rwa [huses'.handle hop]
        · cases returned with
          | false => exact absurd hop List.not_mem_nil
          | true => rwa [List.mem_singleton.mp hop]

/-- A command does nothing, breaks off in `setup_contexts`, or uploads. -/
theorem shellCmd_cases (cfg : Config) (cmd : Command) (context6 context4 : Nat) :
    (shellCmd cfg cmd context6 context4 = ([], some enoexec) ∧ ¬ SetupBreaks cfg cmd) ∨
    (∃ family, SetupBreaks cfg cmd ∧
      (shellCmd cfg cmd context6 context4 = ([.get context6], some enoexec) ∨
        shellCmd cfg cmd context6 context4 = (taken family context6 context4, some enoexec))) ∨
    (∃ family, ¬ SetupBreaks cfg cmd ∧
      shellCmd cfg cmd context6 context4 =
        (taken family context6 context4 ++
            (executeUpload cfg family cmd.proto cmd.net context6 context4).1,
          (executeUpload cfg family cmd.proto cmd.net context6 context4).2)) := by
  unfold shellCmd SetupBreaks
  cases hfamily : cmd.family cfg with
  | none => exact Or.inl ⟨rfl, fun h => absurd h.1 Bool.false_ne_true⟩
  | some family =>
    by_cases hget6 : cmd.net.get6 < 0
    · exact Or.inl ⟨by simp [setupContexts, enoexec, hget6], fun h => by omega⟩
    by_cases hget4 : cmd.net.get4 < 0
    · exact Or.inr (Or.inl ⟨family, ⟨rfl, by omega, Or.inl hget4⟩,
        Or.inl (by simp [setupContexts, enoexec, hget6, hget4])⟩)
    by_cases hbind : cmd.net.bind < 0
    · exact Or.inr (Or.inl ⟨family, ⟨rfl, by omega, Or.inr hbind⟩,
        Or.inr (by simp [setupContexts, enoexec, hget6, hget4, hbind])⟩)
    · exact Or.inr (Or.inr ⟨family, fun h => by omega,
        by simp [setupContexts, hget6, hget4, hbind]⟩)

theorem handle_shellCmd {cfg : Config} {cmd : Command} {context6 context4 : Nat} {op : Call}
    (hop : op ∈ (shellCmd cfg cmd context6 context4).1) :
    op.handle = context6 ∨ op.handle = context4 := by
  rcases shellCmd_cases cfg cmd context6 context4 with
    ⟨heq, -⟩ | ⟨family, -, heq | heq⟩ | ⟨family, -, heq⟩
  · rw [heq] at hop
    exact absurd hop List.not_mem_nil
  · rw [heq] at hop
    exact Or.inl (congrArg Op.handle (List.mem_singleton.mp hop))
  · rw [heq] at hop
    exact handle_taken hop
  · rw [heq] at hop
    rcases List.mem_append.mp hop with hop | hop
    · exact handle_taken hop
    · exact handle_executeUpload hop

theorem proper_shellCmd (cfg : Config) (cmd : Command) {context6 context4 : Nat}
    (h : context6 ≠ context4) : Proper (shellCmd cfg cmd context6 context4).1 := by
  have hempty : Proper ([] : List Call) := List.Pairwise.nil
  rcases shellCmd_cases cfg cmd context6 context4 with
    ⟨heq, -⟩ | ⟨family, -, heq | heq⟩ | ⟨family, -, heq⟩
  · rw [heq]
    exact hempty
  · rw [heq]
    exact List.pairwise_singleton _ _
  · rw [heq, ← List.append_nil (taken family context6 context4)]
    exact proper_append_of_unput (taken_isPut family context6 context4) hempty
  · rw [heq]
    exact proper_upload cfg family cmd.proto cmd.net h

/-- A command that returns has released its contexts, unless `setup_contexts` broke off with one. -/
theorem released_shellCmd_iff (cfg : Config) (cmd : Command) {context6 context4 : Nat}
    (h : context6 ≠ context4) :
    ((shellCmd cfg cmd context6 context4).2.isSome →
        Released (shellCmd cfg cmd context6 context4).1) ↔ ¬ SetupBreaks cfg cmd := by
  rcases shellCmd_cases cfg cmd context6 context4 with
    ⟨heq, hbreaks⟩ | ⟨family, hbreaks, heq | heq⟩ | ⟨family, hbreaks, heq⟩
  · rw [heq]
    exact iff_of_true (fun _ c hc => absurd hc List.not_mem_nil) hbreaks
  · rw [heq]
    have hleak : ¬ Released [(Op.get context6 : Call)] :=
      not_released (c := context6) (by simp) (by simp)
    exact iff_of_false (fun hall => hleak (hall rfl)) (not_not_intro hbreaks)
  · rw [heq]
    have hleak : ¬ Released (taken family context6 context4) :=
      not_released (c := context6) (by simp [taken]) (by simp [taken])
    exact iff_of_false (fun hall => hleak (hall rfl)) (not_not_intro hbreaks)
  · rw [heq]
    exact iff_of_true (fun hret => released_upload h hret) hbreaks

/-! ## Runs -/

/-- The contexts in the log have smaller numbers than those to come. -/
def Numbered (s : Shell) : Prop := ∀ op ∈ s.log, op.handle < s.next

theorem numbered_step {cfg : Config} {s : Shell} (cmd : Command) (hs : Numbered s) :
    Numbered (step cfg s cmd) := by
  unfold step
  split_ifs
  · intro op hop
    show op.handle < s.next + 2
    rcases List.mem_append.mp hop with hop | hop
    · have hlt := hs op hop
      omega
    · have hnew := handle_shellCmd hop
      omega
  · exact hs

theorem apart_shellCmd (cfg : Config) {s : Shell} (cmd : Command) (hs : Numbered s) :
    Apart s.log (shellCmd cfg cmd s.next (s.next + 1)).1 := by
  intro op hop op' hop'
  have hlt := hs op hop
  have hnew := handle_shellCmd hop'
  omega

theorem sound_step_iff {cfg : Config} {s : Shell} (cmd : Command) (hs : Numbered s)
    (hsound : Sound s) :
    Sound (step cfg s cmd) ↔ (s.returned = true → ¬ SetupBreaks cfg cmd) := by
  unfold step
  split_ifs with hret
  · have hapart := apart_shellCmd cfg cmd hs
    have hne : s.next ≠ s.next + 1 := by omega
    show Proper (_ ++ _) ∧ (_ → Released (_ ++ _)) ↔ _
    rw [proper_append hapart, released_append hapart, ← released_shellCmd_iff cfg cmd hne]
    have hproper := proper_shellCmd cfg cmd hne
    constructor
    · exact fun h _ hended => (h.2 hended).2
    · exact fun h => ⟨⟨hsound.1, hproper⟩, fun hended => ⟨hsound.2 hret, h hret hended⟩⟩
  · exact iff_of_true hsound fun h => absurd h hret

/-- No context is used after it was put, and after every command all contexts it took have been put
once, exactly when no command fails in `setup_contexts` once it has the IPv6 context. -/
theorem sound_iff_setup_holds (cfg : Config) (cmds : List Command) :
    Always (step cfg) Sound {} cmds ↔
      Along (step cfg) (fun s cmd => s.returned = true → ¬ SetupBreaks cfg cmd) {} cmds := by
  have hnumbered : Numbered {} := fun op hop => absurd hop List.not_mem_nil
  have hsound : Sound {} := ⟨List.Pairwise.nil, fun _ c hc => absurd hc List.not_mem_nil⟩
  exact always_iff_along _ (fun s cmd hs => numbered_step cmd hs)
    (fun s cmd hs hsound => sound_step_iff cmd hs hsound) hnumbered hsound cmds

/-- There is no context left for IPv4 when an upload has its context for IPv6. -/
theorem second_get_fails_leaks :
    ¬ Always (step { netUdp := true, netTcp := true, pton6 := fun _ => -22, pton4 := fun _ => 0 })
      Sound {}
      [{ second := false
         proto := .udp
         argv := [['u', 'p', 'l', 'o', 'a', 'd'], ['1', '9', '2', '.', '0', '.', '2', '.', '2']]
         net := { get4 := -2 } }] := by
  intro h
  have hreleased := h.2.2 rfl 0 (by decide)
  exact absurd hreleased (by decide)

end Upload
end Zperf
end ZephyrSamples
