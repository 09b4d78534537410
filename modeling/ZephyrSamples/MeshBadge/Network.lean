import Mathlib.Logic.Function.Basic
import ZephyrSamples.Lib.Channel
import ZephyrSamples.MeshBadge.Button
import ZephyrSamples.MeshBadge.Heard

/-!
# A mesh of badges

Any number of badges, one for an address, that send hellos, calls of bad users and heartbeats to the
group and hear those of the others.  What is sent goes to every badge, and each of them hears of it
at most once, in any order and over any number of relays.  The table of a badge says of the others
only what is so. -/

namespace ZephyrSamples
namespace MeshBadge

open Runs Lib

/-- `DEFAULT_TTL` -/
def defaultTtl : UInt8 := 31

/-- `HELLO_MAX` -/
def helloMax : Nat := 8

/-- `CONFIG_BT_DEVICE_NAME_MAX` -/
def deviceNameMax : Nat := 32

/-- `first_name_len` -/
def firstNameLen : List UInt8 → Nat
  | [] => 0
  | c :: name => if c = 0x20 ∨ c = 0x2c ∨ c = 0x0a then 0 else firstNameLen name + 1

/-- What a badge sends of its name. -/
def greeting (name : Name) : List UInt8 := name.val.take (min helloMax (firstNameLen name))

/-- A message of the vendor model. -/
inductive Op where
  | hello (data : List UInt8)
  | heartbeat (initTtl : UInt8)
  | baduser (data : List UInt8)
  deriving DecidableEq

structure Packet where
  addr : Address
  op : Op
  deriving DecidableEq

/-- `" says hi!"` -/
def saysHi : List UInt8 := [32, 115, 97, 121, 115, 32, 104, 105, 33]

/-- `" is misbehaving!"` -/
def isMisbehaving : List UInt8 :=
  [32, 105, 115, 32, 109, 105, 115, 98, 101, 104, 97, 118, 105, 110, 103, 33]

/-- A badge: `initialized` is set when the mesh has given it its address.  Beside the state are the
names it has had and the texts the messages of the others have made it show. -/
structure Node where
  pressed : Pressed := {}
  initialized : Bool := false
  name : Name
  helloWork : Bool := false
  baduserWork : Bool := false
  inbox : Channel Packet := {}
  badge : Badge := .start
  shown : List (List UInt8) := []
  names : List Name := [name]

/-- The badges with all that was sent. -/
structure Mesh where
  node : Address → Node
  sent : List Packet := []

inductive Event where
  | touch (a : Address) (e : Touch)
  | writeName (a : Address) (offset : Nat) (data : List UInt8) (set : Bool)
  | startMesh (a : Address)
  | sendHello (a : Address) (sent : Bool)
  | sendBaduser (a : Address) (sent : Bool)
  | pubUpdate (a : Address)
  | receive (a : Address) (k : Nat) (relays : Fin defaultTtl.toNat)
  | lose (a : Address) (k : Nat)

/-- The touch as the badge takes it: `mesh_is_initialized` is its own. -/
def Node.taken (n : Node) : Touch → Touch
  | .tick ms => .tick ms
  | .edge level bit _ => .edge level bit n.initialized
  | .longPress => .longPress

/-- `button_interrupt` and `long_press`, with what they submit. -/
def Node.touch (n : Node) (e : Touch) : Node :=
  let pressed := n.pressed.step (n.taken e)
  let calls := pressed.calls.drop n.pressed.calls.length
  { n with
    pressed := pressed
    helloWork := n.helloWork || decide (.hello ∈ calls)
    baduserWork := n.baduserWork || decide (.baduser ∈ calls) }

/-- `write_name`; `set` tells whether `bt_set_name` succeeds. -/
def Node.writeName (n : Node) (offset : Nat) (data : List UInt8) (set : Bool) : Node :=
  if offset ≠ 0 then n
  else if deviceNameMax ≤ data.length then n
  else if set then
    let name : Name := ⟨cString data, zero_notMem_cString data⟩
    { n with name := name, names := name :: n.names }
  else n

/-- `vnd_hello` -/
def Node.vndHello (n : Node) (a addr : Address) (data : List UInt8) : Node :=
  if addr = a then n
  else
    let str := cString (data.take helloMax)
    { n with badge := n.badge.receive (.hello addr str), shown := (str ++ saysHi) :: n.shown }

/-- `vnd_baduser` -/
def Node.vndBaduser (n : Node) (a addr : Address) (data : List UInt8) : Node :=
  if addr = a then n
  else { n with shown := (cString (data.take helloMax) ++ isMisbehaving) :: n.shown }

/-- `vnd_heartbeat` -/
def Node.vndHeartbeat (n : Node) (a addr : Address) (initTtl recvTtl : UInt8) : Node :=
  if addr = a then n
  else { n with badge := n.badge.receive (.heartbeat addr (initTtl - recvTtl + 1).toFin) }

/-- What a badge does with a message that arrives with `recvTtl`: `vnd_ops` asks for at least one
byte. -/
def Node.receive (n : Node) (a : Address) (p : Packet) (recvTtl : UInt8) : Node :=
  match p.op with
  | .hello data => if data.length < 1 then n else n.vndHello a p.addr data
  | .heartbeat initTtl => n.vndHeartbeat a p.addr initTtl recvTtl
  | .baduser data => if data.length < 1 then n else n.vndBaduser a p.addr data

def Mesh.update (s : Mesh) (a : Address) (n : Node) : Mesh :=
  { s with node := Function.update s.node a n }

/-- A message to the group goes to every badge, its sender included. -/
def Mesh.broadcast (s : Mesh) (p : Packet) : Mesh where
  node a := { s.node a with inbox := (s.node a).inbox.send [p] }
  sent := s.sent ++ [p]

def Mesh.step (s : Mesh) : Event → Mesh
  | .touch a e => s.update a ((s.node a).touch e)
  | .writeName a offset data set => s.update a ((s.node a).writeName offset data set)
  | .startMesh a => s.update a { s.node a with initialized := true }
  | .sendHello a sent =>
    if (s.node a).helloWork then
      let s' := s.update a { s.node a with helloWork := false }
      if sent then s'.broadcast ⟨a, .hello (greeting (s.node a).name)⟩ else s'
    else s
  | .sendBaduser a sent =>
    if (s.node a).baduserWork then
      let s' := s.update a { s.node a with baduserWork := false }
      if sent then s'.broadcast ⟨a, .baduser (greeting (s.node a).name)⟩ else s'
    else s
  | .pubUpdate a =>
    if (s.node a).initialized then s.broadcast ⟨a, .heartbeat defaultTtl⟩ else s
  | .receive a k relays =>
    let n := s.node a
    match n.inbox.flight[k]? with
    | some p =>
      if n.initialized then
        -- every relay takes one off, and none passes on a message with 1
        let n := n.receive a p (defaultTtl - UInt8.ofNat relays)
        s.update a { n with inbox := n.inbox.deliver k }
      else s
    | none => s
  | .lose a k => s.update a { s.node a with inbox := (s.node a).inbox.lose k }

def Mesh.start (name : Address → Name) : Mesh where
  node a := { name := name a }

/-! ## What is so -/

def isHello (b : Address) (p : Packet) : Bool :=
  match p.op with
  | .hello _ => p.addr = b
  | _ => false

def isHeartbeat (b : Address) (p : Packet) : Bool :=
  match p.op with
  | .heartbeat _ => p.addr = b
  | _ => false

/-- The bursts in which the button of a badge was pressed, that of the boot included. -/
def Node.bursts (n : Node) : List (List Nat) := (0 :: n.pressed.releases).splitBy sameBurst

/-- A number of hops that a message of this mesh can have taken. -/
def Hops (h : Fin 256) : Prop := 0 < h.val ∧ h.val ≤ defaultTtl.toNat

/-- What an entry says of the badge `b` is so. -/
structure SaysTrue (s : Mesh) (b : Address) (e : Stat) : Prop where
  hello : e.helloCount < (s.node b).bursts.length
  heartbeat : e.heartbeatCount ≤ s.sent.countP (isHeartbeat b)
  name : 0 < e.helloCount → ∃ name ∈ (s.node b).names, e.text = greeting name
  minHops : e.minHops = ttlMax ∨ Hops e.minHops
  maxHops : e.maxHops = 0 ∨ Hops e.maxHops

/-- A text that a message of the badge `b` may show. -/
def Announces (s : Mesh) (b : Address) (text : List UInt8) : Prop :=
  ∃ name ∈ (s.node b).names, text = greeting name ++ saysHi ∨ text = greeting name ++ isMisbehaving

/-- What the badge `a` has of the others.  The texts are put together in 32 bytes. -/
structure Truthful (s : Mesh) (a : Address) : Prop where
  entry : ∀ e ∈ (s.node a).badge.table.stats, e.addr ≠ 0 →
    ∃ b : Address, b ≠ a ∧ e.addr = b ∧ SaysTrue s b e
  shown : ∀ text ∈ (s.node a).shown, text.length < 32 ∧ ∃ b : Address, b ≠ a ∧ Announces s b text

/-! ## Greetings and hops -/

theorem length_greeting (name : Name) : (greeting name).length ≤ helloMax := by
  rw [greeting, List.length_take]
  exact (Nat.min_le_left _ _).trans (Nat.min_le_left _ _)

theorem cString_eq_self {chars : List UInt8} (h : 0 ∉ chars) : cString chars = chars :=
  List.takeWhile_eq_self_iff.mpr fun _ hc => decide_eq_true fun hzero => h (hzero ▸ hc)

/-- A greeting arrives whole. -/
theorem cString_take_greeting (name : Name) :
    cString ((greeting name).take helloMax) = greeting name := by
  rw [List.take_of_length_le (length_greeting name)]
  exact cString_eq_self fun h => name.property (List.mem_of_mem_take h)

theorem hops_relays (relays : Fin defaultTtl.toNat) :
    Hops (defaultTtl - (defaultTtl - UInt8.ofNat relays) + 1).toFin := by
  revert relays
  unfold Hops
  decide

theorem count_ofBurst (bursts : List (List Nat)) :
    (bursts.flatMap ofBurst).count .hello = bursts.length := by
  induction bursts with
  | nil => rfl
  | cons burst bursts ih =>
    rw [List.flatMap_cons, List.count_append, ih, ofBurst, List.count_cons_self,
      List.count_replicate, if_neg (by decide), List.length_cons]
    omega

/-! ## What a badge sends -/

variable {S S' : Mesh} {n : Node} {p : Packet} {names : List Name} {heard : List Msg} {m : Msg}
  {e : Stat} {a b : Address}

/-- A message tells a name that its sender has had, and starts with the whole TTL. -/
structure Honest (names : List Name) (op : Op) : Prop where
  hello : ∀ data, op = .hello data → ∃ name ∈ names, data = greeting name
  baduser : ∀ data, op = .baduser data → ∃ name ∈ names, data = greeting name
  heartbeat : ∀ ttl, op = .heartbeat ttl → ttl = defaultTtl

theorem Honest.mono {names' : List Name} {op : Op} (h : Honest names op) (hsub : names ⊆ names') :
    Honest names' op where
  hello data hop := (h.hello data hop).imp fun _ => And.imp_left (hsub ·)
  baduser data hop := (h.baduser data hop).imp fun _ => And.imp_left (hsub ·)
  heartbeat := h.heartbeat

theorem honest_hello {name : Name} (h : name ∈ names) : Honest names (.hello (greeting name)) where
  hello _ hop := ⟨name, h, (Op.hello.inj hop).symm⟩
  baduser _ hop := nomatch hop
  heartbeat _ hop := nomatch hop

theorem honest_baduser {name : Name} (h : name ∈ names) :
    Honest names (.baduser (greeting name)) where
  hello _ hop := nomatch hop
  baduser _ hop := ⟨name, h, (Op.baduser.inj hop).symm⟩
  heartbeat _ hop := nomatch hop

theorem honest_heartbeat (names : List Name) : Honest names (.heartbeat defaultTtl) where
  hello _ hop := nomatch hop
  baduser _ hop := nomatch hop
  heartbeat _ hop := (Op.heartbeat.inj hop).symm

/-- The hellos in the air and the one that is due were all called for by the button. -/
structure Owes (hellos : Nat) (n : Node) : Prop where
  named : n.name ∈ n.names
  hellos : hellos + n.helloWork.toNat ≤ n.pressed.calls.count .hello
  bursts : ∃ done init t, Bursts n.pressed done init t

theorem step_calls (s : Pressed) (e : Touch) : ∃ new, (s.step e).calls = s.calls ++ new := by
  cases e with
  | tick ms => exact ⟨[], (List.append_nil _).symm⟩
  | edge level bit initialized => exact ⟨_, rfl⟩
  | longPress => exact ⟨[], (List.append_nil _).symm⟩

theorem Owes.touch {hellos : Nat} (h : Owes hellos n) (e : Touch) : Owes hellos (n.touch e) := by
  obtain ⟨done, init, t, hbursts⟩ := h.bursts
  obtain ⟨new, hnew⟩ := step_calls n.pressed (n.taken e)
  refine ⟨h.named, ?_, hbursts.step _⟩
  have hwork : (n.touch e).helloWork = (n.helloWork || decide (.hello ∈ new)) := by
    show (n.helloWork || decide (.hello ∈ (n.pressed.step _).calls.drop n.pressed.calls.length)) = _
    rw [hnew, List.drop_left]
  have hdue : (n.touch e).helloWork.toNat ≤ n.helloWork.toNat + new.count .hello := by
    rw [hwork]
    by_cases hmem : Call.hello ∈ new
    · have hpos := List.count_pos_iff.mpr hmem
      exact (Bool.toNat_le _).trans (Nat.le_add_left_of_le hpos)
    · rw [decide_eq_false hmem, Bool.or_false]
      exact Nat.le_add_right _ _
  have hle := h.hellos
  show hellos + (n.touch e).helloWork.toNat ≤ (n.pressed.step (n.taken e)).calls.count .hello
  rw [hnew, List.count_append]
  omega

theorem Owes.writeName {hellos : Nat} (h : Owes hellos n) (offset : Nat) (data : List UInt8)
    (set : Bool) : Owes hellos (n.writeName offset data set) := by
  unfold Node.writeName
  split
  · exact h
  · split
    · exact h
    · split
      · exact ⟨List.mem_cons_self, h.hellos, h.bursts⟩
      · exact h

theorem names_subset_writeName (n : Node) (offset : Nat) (data : List UInt8) (set : Bool) :
    n.names ⊆ (n.writeName offset data set).names := by
  unfold Node.writeName
  split
  · exact List.Subset.refl _
  · split
    · exact List.Subset.refl _
    · split
      · exact List.subset_cons_self _ _
      · exact List.Subset.refl _

theorem writeName_frame (n : Node) (offset : Nat) (data : List UInt8) (set : Bool) :
    (n.writeName offset data set).inbox = n.inbox ∧ (n.writeName offset data set).badge = n.badge ∧
      (n.writeName offset data set).shown = n.shown := by
  unfold Node.writeName
  split
  · exact ⟨rfl, rfl, rfl⟩
  · split
    · exact ⟨rfl, rfl, rfl⟩
    · split
      · exact ⟨rfl, rfl, rfl⟩
      · exact ⟨rfl, rfl, rfl⟩

/-- What a badge has sent. -/
structure Sends (S : Mesh) (b : Address) : Prop where
  honest : ∀ p ∈ S.sent, p.addr = b → Honest (S.node b).names p.op
  owes : Owes (S.sent.countP (isHello b)) (S.node b)

/-- What a badge has heard: it came over its inbox from another, with a name that one has had. -/
structure Hears (S : Mesh) (a : Address) : Prop where
  carries : (S.node a).inbox.Carries S.sent
  hellos : ∀ b : Address,
    hellos (S.node a).badge.heard b ≤ (S.node a).inbox.arrived.countP (isHello b)
  heartbeats : ∀ b : Address,
    heartbeats (S.node a).badge.heard b ≤ (S.node a).inbox.arrived.countP (isHeartbeat b)
  others : ∀ m ∈ (S.node a).badge.heard, m.addr ≠ a
  named : ∀ b name, .hello b name ∈ (S.node a).badge.heard →
    ∃ name' ∈ (S.node b).names, name = greeting name'
  hops : ∀ b h, .heartbeat b h ∈ (S.node a).badge.heard → Hops h
  stands : TableStands (S.node a).badge
  shown : ∀ text ∈ (S.node a).shown, ∃ b, b ≠ a ∧ Announces S b text

structure Kept (S : Mesh) : Prop where
  sends : ∀ b, Sends S b
  hears : ∀ a, Hears S a

theorem kept_start (name : Address → Name) : Kept (.start name) where
  sends b := ⟨fun _ hp => (nomatch hp), List.mem_cons_self, Nat.le_refl 0, _, _, _, bursts_boot⟩
  hears a := by
    constructor
    case carries => exact Channel.carries_nil
    case hellos => exact fun b => Nat.le_refl 0
    case heartbeats => exact fun b => Nat.le_refl 0
    case others => exact fun _ hm => nomatch hm
    case named => exact fun _ _ hm => nomatch hm
    case hops => exact fun _ _ hm => nomatch hm
    case stands => exact tableStands_start
    case shown => exact fun _ hm => nomatch hm

theorem Announces.mono {text : List UInt8} (h : Announces S b text)
    (hnames : (S.node b).names ⊆ (S'.node b).names) : Announces S' b text :=
  h.imp fun _ => And.imp_left (hnames ·)

/-- What a badge has heard stays so while nothing more arrives. -/
theorem Hears.frame (h : Hears S a) (hcarries : (S'.node a).inbox.Carries S'.sent)
    (harrived : (S'.node a).inbox.arrived = (S.node a).inbox.arrived)
    (hbadge : (S'.node a).badge = (S.node a).badge) (hshown : (S'.node a).shown = (S.node a).shown)
    (hnames : ∀ b, (S.node b).names ⊆ (S'.node b).names) : Hears S' a where
  carries := hcarries
  hellos := by rw [hbadge, harrived]; exact h.hellos
  heartbeats := by rw [hbadge, harrived]; exact h.heartbeats
  others := by rw [hbadge]; exact h.others
  named := by
    rw [hbadge]
    exact fun b name hm => (h.named b name hm).imp fun _ => And.imp_left (hnames b ·)
  hops := by rw [hbadge]; exact h.hops
  stands := by rw [hbadge]; exact h.stands
  shown := by
    rw [hshown]
    exact fun text ht => (h.shown text ht).imp fun b hb => ⟨hb.1, hb.2.mono (hnames b)⟩

theorem update_self (S : Mesh) (a : Address) (n : Node) : (S.update a n).node a = n := by
  show Function.update S.node a n a = n
  rw [Function.update_self]

theorem update_of_ne (S : Mesh) (n : Node) (hne : b ≠ a) : (S.update a n).node b = S.node b := by
  show Function.update S.node a n b = S.node b
  rw [Function.update_of_ne hne]

/-- What one badge keeps of itself is the same in all of them. -/
theorem update_field {β : Type*} (f : Node → β) (hf : f n = f (S.node a)) (b : Address) :
    f ((S.update a n).node b) = f (S.node b) := by
  by_cases hb : b = a
  · rw [hb, update_self, hf]
  · rw [update_of_ne S n hb]

theorem names_update (hnames : (S.node a).names ⊆ n.names) (b : Address) :
    (S.node b).names ⊆ ((S.update a n).node b).names := by
  by_cases hb : b = a
  · rw [hb, update_self]
    exact hnames
  · rw [update_of_ne S n hb]
    exact List.Subset.refl _

theorem Sends.update (h : Sends S b) (hnames : (S.node a).names ⊆ n.names)
    (howes : Owes (S.sent.countP (isHello a)) n) : Sends (S.update a n) b where
  honest p hp hb := (h.honest p hp hb).mono (names_update hnames b)
  owes := by
    by_cases hb : b = a
    · subst hb
      rw [update_self]
      exact howes
    · rw [update_of_ne S n hb]
      exact h.owes

/-- A badge that does something by itself. -/
theorem Kept.local (h : Kept S) (hinbox : n.inbox = (S.node a).inbox)
    (hbadge : n.badge = (S.node a).badge) (hshown : n.shown = (S.node a).shown)
    (hnames : (S.node a).names ⊆ n.names) (howes : Owes (S.sent.countP (isHello a)) n) :
    Kept (S.update a n) where
  sends b := (h.sends b).update hnames howes
  hears b := by
    refine (h.hears b).frame ?_ ?_ (update_field Node.badge hbadge b)
      (update_field Node.shown hshown b) (names_update hnames)
    · rw [update_field Node.inbox hinbox]
      exact (h.hears b).carries
    · rw [update_field Node.inbox hinbox]

theorem Kept.broadcast (h : Kept S) (hhonest : Honest (S.node p.addr).names p.op)
    (howes : Owes ((S.sent ++ [p]).countP (isHello p.addr)) (S.node p.addr)) :
    Kept (S.broadcast p) where
  sends b := by
    constructor
    case honest =>
      intro q hq hb
      rcases List.mem_append.mp hq with hold | hnew
      · exact (h.sends b).honest q hold hb
      · obtain rfl := List.mem_singleton.mp hnew
        exact hb ▸ hhonest
    case owes =>
      by_cases hb : p.addr = b
      · subst hb
        exact ⟨howes.named, howes.hellos, howes.bursts⟩
      · have hnot : isHello b p = false := by
          unfold isHello
          split
          · exact decide_eq_false hb
          · rfl
        have howes' := (h.sends b).owes
        refine ⟨howes'.named, ?_, howes'.bursts⟩
        show (S.sent ++ [p]).countP (isHello b) + _ ≤ _
        rw [List.countP_append, List.countP_singleton, hnot]
        exact howes'.hellos
  hears a := (h.hears a).frame (h.hears a).carries.send rfl rfl rfl fun _ => List.Subset.refl _

/-! ## What a badge hears -/

variable {recvTtl : UInt8}

/-- What a badge can make of a message. -/
inductive Took (n : Node) (a : Address) (p : Packet) (recvTtl : UInt8) : Node → Prop
  | ignored : Took n a p recvTtl n
  | hello (data : List UInt8) (hop : p.op = .hello data) (hne : p.addr ≠ a) :
    Took n a p recvTtl
      { n with badge := n.badge.receive (.hello p.addr (cString (data.take helloMax)))
               shown := (cString (data.take helloMax) ++ saysHi) :: n.shown }
  | heartbeat (initTtl : UInt8) (hop : p.op = .heartbeat initTtl) (hne : p.addr ≠ a) :
    Took n a p recvTtl
      { n with badge := n.badge.receive (.heartbeat p.addr (initTtl - recvTtl + 1).toFin) }
  | baduser (data : List UInt8) (hop : p.op = .baduser data) (hne : p.addr ≠ a) :
    Took n a p recvTtl
      { n with shown := (cString (data.take helloMax) ++ isMisbehaving) :: n.shown }

theorem took_receive (n : Node) (a : Address) (p : Packet) (recvTtl : UInt8) :
    Took n a p recvTtl (n.receive a p recvTtl) := by
  rw [Node.receive]
  split
  case h_1 data hop =>
    split
    case isTrue => exact .ignored
    case isFalse =>
      rw [Node.vndHello]
      split
      case isTrue => exact .ignored
      case isFalse hne => exact .hello data hop hne
  case h_2 initTtl hop =>
    rw [Node.vndHeartbeat]
    split
    case isTrue => exact .ignored
    case isFalse hne => exact .heartbeat initTtl hop hne
  case h_3 data hop =>
    split
    case isTrue => exact .ignored
    case isFalse =>
      rw [Node.vndBaduser]
      split
      case isTrue => exact .ignored
      case isFalse hne => exact .baduser data hop hne

/-- It changes nothing of what the badge sends. -/
theorem Took.frame {n n' : Node} (h : Took n a p recvTtl n') :
    n'.pressed = n.pressed ∧ n'.helloWork = n.helloWork ∧ n'.name = n.name ∧ n'.names = n.names ∧
      n'.inbox = n.inbox := by
  cases h with
  | ignored => exact ⟨rfl, rfl, rfl, rfl, rfl⟩
  | hello => exact ⟨rfl, rfl, rfl, rfl, rfl⟩
  | heartbeat => exact ⟨rfl, rfl, rfl, rfl, rfl⟩
  | baduser => exact ⟨rfl, rfl, rfl, rfl, rfl⟩

/-- A message heard counts for no more than the packet it came in. -/
structure Vouches (p : Packet) (m : Msg) : Prop where
  addr : m.addr = p.addr
  hello : ∀ c name, m = .hello c name → ∃ data, p.op = .hello data
  heartbeat : ∀ c h, m = .heartbeat c h → ∃ ttl, p.op = .heartbeat ttl

theorem Vouches.hellos_le (h : Vouches p m) (b : Address) :
    hellos (m :: heard) b ≤ hellos heard b + (isHello b p).toNat := by
  by_cases hb : m.addr = b
  · cases m with
    | heartbeat c hops =>
      obtain rfl : c = b := hb
      rw [hellos_heartbeat]
      exact Nat.le_add_right _ _
    | hello c name =>
      obtain rfl : c = b := hb
      obtain ⟨data, hop⟩ := h.hello c name rfl
      have hp : isHello c p = true := by
        rw [isHello, hop]
        exact decide_eq_true h.addr.symm
      rw [hellos_hello, hp]
      exact Nat.le_refl _
  · rw [(heard_of_ne heard hb).1]
    exact Nat.le_add_right _ _

theorem Vouches.heartbeats_le (h : Vouches p m) (b : Address) :
    heartbeats (m :: heard) b ≤ heartbeats heard b + (isHeartbeat b p).toNat := by
  by_cases hb : m.addr = b
  · cases m with
    | hello c name =>
      obtain rfl : c = b := hb
      rw [heartbeats_hello]
      exact Nat.le_add_right _ _
    | heartbeat c hops =>
      obtain rfl : c = b := hb
      obtain ⟨ttl, hop⟩ := h.heartbeat c hops rfl
      have hp : isHeartbeat c p = true := by
        rw [isHeartbeat, hop]
        exact decide_eq_true h.addr.symm
      rw [heartbeats_heartbeat, hp]
      exact Nat.le_refl _
  · rw [(heard_of_ne heard hb).2.1]
    exact Nat.le_add_right _ _

theorem countP_concat {f : Packet → Bool} {ps : List Packet} {k : Nat}
    (h : k ≤ ps.countP f + (f p).toNat) : k ≤ (ps ++ [p]).countP f := by
  rw [List.countP_append, List.countP_singleton]
  cases hp : f p with
  | true => simpa [hp] using h
  | false => simpa [hp] using h

/-- A message heard, as it may be from another badge. -/
structure Fresh (S : Mesh) (a : Address) (m : Msg) : Prop where
  other : m.addr ≠ a
  named : ∀ b name, m = .hello b name → ∃ name' ∈ (S.node b).names, name = greeting name'
  hops : ∀ b h, m = .heartbeat b h → Hops h

/-- What the arrival of `p` leaves of a badge. -/
structure Takes (S : Mesh) (a : Address) (p : Packet) (n : Node) : Prop where
  names : n.names = (S.node a).names
  hellos : ∀ b : Address,
    hellos n.badge.heard b ≤ hellos (S.node a).badge.heard b + (isHello b p).toNat
  heartbeats : ∀ b : Address,
    heartbeats n.badge.heard b ≤ heartbeats (S.node a).badge.heard b + (isHeartbeat b p).toNat
  heard : ∀ m ∈ n.badge.heard, m ∈ (S.node a).badge.heard ∨ Fresh S a m
  stands : TableStands n.badge
  shown : ∀ text ∈ n.shown, text ∈ (S.node a).shown ∨ ∃ b, b ≠ a ∧ Announces S b text

/-- A badge that hears nothing new of it. -/
theorem Hears.takes_of_badge (h : Hears S a) (hnames : n.names = (S.node a).names)
    (hbadge : n.badge = (S.node a).badge)
    (hshown : ∀ text ∈ n.shown, text ∈ (S.node a).shown ∨ ∃ b, b ≠ a ∧ Announces S b text) :
    Takes S a p n where
  names := hnames
  hellos _ := hbadge ▸ Nat.le_add_right _ _
  heartbeats _ := hbadge ▸ Nat.le_add_right _ _
  heard _ hm := Or.inl (hbadge ▸ hm)
  stands := hbadge ▸ h.stands
  shown := hshown

theorem Hears.takes_of_receive (h : Hears S a) (hnames : n.names = (S.node a).names)
    (hbadge : n.badge = (S.node a).badge.receive m) (hvouches : Vouches p m) (hfresh : Fresh S a m)
    (hshown : ∀ text ∈ n.shown, text ∈ (S.node a).shown ∨ ∃ b, b ≠ a ∧ Announces S b text) :
    Takes S a p n where
  names := hnames
  hellos b := hbadge ▸ hvouches.hellos_le b
  heartbeats b := hbadge ▸ hvouches.heartbeats_le b
  heard m' hm := by
    rw [hbadge] at hm
    rcases List.mem_cons.mp hm with rfl | hold
    · exact Or.inr hfresh
    · exact Or.inl hold
  stands := hbadge ▸ h.stands.receive m
  shown := hshown

theorem Hears.takes (h : Hears S a) (hhonest : Honest (S.node p.addr).names p.op)
    (relays : Fin defaultTtl.toNat)
    (htook : Took (S.node a) a p (defaultTtl - UInt8.ofNat relays) n) : Takes S a p n := by
  cases htook with
  | ignored => exact h.takes_of_badge rfl rfl fun _ ht => Or.inl ht
  | hello data hop hne =>
    obtain ⟨name, hname, rfl⟩ := hhonest.hello data hop
    refine h.takes_of_receive (m := .hello p.addr _) rfl rfl
      ⟨rfl, fun c str hm => ⟨_, hop⟩, fun _ _ hm => (nomatch hm)⟩
      ⟨hne, fun b str hm => ?_, fun _ _ hm => (nomatch hm)⟩ fun text ht => ?_
    · obtain ⟨rfl, rfl⟩ := Msg.hello.inj hm
      exact ⟨name, hname, cString_take_greeting name⟩
    · rcases List.mem_cons.mp ht with rfl | hold
      · exact Or.inr ⟨p.addr, hne, name, hname, Or.inl (by rw [cString_take_greeting])⟩
      · exact Or.inl hold
  | heartbeat initTtl hop hne =>
    obtain rfl := hhonest.heartbeat initTtl hop
    refine h.takes_of_receive (m := .heartbeat p.addr _) rfl rfl
      ⟨rfl, fun _ _ hm => (nomatch hm), fun c hops hm => ⟨_, hop⟩⟩
      ⟨hne, fun _ _ hm => (nomatch hm), fun b hops hm => ?_⟩ fun text ht => Or.inl ht
    obtain ⟨-, rfl⟩ := Msg.heartbeat.inj hm
    exact hops_relays relays
  | baduser data hop hne =>
    obtain ⟨name, hname, rfl⟩ := hhonest.baduser data hop
    refine h.takes_of_badge rfl rfl fun text ht => ?_
    rcases List.mem_cons.mp ht with rfl | hold
    · exact Or.inr ⟨p.addr, hne, name, hname, Or.inr (by rw [cString_take_greeting])⟩
    · exact Or.inl hold

/-- The badge at which the packet arrives. -/
theorem Hears.receive (h : Hears S a) {k : Nat} (hk : (S.node a).inbox.flight[k]? = some p)
    (htakes : Takes S a p n) (hinbox : n.inbox = (S.node a).inbox) :
    Hears (S.update a { n with inbox := n.inbox.deliver k }) a := by
  have hnames : ∀ b, (S.node b).names ⊆
      ((S.update a { n with inbox := n.inbox.deliver k }).node b).names :=
    names_update (n := { n with inbox := n.inbox.deliver k }) (htakes.names ▸ List.Subset.refl _)
  have harrived : (n.inbox.deliver k).arrived = (S.node a).inbox.arrived ++ [p] := by
    rw [hinbox, Channel.deliver_arrived _ _ hk]
  constructor
  case carries =>
    rw [update_self]
    show (n.inbox.deliver k).Carries S.sent
    rw [hinbox]
    exact h.carries.deliver
  case hellos =>
    intro b
    rw [update_self]
    show MeshBadge.hellos n.badge.heard b ≤ (n.inbox.deliver k).arrived.countP _
    rw [harrived]
    exact countP_concat ((htakes.hellos b).trans (Nat.add_le_add_right (h.hellos b) _))
  case heartbeats =>
    intro b
    rw [update_self]
    show MeshBadge.heartbeats n.badge.heard b ≤ (n.inbox.deliver k).arrived.countP _
    rw [harrived]
    exact countP_concat ((htakes.heartbeats b).trans (Nat.add_le_add_right (h.heartbeats b) _))
  case others =>
    rw [update_self]
    exact fun m hm => (htakes.heard m hm).elim (h.others m) Fresh.other
  case named =>
    intro b name hm
    rw [update_self] at hm
    have hname := (htakes.heard _ hm).elim (h.named b name) fun hfresh => hfresh.named b name rfl
    exact hname.imp fun _ => And.imp_left (hnames b ·)
  case hops =>
    rw [update_self]
    exact fun b hops hm =>
      (htakes.heard _ hm).elim (h.hops b hops) fun hfresh => hfresh.hops b hops rfl
  case stands =>
    rw [update_self]
    exact htakes.stands
  case shown =>
    intro text ht
    rw [update_self] at ht
    obtain ⟨b, hb, hsays⟩ := (htakes.shown text ht).elim (h.shown text) id
    exact ⟨b, hb, hsays.mono (hnames b)⟩

theorem Kept.receive (h : Kept S) (a : Address) (k : Nat) (relays : Fin defaultTtl.toNat) :
    Kept (S.step (.receive a k relays)) := by
  rw [Mesh.step]
  dsimp only
  split
  case h_2 => exact h
  case h_1 p hk =>
    split
    case isFalse => exact h
    case isTrue =>
      have hsent := (h.hears a).carries.mem_sent hk
      have htook := took_receive (S.node a) a p (defaultTtl - UInt8.ofNat relays)
      generalize (S.node a).receive a p (defaultTtl - UInt8.ofNat relays) = n at htook ⊢
      have htakes := (h.hears a).takes ((h.sends p.addr).honest p hsent rfl) relays htook
      obtain ⟨hpressed, hwork, hname, hnames, hinbox⟩ := htook.frame
      have howes := (h.sends a).owes
      constructor
      case sends =>
        refine fun b => (h.sends b).update (hnames ▸ List.Subset.refl _) ⟨?_, ?_, ?_⟩
        · exact hname ▸ hnames ▸ howes.named
        · exact hwork ▸ hpressed ▸ howes.hellos
        · exact hpressed ▸ howes.bursts
      case hears =>
        intro b
        by_cases hb : b = a
        · subst hb
          exact (h.hears b).receive hk htakes hinbox
        · have hnode := update_of_ne S { n with inbox := n.inbox.deliver k } hb
          exact (h.hears b).frame (by rw [hnode]; exact (h.hears b).carries) (by rw [hnode])
            (by rw [hnode]) (by rw [hnode]) (names_update (hnames ▸ List.Subset.refl _))

theorem Kept.lose (h : Kept S) (a : Address) (k : Nat) : Kept (S.step (.lose a k)) := by
  let n : Node := { S.node a with inbox := (S.node a).inbox.lose k }
  have hnames : (S.node a).names ⊆ n.names := List.Subset.refl _
  have howes := (h.sends a).owes
  show Kept (S.update a n)
  constructor
  case sends => exact fun b => (h.sends b).update hnames ⟨howes.named, howes.hellos, howes.bursts⟩
  case hears =>
    intro b
    have harrived := update_field (n := n) (fun n => n.inbox.arrived) (Channel.lose_arrived _ k) b
    have hbadge := update_field (S := S) (a := a) (n := n) Node.badge rfl b
    have hshown := update_field (S := S) (a := a) (n := n) Node.shown rfl b
    refine (h.hears b).frame ?_ harrived hbadge hshown (names_update hnames)
    by_cases hb : b = a
    · subst hb
      rw [update_self]
      exact (h.hears b).carries.lose
    · rw [update_of_ne S n hb]
      exact (h.hears b).carries

theorem Kept.sendHello (h : Kept S) (a : Address) (sent : Bool) :
    Kept (S.step (.sendHello a sent)) := by
  have howes := (h.sends a).owes
  rw [Mesh.step]
  split
  case isFalse => exact h
  case isTrue hwork =>
    have hle : S.sent.countP (isHello a) + 1 ≤ (S.node a).pressed.calls.count .hello := by
      have hle := howes.hellos
      rwa [hwork] at hle
    have hdone : Kept (S.update a { S.node a with helloWork := false }) :=
      h.local rfl rfl rfl (List.Subset.refl _)
        ⟨howes.named, (Nat.le_succ _).trans hle, howes.bursts⟩
    dsimp only
    split
    case isFalse => exact hdone
    case isTrue =>
      have hhello : isHello a ⟨a, .hello (greeting (S.node a).name)⟩ = true := decide_eq_true rfl
      refine hdone.broadcast ?_ ⟨?_, ?_, ?_⟩
      · rw [update_self]
        exact honest_hello howes.named
      · rw [update_self]
        exact howes.named
      · show (S.sent ++ _).countP (isHello a) + _ ≤ _
        rw [update_self, List.countP_append, List.countP_singleton, hhello]
        exact hle
      · rw [update_self]
        exact howes.bursts

theorem Kept.sendBaduser (h : Kept S) (a : Address) (sent : Bool) :
    Kept (S.step (.sendBaduser a sent)) := by
  have howes := (h.sends a).owes
  rw [Mesh.step]
  split
  case isFalse => exact h
  case isTrue =>
    have hdone : Kept (S.update a { S.node a with baduserWork := false }) :=
      h.local rfl rfl rfl (List.Subset.refl _) ⟨howes.named, howes.hellos, howes.bursts⟩
    dsimp only
    split
    case isFalse => exact hdone
    case isTrue =>
      refine hdone.broadcast ?_ ⟨?_, ?_, ?_⟩
      · rw [update_self]
        exact honest_baduser howes.named
      · rw [update_self]
        exact howes.named
      · show (S.sent ++ _).countP (isHello a) + _ ≤ _
        rw [update_self, List.countP_append, List.countP_singleton]
        exact howes.hellos
      · rw [update_self]
        exact howes.bursts

theorem Kept.pubUpdate (h : Kept S) (a : Address) : Kept (S.step (.pubUpdate a)) := by
  have howes := (h.sends a).owes
  rw [Mesh.step]
  split
  case isFalse => exact h
  case isTrue =>
    refine h.broadcast (honest_heartbeat _) ⟨howes.named, ?_, howes.bursts⟩
    show (S.sent ++ _).countP (isHello a) + _ ≤ _
    rw [List.countP_append, List.countP_singleton]
    exact howes.hellos

theorem Kept.step (h : Kept S) (e : Event) : Kept (S.step e) := by
  cases e with
  | touch a e => exact h.local rfl rfl rfl (List.Subset.refl _) ((h.sends a).owes.touch e)
  | writeName a offset data set =>
    have hwrite := names_subset_writeName (S.node a) offset data set
    obtain ⟨hinbox, hbadge, hshown⟩ := writeName_frame (S.node a) offset data set
    exact h.local hinbox hbadge hshown hwrite ((h.sends a).owes.writeName offset data set)
  | startMesh a =>
    have howes := (h.sends a).owes
    exact h.local rfl rfl rfl (List.Subset.refl _) ⟨howes.named, howes.hellos, howes.bursts⟩
  | sendHello a sent => exact h.sendHello a sent
  | sendBaduser a sent => exact h.sendBaduser a sent
  | pubUpdate a => exact h.pubUpdate a
  | receive a k relays => exact h.receive a k relays
  | lose a k => exact h.lose a k

/-! ## What a badge has of the others -/

theorem Owes.lt_bursts {hellos : Nat} (h : Owes hellos n) : hellos < n.bursts.length := by
  obtain ⟨done, init, t, hbursts⟩ := h.bursts
  have hcalls := congrArg (List.count .hello) hbursts.calls
  rw [List.count_cons_self, count_ofBurst, ← hbursts.splits] at hcalls
  have hle := h.hellos
  show hellos < ((0 :: n.pressed.releases).splitBy sameBurst).length
  omega

theorem Hears.le_sent (h : Hears S a) (f : Packet → Bool) :
    (S.node a).inbox.arrived.countP f ≤ S.sent.countP f :=
  h.carries.arrived_subperm.countP_le f

theorem Kept.saysTrue (h : Kept S) (hs : Supported (S.node a).badge.heard e) (haddr : e.addr = b) :
    SaysTrue S b e := by
  have hears := h.hears a
  have hof : ∀ c : Address, e.addr = c → c = b := fun c hc => Subtype.ext (hc.symm.trans haddr)
  constructor
  case hello =>
    have hle := hs.hello
    rw [haddr] at hle
    have hsent := (hears.hellos b).trans (hears.le_sent (isHello b))
    exact (hle.trans hsent).trans_lt (h.sends b).owes.lt_bursts
  case heartbeat =>
    have hle := hs.heartbeat
    rw [haddr] at hle
    exact hle.trans ((hears.heartbeats b).trans (hears.le_sent (isHeartbeat b)))
  case name =>
    intro hpos
    obtain ⟨c, str, hm, hc, htext⟩ := hs.name hpos
    obtain rfl := hof c hc
    obtain ⟨name, hname, rfl⟩ := hears.named c str hm
    refine ⟨name, hname, htext.trans ?_⟩
    have hzero : 0 ∉ greeting name := fun hmem => name.property (List.mem_of_mem_take hmem)
    rw [cString_eq_self hzero]
    exact List.take_of_length_le (length_greeting name)
  case minHops => exact hs.minHops.imp_right fun ⟨c, hm, _⟩ => hears.hops c _ hm
  case maxHops => exact hs.maxHops.imp_right fun ⟨c, hm, _⟩ => hears.hops c _ hm

theorem Announces.length_lt {text : List UInt8} (h : Announces S b text) : text.length < 32 := by
  obtain ⟨name, -, rfl | rfl⟩ := h
  · have hle := length_greeting name
    have hlen : saysHi.length = 9 := rfl
    have hmax : helloMax = 8 := rfl
    rw [List.length_append]
    omega
  · have hle := length_greeting name
    have hlen : isMisbehaving.length = 16 := rfl
    have hmax : helloMax = 8 := rfl
    rw [List.length_append]
    omega

theorem Kept.truthful (h : Kept S) (a : Address) : Truthful S a where
  entry e he hused := by
    have hs := ((h.hears a).stands e he).supported hused
    obtain ⟨m, hm, haddr⟩ := hs.addr
    exact ⟨m.addr, (h.hears a).others m hm, haddr, h.saysTrue hs haddr⟩
  shown text ht := by
    obtain ⟨b, hb, htext⟩ := (h.hears a).shown text ht
    exact ⟨htext.length_lt, b, hb, htext⟩

/-- Whatever the badges do and however the mesh loses, reorders and relays what they send, a badge
has of the others only what is so: a name they have had, and no more hellos than bursts of presses
of their buttons after the boot's. -/
theorem badge_truthful (name : Address → Name) (es : List Event) (a : Address) :
    Truthful (run Mesh.step (.start name) es) a :=
  (run_invariant Mesh.step (I := Kept) (fun _ e h => h.step e) (kept_start name) es).truthful a

end MeshBadge
end ZephyrSamples
