import Mathlib.Data.BitVec
import ZephyrSamples.Lib.SlotTable

/-!
# The sessions of the zperf receivers

`struct session` of the `zperf` sample with the two searches of its table, `get_session` for a UDP
datagram and `get_tcp_session` for a TCP context.  A table is the list of its slots; the type of the
contexts is a parameter.
-/

namespace ZephyrSamples
namespace Zperf

open SlotTable

inductive SessionState where
  | null
  | ongoing
  | lastPacketReceived
  | completed
  deriving DecidableEq

/-- The union of `struct net_addr`: the bytes of an `in6_addr`, the first four of which are the
`in_addr`. -/
structure In6Addr where
  inAddr : BitVec 32 := 0
  rest : BitVec 96 := 0
  deriving DecidableEq

/-- The family of a packet with the source address of its IP header. -/
inductive SrcAddr where
  | inet (src : BitVec 32)
  | inet6 (src : In6Addr)
  | unsupported (family : BitVec 8)
  deriving DecidableEq

structure Endpoint where
  addr : SrcAddr
  port : BitVec 16
  deriving DecidableEq

/-- `struct zperf_server_hdr`. -/
structure ServerHdr where
  flags : BitVec 32 := 0
  totalLen1 : BitVec 32 := 0
  totalLen2 : BitVec 32 := 0
  stopSec : BitVec 32 := 0
  stopUsec : BitVec 32 := 0
  errorCnt : BitVec 32 := 0
  outorderCnt : BitVec 32 := 0
  datagrams : BitVec 32 := 0
  jitter1 : BitVec 32 := 0
  jitter2 : BitVec 32 := 0
  deriving DecidableEq

/-- The stat data of `struct session`. -/
structure StatData where
  counter : BitVec 32 := 0
  nextId : BitVec 32 := 0
  outorder : BitVec 32 := 0
  error : BitVec 32 := 0
  length : BitVec 64 := 0
  startTime : BitVec 32 := 0
  jitter : BitVec 32 := 0
  lastTransitTime : BitVec 32 := 0
  deriving DecidableEq

/-- `struct session`.  Its values default to those of the zeroed static table. -/
structure Session (κ : Type*) extends StatData where
  port : BitVec 16 := 0
  ip : In6Addr := {}
  ctx : Option κ := none
  state : SessionState := .null
  stat : ServerHdr := {}
  deriving DecidableEq

def sessionMax : Nat := 4

variable {κ : Type*}

namespace Session

/-- `zperf_reset_session_stats`. -/
def resetStats (session : Session κ) : Session κ :=
  { session with
    counter := 0, startTime := 0, nextId := 0, length := 0, outorder := 0, error := 0, jitter := 0,
    lastTransitTime := 0 }

/-- What `get_session` compares of a slot with the tuple of a packet. -/
def isFor (ptr : Session κ) (e : Endpoint) : Bool :=
  match e.addr with
  | .inet ipv4 => ptr.port == e.port && ptr.ip.inAddr == ipv4
  | .inet6 ipv6 => ptr.port == e.port && ptr.ip == ipv6
  | .unsupported _ => false

/-- Whether both searches take the slot for a new session. -/
def isFree (ptr : Session κ) : Bool := ptr.state == .null || ptr.state == .completed

/-- The tuple `get_session` writes into a slot it takes.  An IPv4 address leaves the last twelve
bytes of the union as they are. -/
def setTuple (active : Session κ) (e : Endpoint) : Session κ :=
  match e.addr with
  | .inet ipv4 => { active with port := e.port, ip := { active.ip with inAddr := ipv4 } }
  | .inet6 ipv6 => { active with port := e.port, ip := ipv6 }
  | .unsupported _ => { active with port := e.port }

end Session

/-- `zperf_session_init` for the table of one protocol. -/
def sessionInit (sessions : List (Session κ)) : List (Session κ) :=
  sessions.map fun session => ({ session with state := .null } : Session κ).resetStats

/-- The table as it is in zeroed memory. -/
def zeroedSessions (κ : Type*) : List (Session κ) := List.replicate sessionMax {}

/-- The loop of `get_session` over the slots from index `i` on, with the free slot found before
them. -/
def searchSlots (e : Endpoint) : List (Session κ) → Nat → Option Nat → Option Nat × Option Nat
  | [], _, free => (none, free)
  | ptr :: rest, i, free =>
    if ptr.isFor e then (some i, free)
    else searchSlots e rest (i + 1) (if free.isNone && ptr.isFree then some i else free)

/-- `get_session` for a packet that is there and `SESSION_UDP`: the slot it returns, if any, and the
table after it. -/
def getSession (sessions : List (Session κ)) (e : Endpoint) : Option Nat × List (Session κ) :=
  match e.addr with
  | .unsupported _ => (none, sessions)
  | _ =>
    match searchSlots e sessions 0 none with
    | (some active, _) => (some active, sessions)
    | (none, some free) => (some free, sessions.modify free fun slot => slot.setTuple e)
    | (none, none) => (none, sessions)

/-- `get_tcp_session` for a context that is not null. -/
def getTcpSession [DecidableEq κ] (ctx : κ) : List (Session κ) → Option Nat × List (Session κ)
  | [] => (none, [])
  | ptr :: rest =>
    if ptr.ctx = some ctx then (some 0, ptr :: rest)
    else if ptr.isFree then (some 0, { ptr with ctx := some ctx } :: rest)
    else ((getTcpSession ctx rest).1.map (· + 1), ptr :: (getTcpSession ctx rest).2)

theorem sessionInit_zeroed : sessionInit (zeroedSessions κ) = zeroedSessions κ := rfl

theorem zeroedSessions_slot {i : Nat} {s : Session κ}
    (h : (sessionInit (zeroedSessions κ))[i]? = some s) : s = {} := by
  rw [sessionInit_zeroed] at h
  have hmem : s ∈ zeroedSessions κ := List.mem_of_getElem? h
  exact List.eq_of_mem_replicate hmem

/-! ## The searches -/

/-- `get_session` has a branch for the family. -/
def SrcAddr.Supported : SrcAddr → Prop
  | .unsupported _ => False
  | _ => True

theorem Session.isFor_supported {ptr : Session κ} {e : Endpoint} (h : ptr.isFor e = true) :
    e.addr.Supported := by
  obtain ⟨addr, port⟩ := e
  cases addr with
  | inet ipv4 => trivial
  | inet6 ipv6 => trivial
  | unsupported family => exact absurd h Bool.false_ne_true

/-- A slot compares equal with the tuple that was written into it. -/
theorem Session.isFor_setTuple (ptr : Session κ) {e : Endpoint} (he : e.addr.Supported) :
    (ptr.setTuple e).isFor e = true := by
  obtain ⟨addr, port⟩ := e
  cases addr with
  | inet ipv4 => simp [setTuple, isFor]
  | inet6 ipv6 => simp [setTuple, isFor]
  | unsupported family => exact he.elim

theorem Session.setTuple_eq (ptr : Session κ) (e : Endpoint) :
    ∃ port ip, ptr.setTuple e = { ptr with port := port, ip := ip } := by
  obtain ⟨addr, port⟩ := e
  cases addr with
  | inet ipv4 => exact ⟨port, { ptr.ip with inAddr := ipv4 }, rfl⟩
  | inet6 ipv6 => exact ⟨port, ipv6, rfl⟩
  | unsupported family => exact ⟨port, ptr.ip, rfl⟩

theorem searchSlots_fst (e : Endpoint) (slots : List (Session κ)) (i : Nat) (free : Option Nat) :
    (searchSlots e slots i free).1 = (slots.findIdx? (·.isFor e)).map (· + i) := by
  induction slots generalizing i free with
  | nil => rfl
  | cons ptr rest ih =>
    rw [searchSlots, List.findIdx?_cons]
    cases hfor : ptr.isFor e with
    | true => simp
    | false =>
      rw [if_neg Bool.false_ne_true, if_neg Bool.false_ne_true, ih, Option.map_map]
      exact congrArg (Option.map · _) (funext fun k => by simp only [Function.comp]; omega)

theorem searchSlots_snd {e : Endpoint} {slots : List (Session κ)}
    (hnone : slots.findIdx? (·.isFor e) = none) (i : Nat) (free : Option Nat) :
    (searchSlots e slots i free).2 = free.or ((slots.findIdx? (·.isFree)).map (· + i)) := by
  induction slots generalizing i free with
  | nil => simp [searchSlots]
  | cons ptr rest ih =>
    rw [List.findIdx?_cons] at hnone
    cases hfor : ptr.isFor e with
    | true =>
      rw [hfor, if_pos rfl] at hnone
      exact absurd hnone (Option.some_ne_none 0)
    | false =>
      rw [hfor, if_neg Bool.false_ne_true, Option.map_eq_none_iff] at hnone
      rw [searchSlots, hfor, if_neg Bool.false_ne_true, ih hnone, List.findIdx?_cons]
      have hshift : ((rest.findIdx? (·.isFree)).map (· + 1)).map (· + i) =
          (rest.findIdx? (·.isFree)).map (· + (i + 1)) := by
        rw [Option.map_map]
        exact congrArg (Option.map · _) (funext fun k => by simp only [Function.comp]; omega)
      cases free with
      | some k => simp
      | none => cases hfree : ptr.isFree <;> simp [hshift]

theorem getSession_of_supported {sessions : List (Session κ)} {e : Endpoint}
    (he : e.addr.Supported) :
    getSession sessions e =
      match sessions.findIdx? (·.isFor e), sessions.findIdx? (·.isFree) with
      | some active, _ => (some active, sessions)
      | none, some free => (some free, sessions.modify free fun slot => slot.setTuple e)
      | none, none => (none, sessions) := by
  have hsearch : getSession sessions e =
      match searchSlots e sessions 0 none with
      | (some active, _) => (some active, sessions)
      | (none, some free) => (some free, sessions.modify free fun slot => slot.setTuple e)
      | (none, none) => (none, sessions) := by
    obtain ⟨addr, port⟩ := e
    cases addr with
    | inet ipv4 => rfl
    | inet6 ipv6 => rfl
    | unsupported family => exact he.elim
  have hfst := searchSlots_fst e sessions 0 none
  rw [hsearch]
  cases hfor : sessions.findIdx? (·.isFor e) with
  | some i =>
    rw [hfor] at hfst
    cases hfound : searchSlots e sessions 0 none with
    | mk active free =>
      rw [hfound] at hfst
      rw [show active = some i from hfst]
  | none =>
    have hsnd := searchSlots_snd hfor 0 none
    rw [hfor] at hfst
    cases hfound : searchSlots e sessions 0 none with
    | mk active free =>
      rw [hfound] at hfst hsnd
      have hfree : free = sessions.findIdx? (·.isFree) := by simpa using hsnd
      rw [show active = none from hfst, hfree]
      cases sessions.findIdx? (·.isFree) <;> rfl

/-- What `get_session` can do: return the first slot for the tuple, take the first free slot when
there is none for it, or return nothing and leave the table alone. -/
theorem getSession_cases (sessions : List (Session κ)) (e : Endpoint) :
    (∃ i, First (fun s => s.isFor e = true) sessions i ∧
      getSession sessions e = (some i, sessions)) ∨
    (∃ i, Nowhere (fun s => s.isFor e = true) sessions ∧
      First (fun s => s.isFree = true) sessions i ∧ e.addr.Supported ∧
      getSession sessions e = (some i, sessions.modify i fun slot => slot.setTuple e)) ∨
    getSession sessions e = (none, sessions) := by
  by_cases he : e.addr.Supported
  · rw [getSession_of_supported he]
    cases hfor : sessions.findIdx? (·.isFor e) with
    | some i => exact Or.inl ⟨i, findIdx?_eq_some.mp hfor, rfl⟩
    | none =>
      cases hfree : sessions.findIdx? (·.isFree) with
      | some i =>
        exact Or.inr (Or.inl ⟨i, findIdx?_eq_none.mp hfor, findIdx?_eq_some.mp hfree, he, rfl⟩)
      | none => exact Or.inr (Or.inr rfl)
  · obtain ⟨addr, port⟩ := e
    cases addr with
    | inet ipv4 => exact absurd trivial he
    | inet6 ipv6 => exact absurd trivial he
    | unsupported family => exact Or.inr (Or.inr rfl)

/-- The slot `get_session` returns is the first for the tuple after it, and has nothing but its
tuple written. -/
theorem getSession_slot {sessions : List (Session κ)} {e : Endpoint} {i : Nat} {s : Session κ}
    (hi : (getSession sessions e).1 = some i) (hs : sessions[i]? = some s) :
    ∃ s₀ : Session κ, getSession sessions e = (some i, sessions.set i s₀) ∧
      (∃ port ip, s₀ = { s with port := port, ip := ip }) ∧ s₀.isFor e = true ∧
      ∀ j < i, ∀ b, sessions[j]? = some b → ¬ b.isFor e = true := by
  rcases getSession_cases sessions e with
    ⟨k, hfirst, hresult⟩ | ⟨k, hnowhere, _, hsupported, hresult⟩ | hnone
  · obtain rfl : k = i := by
      rw [hresult] at hi
      exact Option.some.inj hi
    obtain ⟨⟨b, hb, hfor⟩, hbefore⟩ := hfirst
    obtain rfl : s = b := Option.some.inj (hs.symm.trans hb)
    exact ⟨s, by rw [hresult, set_self hs], ⟨s.port, s.ip, rfl⟩, hfor, hbefore⟩
  · obtain rfl : k = i := by
      rw [hresult] at hi
      exact Option.some.inj hi
    exact ⟨s.setTuple e, by rw [hresult, modify_eq_set hs], s.setTuple_eq e,
      s.isFor_setTuple hsupported, fun j _ b hb => hnowhere j b hb⟩
  · rw [hnone] at hi
    cases hi

section Tcp

variable [DecidableEq κ] {ctx : κ}

/-- Whether `get_tcp_session` stops at the slot. -/
def Session.endsSearch (ptr : Session κ) (ctx : κ) : Bool := ptr.ctx == some ctx || ptr.isFree

theorem Session.endsSearch_iff {ptr : Session κ} :
    ptr.endsSearch ctx = true ↔ ptr.ctx = some ctx ∨ ptr.isFree = true := by
  rw [endsSearch, Bool.or_eq_true, beq_iff_eq]

def Session.setCtx (ptr : Session κ) (ctx : κ) : Session κ := { ptr with ctx := some ctx }

/-- `get_tcp_session` returns the first slot that has the context or is free, with the context in
it. -/
theorem getTcpSession_eq (sessions : List (Session κ)) :
    getTcpSession ctx sessions =
      match sessions.findIdx? (·.endsSearch ctx) with
      | some i => (some i, sessions.modify i fun slot => slot.setCtx ctx)
      | none => (none, sessions) := by
  induction sessions with
  | nil => rfl
  | cons ptr rest ih =>
    rw [getTcpSession, List.findIdx?_cons]
    by_cases hctx : ptr.ctx = some ctx
    · have hsame : ptr.setCtx ctx = ptr := by
        rw [Session.setCtx, ← hctx]
      have hends : ptr.endsSearch ctx = true := by
        simp [Session.endsSearch, hctx]
      rw [if_pos hctx, if_pos hends]
      simp [hsame]
    · rw [if_neg hctx]
      have hends : ptr.endsSearch ctx = ptr.isFree := by
        simp [Session.endsSearch, hctx]
      rw [hends]
      cases hfree : ptr.isFree with
      | true => rfl
      | false =>
        rw [if_neg Bool.false_ne_true, if_neg Bool.false_ne_true, ih]
        cases rest.findIdx? (·.endsSearch ctx) <;> rfl

end Tcp

end Zperf
end ZephyrSamples
