import Mathlib.Algebra.Order.BigOperators.Group.List
import Mathlib.Algebra.GroupWithZero.Nat
import Mathlib.Algebra.Order.Group.Nat
import ZephyrSamples.Lib.NetBuf

/-!
# Requests of the host

`wpanusb_vendor_handler` writes a request into the buffers of a packet, its `bRequest` and for `TX`
the sequence number before its data, and `tx_thread` takes it from the last of them.  A request is
executed on its own bytes exactly when its packet has one buffer and the data is as long as the
structure that the command lays over it.
-/

namespace ZephyrSamples
namespace Wpanusb

open NetBuf

/-- `enum wpanusb_requests` -/
inductive Command where
  | reset
  | tx
  | xmitAsync
  | ed
  | setChannel
  | start
  | stop
  | setShortAddr
  | setPanId
  | setIeeeAddr
  | setTxpower
  | setCcaMode
  | setCcaEdLevel
  | setCsmaParams
  | setPromiscuousMode
  deriving DecidableEq, Repr

def Command.ofByte (b : UInt8) : Option Command :=
  [.reset, .tx, .xmitAsync, .ed, .setChannel, .start, .stop, .setShortAddr, .setPanId,
    .setIeeeAddr, .setTxpower, .setCcaMode, .setCcaEdLevel, .setCsmaParams,
    .setPromiscuousMode][b.toNat]?

/-- What the handler uses of `struct usb_setup_packet`, and the data. -/
structure Request where
  bRequest : UInt8
  wIndex : UInt16
  data : List UInt8
  deriving DecidableEq, Repr

def Request.command (req : Request) : Option Command := Command.ofByte req.bRequest

/-! ## Packets -/

/-- A buffer of a packet: its size and what has been written to it. -/
structure Frag where
  size : BitVec 16
  bytes : List UInt8
  deriving DecidableEq, Repr

/-- The buffers that `net_pkt_alloc_with_buffer` gives for `n` bytes. -/
def Allocates (sizes : List (BitVec 16)) (n : Nat) : Prop :=
  (∀ size ∈ sizes, 0 < size.toNat) ∧ n ≤ (sizes.map BitVec.toNat).sum

instance (sizes : List (BitVec 16)) (n : Nat) : Decidable (Allocates sizes n) :=
  have : Decidable (∀ size ∈ sizes, 0 < size.toNat) := List.decidableBAll _ _
  inferInstanceAs (Decidable (_ ∧ _))

/-- `net_pkt_write`: on from the last byte written, and from buffer to buffer. -/
def netPktWrite : List Frag → List UInt8 → List Frag
  | [], _ => []
  | frag :: frags, data =>
    let room := frag.size.toNat - frag.bytes.length
    { frag with bytes := frag.bytes ++ data.take room } :: netPktWrite frags (data.drop room)

/-- The packet that `wpanusb_vendor_handler` queues. -/
def fillPkt (sizes : List (BitVec 16)) (req : Request) : List Frag :=
  let frags := netPktWrite (sizes.map fun size => ⟨size, []⟩) [req.bRequest]
  let frags :=
    if req.command = some .tx then netPktWrite frags [req.wIndex.toUInt8] else frags
  netPktWrite frags req.data

/-- All that a packet says of its request. -/
def content (req : Request) : List UInt8 :=
  req.bRequest :: ((if req.command = some .tx then [req.wIndex.toUInt8] else []) ++ req.data)

/-! ## Commands -/

/-- The calls of `radio_api`, and the `seq` that `usb_transfer_sync` sends. -/
inductive Action where
  | start
  | stop
  | setChannel (channel : UInt8)
  | filterIeeeAddr (addr : List UInt8)
  | filterShortAddr (addr : Nat)
  | filterPanId (panId : Nat)
  | tx (frag : List UInt8)
  | report (seq : UInt8)
  deriving DecidableEq, Repr

/-- What a handler does, how many bytes it reads from `data` on, and what it returns. -/
structure Handled where
  actions : List Action
  read : Nat
  ret : Int

/-- What is behind the buffer in the memory, and what the radio and the transfer return; `txRet i`
is for the `i`th try of `tx`. -/
structure Env where
  behind : Nat → UInt8
  radioRet : Int
  txRet : Nat → Int
  usbRet : Int

/-- A field of two bytes. -/
def u16 (buf : NetBuf) : Nat := (buf.mem buf.data).toNat + 256 * (buf.mem (buf.data + 1)).toNat

/-- `struct set_channel` is `page` and `channel`; the page is logged. -/
def setChannel (env : Env) (buf : NetBuf) : Handled :=
  { actions := [.setChannel (buf.mem (buf.data + 1))], read := 2, ret := env.radioRet }

/-- `set_ieee_addr`, `set_short_addr` and `set_pan_id` do something only for a radio with
`IEEE802154_HW_FILTER`: they set a filter from a field of `size` bytes. -/
def setFilter (hwFilter : Bool) (env : Env) (filter : Action) (size : Nat) : Handled :=
  if hwFilter then { actions := [filter], read := size, ret := env.radioRet }
  else { actions := [], read := 0, ret := 0 }

def setIeeeAddr (hwFilter : Bool) (env : Env) (buf : NetBuf) : Handled :=
  setFilter hwFilter env (.filterIeeeAddr (buf.message.read buf.data 8)) 8

def setShortAddr (hwFilter : Bool) (env : Env) (buf : NetBuf) : Handled :=
  setFilter hwFilter env (.filterShortAddr (u16 buf)) 2

def setPanId (hwFilter : Bool) (env : Env) (buf : NetBuf) : Handled :=
  setFilter hwFilter env (.filterPanId (u16 buf)) 2

def startRadio (env : Env) : Handled := { actions := [.start], read := 0, ret := env.radioRet }

def stopRadio (env : Env) : Handled := { actions := [.stop], read := 0, ret := env.radioRet }

/-- `do { ret = radio_api->tx(...); } while (ret && retries--);` with the number of tries. -/
def txLoop (txRet : Nat → Int) : Nat → Nat → Int × Nat
  | 0, i => (txRet i, i + 1)
  | retries + 1, i => if txRet i = 0 then (0, i + 1) else txLoop txRet retries (i + 1)

/-- `EINVAL` -/
def einval : Int := 22

def tx (env : Env) (buf : NetBuf) : Handled :=
  let (seq, buf) := buf.pullU8
  let (ret, tries) := txLoop env.txRet 3 0
  -- Send seq = 0 for unsuccessful send
  let seq := if ret = 0 then seq else 0
  { actions := List.replicate tries (.tx buf.bytes) ++ [.report seq]
    read := 0
    ret := if env.usbRet = 1 then 0 else -einval }

/-- The `switch` of `tx_thread`. -/
def handle (hwFilter : Bool) (env : Env) (cmd : UInt8) (buf : NetBuf) : Handled :=
  match Command.ofByte cmd with
  | some .tx => tx env buf
  | some .start => startRadio env
  | some .stop => stopRadio env
  | some .setChannel => setChannel env buf
  | some .setIeeeAddr => setIeeeAddr hwFilter env buf
  | some .setShortAddr => setShortAddr hwFilter env buf
  | some .setPanId => setPanId hwFilter env buf
  | _ => { actions := [], read := 0, ret := 0 }

/-- One pass of `tx_thread`: its command, the buffer it hands on, and what is done. -/
structure Execution where
  env : Env
  cmd : UInt8
  buf : NetBuf
  handled : Handled

/-- `net_buf_frag_last` -/
def netBufFragLast (frags : List Frag) : List UInt8 := (frags.getLast?.map Frag.bytes).getD []

def execute (hwFilter : Bool) (env : Env) (frags : List Frag) : Execution :=
  let (cmd, buf) := (load env.behind (netBufFragLast frags)).pullU8
  { env := env, cmd := cmd, buf := buf, handled := handle hwFilter env cmd buf }

/-! ## What a request asks for -/

/-- The bytes that the structure of a command is laid over and that are read of it. -/
def needs (hwFilter : Bool) : Option Command → Nat
  | some .setChannel => 2
  | some .setIeeeAddr => if hwFilter then 8 else 0
  | some .setShortAddr => if hwFilter then 2 else 0
  | some .setPanId => if hwFilter then 2 else 0
  | _ => 0

/-- A little-endian number of two bytes. -/
def le16 (data : List UInt8) : Nat := (data.getD 0 0).toNat + 256 * (data.getD 1 0).toNat

/-- The calls for a command other than `TX`, from its data alone. -/
def asked (hwFilter : Bool) (command : Option Command) (data : List UInt8) : List Action :=
  match command with
  | some .start => [.start]
  | some .stop => [.stop]
  | some .setChannel => [.setChannel (data.getD 1 0)]
  | some .setIeeeAddr => if hwFilter then [.filterIeeeAddr (data.take 8)] else []
  | some .setShortAddr => if hwFilter then [.filterShortAddr (le16 data)] else []
  | some .setPanId => if hwFilter then [.filterPanId (le16 data)] else []
  | _ => []

/-- The command that is executed and what its handler is given are the bytes of the request, the
handler reads nothing behind them, and it does what the request asks for. -/
structure OnOwnBytes (hwFilter : Bool) (req : Request) (ex : Execution) : Prop where
  held : ex.buf.short = false
  own : ex.cmd :: ex.buf.bytes = content req
  inside : ex.handled.read ≤ req.data.length
  tx : req.command = some .tx → ∃ tries seq, 0 < tries ∧
    ex.handled.actions = List.replicate tries (.tx req.data) ++ [.report seq] ∧
    ((∃ i, i < 4 ∧ ex.env.txRet i = 0) → seq = UInt8.ofNat (req.wIndex.toNat % 256)) ∧
    ((∀ i, i < 4 → ex.env.txRet i ≠ 0) → seq = 0)
  others : req.command ≠ some .tx → ex.handled.actions = asked hwFilter req.command req.data

/-- One buffer, and as much data as the command needs. -/
def Fits (hwFilter : Bool) (req : Request) (frags : List Frag) : Prop :=
  frags.length = 1 ∧ needs hwFilter req.command ≤ req.data.length

instance (hwFilter : Bool) (req : Request) (frags : List Frag) :
    Decidable (Fits hwFilter req frags) :=
  inferInstanceAs (Decidable (_ ∧ _))

/-! ## What the packet holds -/

/-- How many bytes have been written. -/
def held (frags : List Frag) : Nat := (frags.map fun frag => frag.bytes.length).sum

variable {frags : List Frag} {frag : Frag} {data : List UInt8}

theorem held_netPktWrite_le (frags : List Frag) (data : List UInt8) :
    held (netPktWrite frags data) ≤ held frags + data.length := by
  induction frags generalizing data with
  | nil => exact Nat.zero_le _
  | cons frag frags ih =>
    have hrest := ih (data.drop (frag.size.toNat - frag.bytes.length))
    simp only [held, netPktWrite, List.map_cons, List.sum_cons, List.length_append,
      List.length_take, List.length_drop] at hrest ⊢
    omega

theorem length_netPktWrite (frags : List Frag) (data : List UInt8) :
    (netPktWrite frags data).length = frags.length := by
  induction frags generalizing data with
  | nil => rfl
  | cons frag frags ih => exact congrArg (· + 1) (ih _)

/-- No buffer holds more than its size. -/
def Within (frags : List Frag) : Prop := ∀ frag ∈ frags, frag.bytes.length ≤ frag.size.toNat

theorem Within.netPktWrite (h : Within frags) (data : List UInt8) :
    Within (netPktWrite frags data) := by
  induction frags generalizing data with
  | nil => exact h
  | cons frag frags ih =>
    obtain ⟨hfrag, hfrags⟩ := List.forall_mem_cons.mp h
    refine List.forall_mem_cons.mpr ⟨?_, ih hfrags _⟩
    simp only [List.length_append, List.length_take]
    omega

theorem netPktWrite_single (h : frag.bytes.length + data.length ≤ frag.size.toNat) :
    netPktWrite [frag] data = [{ frag with bytes := frag.bytes ++ data }] := by
  have hroom : data.length ≤ frag.size.toNat - frag.bytes.length := by omega
  simp only [netPktWrite, List.take_of_length_le hroom]

/-- What is in the first of several buffers is not in the last. -/
theorem length_netBufFragLast_lt (hfrag : frag.bytes ≠ []) (hfrags : frags ≠ []) :
    (netBufFragLast (frag :: frags)).length < held (frag :: frags) := by
  have hpos : 0 < frag.bytes.length := List.length_pos_iff.mpr hfrag
  have hlast : netBufFragLast (frag :: frags) = (frags.getLast hfrags).bytes := by
    rw [netBufFragLast, List.getLast?_cons, List.getLast?_eq_some_getLast hfrags]
    rfl
  have hle : (frags.getLast hfrags).bytes.length ≤ held frags :=
    List.le_sum_of_mem (List.mem_map_of_mem (List.getLast_mem hfrags))
  have hsum : held (frag :: frags) = frag.bytes.length + held frags := List.sum_cons
  rw [hlast]
  omega

theorem length_netBufFragLast (h : Within frags) : (netBufFragLast frags).length < 2 ^ 16 := by
  unfold netBufFragLast
  cases hlast : frags.getLast? with
  | none => exact Nat.two_pow_pos 16
  | some frag =>
    have hle : frag.bytes.length ≤ frag.size.toNat := h frag (List.mem_of_getLast? hlast)
    exact Nat.lt_of_le_of_lt hle frag.size.isLt

section Fill

variable {sizes : List (BitVec 16)} {req : Request}

theorem length_fillPkt (sizes : List (BitVec 16)) (req : Request) :
    (fillPkt sizes req).length = sizes.length := by
  unfold fillPkt
  split <;> simp only [length_netPktWrite, List.length_map]

theorem held_fillPkt_le (sizes : List (BitVec 16)) (req : Request) :
    held (fillPkt sizes req) ≤ (content req).length := by
  have hempty : held (sizes.map fun size => (⟨size, []⟩ : Frag)) = 0 := by
    induction sizes with
    | nil => rfl
    | cons size sizes ih => simpa [held] using ih
  have hfirst := held_netPktWrite_le (sizes.map fun size => (⟨size, []⟩ : Frag)) [req.bRequest]
  unfold fillPkt content
  split
  · have hseq := held_netPktWrite_le
      (netPktWrite (sizes.map fun size => ⟨size, []⟩) [req.bRequest]) [req.wIndex.toUInt8]
    have hdata := held_netPktWrite_le (netPktWrite
      (netPktWrite (sizes.map fun size => ⟨size, []⟩) [req.bRequest]) [req.wIndex.toUInt8]) req.data
    simp only [List.length_cons, List.length_append, List.length_nil] at hfirst hseq hdata ⊢
    omega
  · have hdata := held_netPktWrite_le
      (netPktWrite (sizes.map fun size => ⟨size, []⟩) [req.bRequest]) req.data
    simp only [List.length_cons, List.length_append, List.length_nil] at hfirst hdata ⊢
    omega

theorem within_fillPkt (sizes : List (BitVec 16)) (req : Request) : Within (fillPkt sizes req) := by
  have hempty : Within (sizes.map fun size => (⟨size, []⟩ : Frag)) := by
    intro frag hfrag
    obtain ⟨size, -, rfl⟩ := List.mem_map.mp hfrag
    exact Nat.zero_le _
  unfold fillPkt
  split
  · exact ((hempty.netPktWrite _).netPktWrite _).netPktWrite _
  · exact (hempty.netPktWrite _).netPktWrite _

theorem fillPkt_single {size : BitVec 16} (h : req.data.length + 2 ≤ size.toNat) :
    fillPkt [size] req = [⟨size, content req⟩] := by
  unfold fillPkt content
  have hfirst : netPktWrite [⟨size, []⟩] [req.bRequest] = [⟨size, [req.bRequest]⟩] :=
    netPktWrite_single (by simp only [List.length_cons, List.length_nil]; omega)
  rw [List.map_singleton, hfirst]
  dsimp only
  split
  · rw [netPktWrite_single (by simp only [List.length_cons, List.length_nil]; omega),
      netPktWrite_single
        (by simp only [List.length_cons, List.length_nil, List.length_append]; omega)]
    rfl
  · rw [netPktWrite_single (by simp only [List.length_cons, List.length_nil]; omega)]
    rfl

/-- The command is in the first buffer. -/
theorem fillPkt_cons {size : BitVec 16} (h : 0 < size.toNat) (sizes : List (BitVec 16))
    (req : Request) :
    ∃ frag frags, fillPkt (size :: sizes) req = frag :: frags ∧ frag.bytes ≠ [] := by
  have htake : [req.bRequest].take size.toNat = [req.bRequest] :=
    List.take_of_length_le h
  unfold fillPkt
  split
  · exact ⟨_, _, rfl, by simp [htake]⟩
  · exact ⟨_, _, rfl, by simp [htake]⟩

end Fill

/-! ## What the handlers do -/

section Handlers

variable {hwFilter : Bool} {env : Env} {buf : NetBuf} {req : Request}

theorem read_setFilter (filter : Action) (size : Nat) :
    (setFilter hwFilter env filter size).read = if hwFilter then size else 0 := by
  cases hwFilter <;> rfl

theorem read_handle (cmd : UInt8) :
    (handle hwFilter env cmd buf).read = needs hwFilter (Command.ofByte cmd) := by
  unfold handle needs
  generalize Command.ofByte cmd = command
  rcases command with - | command
  · rfl
  · cases command with
    | setIeeeAddr => exact read_setFilter _ 8
    | setShortAddr => exact read_setFilter _ 2
    | setPanId => exact read_setFilter _ 2
    | _ => rfl

theorem u16_eq_le16 (h : 2 ≤ buf.bytes.length) : u16 buf = le16 buf.bytes := by
  have hlow : buf.mem buf.data = buf.bytes.getD 0 0 := mem_data_add (i := 0) (by omega) 0
  rw [u16, le16, hlow, mem_data_add (by omega) 0]

theorem actions_filter {f f' : Action} {size : Nat}
    (hsize : (if hwFilter then size else 0) ≤ buf.bytes.length)
    (heq : size ≤ buf.bytes.length → f = f') :
    (setFilter hwFilter env f size).actions = if hwFilter then [f'] else [] := by
  cases hwFilter with
  | false => rfl
  | true => exact congrArg (fun filter => [filter]) (heq hsize)

/-- A command other than `TX` with a buffer that is long enough for it. -/
theorem actions_handle {cmd : UInt8} (hcommand : Command.ofByte cmd ≠ some .tx)
    (hneeds : needs hwFilter (Command.ofByte cmd) ≤ buf.bytes.length) :
    (handle hwFilter env cmd buf).actions = asked hwFilter (Command.ofByte cmd) buf.bytes := by
  unfold handle
  generalize Command.ofByte cmd = command at hneeds hcommand ⊢
  rcases command with - | command
  · rfl
  · cases command with
    | tx => exact absurd rfl hcommand
    | setChannel =>
      have hchannel : buf.mem (buf.data + 1) = buf.bytes.getD 1 0 := mem_data_add hneeds 0
      exact congrArg (fun channel => [Action.setChannel channel]) hchannel
    | setIeeeAddr => exact actions_filter hneeds fun h => congrArg _ (read_eq_take h)
    | setShortAddr => exact actions_filter hneeds fun h => congrArg _ (u16_eq_le16 h)
    | setPanId => exact actions_filter hneeds fun h => congrArg _ (u16_eq_le16 h)
    | _ => rfl

/-- The loop ends with the first try that succeeds, and has tried at least once. -/
theorem txLoop_spec (txRet : Nat → Int) (retries i : Nat) :
    i < (txLoop txRet retries i).2 ∧
      ((txLoop txRet retries i).1 = 0 ↔ ∃ j, i ≤ j ∧ j ≤ i + retries ∧ txRet j = 0) := by
  induction retries generalizing i with
  | zero =>
    refine ⟨Nat.lt_succ_self i, fun h => ⟨i, le_refl i, le_refl i, h⟩, ?_⟩
    rintro ⟨j, hij, hji, hj⟩
    obtain rfl : i = j := Nat.le_antisymm hij hji
    exact hj
  | succ retries ih =>
    rw [txLoop]
    split
    case isTrue h => exact ⟨Nat.lt_succ_self i, fun _ => ⟨i, le_refl i, by omega, h⟩, fun _ => rfl⟩
    case isFalse h =>
      obtain ⟨htries, hret⟩ := ih (i + 1)
      refine ⟨by omega, hret.trans ⟨?_, ?_⟩⟩
      · rintro ⟨j, hij, hji, hj⟩
        exact ⟨j, by omega, by omega, hj⟩
      · rintro ⟨j, hij, hji, hj⟩
        have hne : i ≠ j := fun h' => h (h' ▸ hj)
        exact ⟨j, by omega, by omega, hj⟩

theorem actions_tx {seq : UInt8} {data : List UInt8} (h : buf.bytes = seq :: data) :
    ∃ tries sent, 0 < tries ∧
      (tx env buf).actions = List.replicate tries (.tx data) ++ [.report sent] ∧
      ((∃ i, i < 4 ∧ env.txRet i = 0) → sent = seq) ∧
      ((∀ i, i < 4 → env.txRet i ≠ 0) → sent = 0) := by
  obtain ⟨htries, hret⟩ := txLoop_spec env.txRet 3 0
  refine ⟨_, if (txLoop env.txRet 3 0).1 = 0 then seq else 0, htries, ?_, ?_, ?_⟩
  · have hseq : buf.mem buf.data = seq := mem_data_of_bytes h
    have hrest : (buf.pull 1).bytes = data := bytes_pull_one h
    rw [← hseq, ← hrest]
    rfl
  · rintro ⟨i, hi, hsent⟩
    exact if_pos (hret.mpr ⟨i, Nat.zero_le i, by omega, hsent⟩)
  · intro hfails
    refine if_neg fun h => ?_
    obtain ⟨i, -, hi, hsent⟩ := hret.mp h
    exact hfails i (by omega) hsent

end Handlers

/-! ## Executions -/

section Execution

variable {hwFilter : Bool} {sizes : List (BitVec 16)} {req : Request}

theorem toUInt8_eq (x : UInt16) : x.toUInt8 = UInt8.ofNat (x.toNat % 256) := by
  apply UInt8.toNat_inj.mp
  simp

theorem length_content (req : Request) : (content req).length ≤ req.data.length + 2 := by
  unfold content
  split
  · simp only [List.length_cons, List.length_append, List.length_nil]
    omega
  · simp only [List.length_cons, List.length_append, List.length_nil]
    omega

/-- The first byte of the last buffer is the command, and its handler is given the others. -/
theorem execute_of_bytes (env : Env) {frags : List Frag} {cmd : UInt8} {rest : List UInt8}
    (hlast : netBufFragLast frags = cmd :: rest) (hlen : rest.length + 1 < 2 ^ 16) :
    ∃ buf, execute hwFilter env frags =
        { env := env, cmd := cmd, buf := buf, handled := handle hwFilter env cmd buf } ∧
      buf.bytes = rest ∧ buf.short = false := by
  have hbytes : (load env.behind (cmd :: rest)).bytes = cmd :: rest := bytes_load env.behind hlen
  have hcmd : (load env.behind (cmd :: rest)).pullU8.1 = cmd := mem_data_of_bytes hbytes
  refine ⟨(load env.behind (cmd :: rest)).pull 1, ?_, bytes_pull_one hbytes, short_pull_one hbytes⟩
  unfold execute
  rw [hlast]
  show Execution.mk env (load env.behind (cmd :: rest)).pullU8.1 _ (handle hwFilter env _ _) = _
  rw [hcmd]
  rfl

/-- A packet of one buffer is executed on the bytes of its request. -/
theorem own_of_single {size : BitVec 16} (env : Env) (h : req.data.length + 2 ≤ size.toNat)
    (hneeds : needs hwFilter req.command ≤ req.data.length) :
    OnOwnBytes hwFilter req (execute hwFilter env (fillPkt [size] req)) := by
  have hlast : netBufFragLast (fillPkt [size] req) = content req := by
    rw [fillPkt_single h]
    rfl
  have hlen := length_content req
  have hsize := size.isLt
  obtain ⟨buf, hex, hrest, hheld⟩ := execute_of_bytes env hlast (by
    rw [content, List.length_cons] at hlen
    omega)
  rw [hex]
  refine ⟨hheld, congrArg _ hrest, ?_, fun htx => ?_, fun hothers => ?_⟩
  · show (handle hwFilter env req.bRequest buf).read ≤ _
    rw [read_handle]
    exact hneeds
  · rw [if_pos htx] at hrest
    have hcommand : Command.ofByte req.bRequest = some .tx := htx
    have hhandle : handle hwFilter env req.bRequest buf = tx env buf := by
      simp only [handle, hcommand]
    show ∃ tries seq, _ ∧ (handle hwFilter env req.bRequest buf).actions = _ ∧ _
    rw [hhandle, ← toUInt8_eq]
    exact actions_tx hrest
  · rw [if_neg hothers] at hrest
    have hdata : buf.bytes = req.data := hrest
    show (handle hwFilter env req.bRequest buf).actions = asked hwFilter req.command req.data
    rw [← hdata]
    exact actions_handle hothers (by rw [hdata]; exact hneeds)

/-- What is executed as the request's is all that the packet says of it. -/
theorem netBufFragLast_of_own {env : Env} {frags : List Frag}
    (hlen : (netBufFragLast frags).length < 2 ^ 16)
    (h : OnOwnBytes hwFilter req (execute hwFilter env frags)) :
    netBufFragLast frags = content req := by
  have hbytes := bytes_load env.behind hlen
  have hheld : ((load env.behind (netBufFragLast frags)).pull 1).short = false := h.held
  have hne := (short_pull_one_iff.mp hheld).2
  have hpos : 0 < (load env.behind (netBufFragLast frags)).len.toNat := by
    rw [← length_bytes]
    exact List.length_pos_iff.mpr hne
  rw [← hbytes, bytes_eq_cons hpos]
  exact h.own

theorem execute_own_iff (env : Env) (h : Allocates sizes (req.data.length + 2)) :
    OnOwnBytes hwFilter req (execute hwFilter env (fillPkt sizes req)) ↔
      Fits hwFilter req (fillPkt sizes req) := by
  obtain ⟨hpos, hsum⟩ := h
  constructor
  · intro hown
    have hlast := netBufFragLast_of_own (length_netBufFragLast (within_fillPkt sizes req)) hown
    refine ⟨?_, ?_⟩
    · cases sizes with
      | nil => simp at hsum
      | cons size sizes =>
        obtain ⟨frag, frags, hfill, hfrag⟩ := fillPkt_cons (hpos size List.mem_cons_self) sizes req
        have hheld := held_fillPkt_le (size :: sizes) req
        rw [hfill] at hlast hheld ⊢
        by_contra hone
        have hfrags : frags ≠ [] := fun hnil => hone (by rw [hnil]; rfl)
        have hlt := length_netBufFragLast_lt hfrag hfrags
        rw [hlast] at hlt
        omega
    · have hcmd : (execute hwFilter env (fillPkt sizes req)).cmd = req.bRequest :=
        (List.cons.inj hown.own).1
      have hread : (handle hwFilter env (execute hwFilter env (fillPkt sizes req)).cmd
          (execute hwFilter env (fillPkt sizes req)).buf).read ≤ req.data.length := hown.inside
      rw [read_handle, hcmd] at hread
      exact hread
  · rintro ⟨hone, hneeds⟩
    rw [length_fillPkt] at hone
    obtain ⟨size, rfl⟩ := List.length_eq_one_iff.mp hone
    exact own_of_single env (by simpa using hsum) hneeds

end Execution

end Wpanusb
end ZephyrSamples
