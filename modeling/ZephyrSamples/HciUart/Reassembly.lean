import ZephyrSamples.HciUart.Isr

/-!
# Reassembly of H:4 packets

The interrupt handler against the one-shot reading of the stream: whatever the reads return, the
handler stands within the packet of which not all bytes are read, and has queued the packets before
it for which there was a buffer with enough room.
-/

namespace ZephyrSamples
namespace HciUart

/-- A packet with a payload of the length its header states. -/
structure Packet where
  type : H4Type
  header : List UInt8
  payload : List UInt8
  header_length : header.length = type.hdrSize
  payload_length : payload.length = type.hdrLen header

namespace Packet

def encode (pk : Packet) : List UInt8 := pk.type.byte :: (pk.header ++ pk.payload)

theorem encode_length (pk : Packet) :
    pk.encode.length = 1 + pk.header.length + pk.payload.length := by
  rw [encode, List.length_cons, List.length_append]
  omega

/-- There is a buffer for the packet, and room in it. -/
def Accepted (p : Pools) (pk : Packet) (alloc : Bool) : Prop :=
  alloc = true ∧ pk.header.length + pk.payload.length ≤ p.bufSize pk.type

instance (p : Pools) (pk : Packet) (alloc : Bool) : Decidable (pk.Accepted p alloc) :=
  inferInstanceAs (Decidable (_ ∧ _))

/-- The buffer the packet is queued in. -/
def netBuf (p : Pools) (pk : Packet) : NetBuf :=
  { type := pk.type, size := p.bufSize pk.type, data := pk.header ++ pk.payload }

end Packet

/-- A packet with the outcome of the allocation made for it. -/
abbrev Sent := Packet × Bool

/-- The bytes of a sequence of packets. -/
def stream (packets : List Sent) : List UInt8 := packets.flatMap fun sent => sent.1.encode

/-- The buffers to be queued for a sequence of packets. -/
def delivered (p : Pools) (packets : List Sent) : List NetBuf :=
  packets.filterMap fun sent =>
    if sent.1.Accepted p sent.2 then some (sent.1.netBuf p) else none

/-- Before the first interrupt. -/
def start (packets : List Sent) : Hci :=
  { wire := stream packets, allocs := packets.map Prod.snd }

theorem stream_cons (sent : Sent) (rest : List Sent) :
    stream (sent :: rest) = sent.1.encode ++ stream rest := rfl

theorem stream_append (done rest : List Sent) :
    stream (done ++ rest) = stream done ++ stream rest :=
  List.flatMap_append

theorem delivered_append (p : Pools) (done rest : List Sent) :
    delivered p (done ++ rest) = delivered p done ++ delivered p rest :=
  List.filterMap_append

theorem eq_nil_of_stream_eq_nil {packets : List Sent} (h : stream packets = []) : packets = [] := by
  cases packets with
  | nil => rfl
  | cons sent packets => exact absurd h (List.cons_ne_nil _ _)

/-! ## Where the handler stands -/

/-- The bytes of the packets read so far are all read. -/
structure AtBoundary (rest : List Sent) (s : Hci) : Prop where
  wire : s.wire = stream rest
  buf : s.buf = none
  remaining : s.remaining = 0
  allocs : s.allocs = rest.map Prod.snd

/-- The header of the packet is read, and its payload but for `left`. -/
structure Receiving (p : Pools) (sent : Sent) (rest : List Sent) (left : List UInt8) (s : Hci) :
    Prop where
  wire : s.wire = left ++ stream rest
  remaining : s.remaining = left.length
  allocs : s.allocs = rest.map Prod.snd
  buf : ∃ read, sent.1.payload = read ++ left ∧
    s.buf = if sent.1.Accepted p sent.2 then
        some { type := sent.1.type, size := p.bufSize sent.1.type, data := sent.1.header ++ read }
      else none

variable {p : Pools} {sent : Sent} {rest : List Sent} {left : List UInt8} {s : Hci}

theorem delivered_singleton (p : Pools) (sent : Sent) : delivered p [sent] =
    if sent.1.Accepted p sent.2 then [sent.1.netBuf p] else [] := by
  unfold delivered
  rw [List.filterMap_cons]
  split <;> simp_all

/-- What reading `n` more bytes of a payload comes to: the boundary, with the packet queued if it is
accepted, or a place within the payload. -/
def ReadsOn (p : Pools) (sent : Sent) (rest : List Sent) (left : List UInt8) (n : Nat)
    (s s' : Hci) : Prop :=
  s'.wire = left.drop n ++ stream rest ∧
    if left.drop n = [] then AtBoundary rest s' ∧ s'.txQueue = s.txQueue ++ delivered p [sent]
    else Receiving p sent rest (left.drop n) s' ∧ s'.txQueue = s.txQueue

theorem take_wire (h : Receiving p sent rest left s) {n : Nat} (hn : n ≤ left.length) :
    s.wire.take n = left.take n ∧ s.wire.drop n = left.drop n ++ stream rest ∧
      (left.take n).length = n := by
  rw [h.wire, List.take_append_of_le_length hn, List.drop_append_of_le_length hn, List.length_take,
    Nat.min_eq_left hn]
  exact ⟨rfl, rfl, rfl⟩

theorem receivePayload_of_discard (h : Receiving p sent rest left s)
    (hrefused : ¬sent.1.Accepted p sent.2) (counts : List Nat) :
    ∃ n s', s.receivePayload counts = some s' ∧ (counts = [] → left ≠ [] → 0 < n) ∧
      ReadsOn p sent rest left n s s' := by
  obtain ⟨read, hpayload, hbuf⟩ := h.buf
  rw [if_neg hrefused] at hbuf
  obtain ⟨n, counts', hread, hn, -, hall⟩ :=
    h4Discard_some { wire := s.wire, counts := counts } s.remaining
  rw [h.remaining] at hn
  obtain ⟨htake, hdrop, hlength⟩ := take_wire h hn
  refine ⟨n, { s with wire := left.drop n ++ stream rest, remaining := left.length - n }, ?_, ?_,
    rfl, ?_⟩
  · unfold Hci.receivePayload
    rw [hbuf]
    dsimp only
    rw [hread]
    dsimp only
    rw [htake, hdrop, hlength, h.remaining]
  · intro hcounts hleft
    have hpos := List.length_pos_iff.mpr hleft
    have hn := hall hcounts
    rw [h.remaining, h.wire, List.length_append] at hn
    have : 0 < h4DiscardLen := by decide
    omega
  · split
    case isTrue hdone =>
      refine ⟨⟨by rw [hdone]; rfl, hbuf, ?_, h.allocs⟩, ?_⟩
      · rw [← List.length_drop, hdone]
        rfl
      · rw [delivered_singleton, if_neg hrefused, List.append_nil]
    case isFalse =>
      refine ⟨⟨rfl, List.length_drop.symm, h.allocs, read ++ left.take n, ?_, ?_⟩, rfl⟩
      · rw [List.append_assoc, List.take_append_drop, hpayload]
      · rw [if_neg hrefused]
        exact hbuf

theorem receivePayload_of_accepted (h : Receiving p sent rest left s)
    (haccepted : sent.1.Accepted p sent.2) (counts : List Nat) :
    ∃ n s', s.receivePayload counts = some s' ∧ (counts = [] → left ≠ [] → 0 < n) ∧
      ReadsOn p sent rest left n s s' := by
  obtain ⟨read, hpayload, hbuf⟩ := h.buf
  rw [if_pos haccepted] at hbuf
  obtain ⟨n, counts', hread, hn, -, hall⟩ :=
    h4Read_some { wire := s.wire, counts := counts } s.remaining
  rw [h.remaining] at hn
  obtain ⟨htake, hdrop, hlength⟩ := take_wire h hn
  have hpos : counts = [] → left ≠ [] → 0 < n := by
    intro hcounts hleft
    have hpos := List.length_pos_iff.mpr hleft
    have hn := (hall hcounts).1
    rw [h.remaining, h.wire, List.length_append] at hn
    omega
  have hdata : sent.1.header ++ read ++ left.take n = sent.1.header ++ (read ++ left.take n) :=
    List.append_assoc _ _ _
  unfold Hci.receivePayload
  rw [hbuf]
  dsimp only
  rw [hread]
  dsimp only
  rw [htake, hdrop, hlength, h.remaining, hdata]
  by_cases hdone : left.drop n = []
  · have hzero : left.length - n = 0 := by
      rw [← List.length_drop, hdone]
      rfl
    have hwhole : read ++ left.take n = sent.1.payload := by
      rw [hpayload, List.take_of_length_le (by omega)]
    refine ⟨n, _, if_pos hzero, hpos, rfl, ?_⟩
    rw [if_pos hdone]
    refine ⟨⟨by rw [hdone]; rfl, rfl, hzero, h.allocs⟩, ?_⟩
    rw [delivered_singleton, if_pos haccepted, hwhole]
    rfl
  · have hne : left.length - n ≠ 0 := by
      rw [← List.length_drop]
      exact fun hzero => hdone (List.length_eq_zero_iff.mp hzero)
    refine ⟨n, _, if_neg hne, hpos, rfl, ?_⟩
    rw [if_neg hdone]
    refine ⟨⟨rfl, List.length_drop.symm, h.allocs, read ++ left.take n, ?_, ?_⟩, rfl⟩
    · rw [List.append_assoc, List.take_append_drop, hpayload]
    · rw [if_pos haccepted]

theorem receivePayload_spec (h : Receiving p sent rest left s) (counts : List Nat) :
    ∃ n s', s.receivePayload counts = some s' ∧ (counts = [] → left ≠ [] → 0 < n) ∧
      ReadsOn p sent rest left n s s' := by
  by_cases haccepted : sent.1.Accepted p sent.2
  · exact receivePayload_of_accepted h haccepted counts
  · exact receivePayload_of_discard h haccepted counts

/-- A pool's buffers have room for the header of their packets. -/
theorem Pools.hdrSize_le (p : Pools) (type : H4Type) : type.hdrSize ≤ p.bufSize type := by
  cases type
  · exact p.cmd_hdr
  · exact p.acl_hdr

/-- The state after the header of a packet. -/
def afterHeader (p : Pools) (sent : Sent) (rest : List Sent) (s : Hci) : Hci :=
  { s with
    buf :=
      if sent.2 then
        some { type := sent.1.type, size := p.bufSize sent.1.type, data := sent.1.header }
      else none
    remaining := sent.1.payload.length
    wire := sent.1.payload ++ stream rest
    allocs := rest.map Prod.snd }

/-- The header is read whole, however many reads that takes. -/
theorem h4Recv_eq (p : Pools) (sent : Sent) (rest : List Sent) {s : Hci}
    (hwire : s.wire = sent.1.header ++ sent.1.payload ++ stream rest)
    (hallocs : s.allocs = (sent :: rest).map Prod.snd) (counts : List Nat) :
    ∃ counts', s.h4Recv p sent.1.type counts = some (counts', afterHeader p sent rest s) ∧
      (counts = [] → counts' = []) := by
  have henough : sent.1.type.hdrSize ≤ s.wire.length := by
    rw [hwire, List.length_append, List.length_append, sent.1.header_length]
    omega
  obtain ⟨counts', hread, hcounts⟩ :=
    @h4Read_all { wire := s.wire, counts := counts } sent.1.type.hdrSize henough
  dsimp only at hread hcounts
  rw [hwire, ← sent.1.header_length, List.append_assoc, List.take_left, List.drop_left] at hread
  refine ⟨counts', ?_, hcounts⟩
  unfold Hci.h4Recv afterHeader
  rw [hwire, List.append_assoc, ← sent.1.header_length, hread, sent.1.payload_length, hallocs]
  rfl

/-- A buffer is kept if the payload fits behind the header. -/
theorem checkTailroom_afterHeader (p : Pools) (sent : Sent) (rest : List Sent) (s : Hci) :
    Receiving p sent rest sent.1.payload (afterHeader p sent rest s).checkTailroom ∧
      (afterHeader p sent rest s).checkTailroom.txQueue = s.txQueue := by
  have hroom : sent.1.header.length ≤ p.bufSize sent.1.type := by
    rw [sent.1.header_length]
    exact p.hdrSize_le sent.1.type
  obtain ⟨pk, alloc⟩ := sent
  cases alloc with
  | false =>
    have hrefused : ¬pk.Accepted p false := fun h => absurd h.1 nofun
    exact ⟨⟨rfl, rfl, rfl, [], rfl, (if_neg hrefused).symm⟩, rfl⟩
  | true =>
    by_cases hfits : pk.header.length + pk.payload.length ≤ p.bufSize pk.type
    · have hcheck : (afterHeader p (pk, true) rest s).checkTailroom =
          afterHeader p (pk, true) rest s :=
        if_neg (by show ¬pk.payload.length > p.bufSize pk.type - pk.header.length; omega)
      rw [hcheck]
      refine ⟨⟨rfl, rfl, rfl, [], rfl, ?_⟩, rfl⟩
      rw [if_pos ⟨rfl, hfits⟩, List.append_nil]
      rfl
    · have hcheck : (afterHeader p (pk, true) rest s).checkTailroom =
          { afterHeader p (pk, true) rest s with buf := none } :=
        if_pos (by
          show pk.payload.length > p.bufSize pk.type - pk.header.length
          dsimp only at hroom
          omega)
      rw [hcheck]
      exact ⟨⟨rfl, rfl, rfl, [], rfl, (if_neg fun h => hfits h.2).symm⟩, rfl⟩

/-- At a boundary the handler finds nothing to read, or the type byte of the next packet. -/
theorem beginPacket_spec (p : Pools) {rest : List Sent} {s : Hci} (h : AtBoundary rest s)
    (counts : List Nat) :
    (s.beginPacket p counts = some (.again s) ∧ (counts = [] → rest = [])) ∨
      ∃ sent rest' counts' s', rest = sent :: rest' ∧
        s.beginPacket p counts = some (.packet counts' s') ∧
        Receiving p sent rest' sent.1.payload s' ∧ s'.txQueue = s.txQueue ∧
        (counts = [] → counts' = []) := by
  obtain ⟨n, counts₁, hread, hn, hwire, hall⟩ := h4Read_some { wire := s.wire, counts := counts } 1
  dsimp only at hread hwire hall
  unfold Hci.beginPacket
  rw [hread]
  cases n with
  | zero =>
    refine Or.inl ⟨rfl, fun hcounts => ?_⟩
    have hempty : s.wire.length = 0 := by
      have := (hall hcounts).1
      omega
    rw [h.wire, List.length_eq_zero_iff] at hempty
    exact eq_nil_of_stream_eq_nil hempty
  | succ n =>
    have hn0 : n = 0 := by omega
    subst hn0
    cases rest with
    | nil =>
      rw [h.wire] at hwire
      exact absurd hwire (Nat.not_succ_le_zero 0)
    | cons sent rest =>
      right
      have hcons : s.wire =
          sent.1.type.byte :: (sent.1.header ++ sent.1.payload ++ stream rest) := h.wire
      obtain ⟨counts', hrecv, hcounts⟩ :=
        @h4Recv_eq p sent rest
          { s with wire := sent.1.header ++ sent.1.payload ++ stream rest } rfl h.allocs counts₁
      obtain ⟨hreceiving, hqueue⟩ := checkTailroom_afterHeader p sent rest
        { s with wire := sent.1.header ++ sent.1.payload ++ stream rest }
      refine ⟨sent, rest, counts', _, rfl, ?_, hreceiving, hqueue,
        fun h => hcounts (hall h).2⟩
      rw [hcons]
      show (if sent.1.type.byte = H4Type.cmd.byte then Option.map _ (Hci.h4Recv p .cmd counts₁ _)
        else if sent.1.type.byte = H4Type.acl.byte then
          Option.map _ (Hci.h4Recv p .acl counts₁ _)
        else some _) = _
      cases htype : sent.1.type with
      | cmd =>
        rw [htype] at hrecv
        rw [if_pos rfl]
        exact congrArg (Option.map _) hrecv
      | acl =>
        rw [htype] at hrecv
        rw [if_neg (by decide), if_pos rfl]
        exact congrArg (Option.map _) hrecv

/-! ## Whole runs -/

/-- The handler has queued what is accepted of the packets it has read, and stands behind them or
within the packet that follows. -/
inductive Tracks (p : Pools) (packets : List Sent) (s : Hci) : Prop where
  | boundary (done rest : List Sent) (hsplit : packets = done ++ rest)
      (hqueue : s.txQueue = delivered p done) (h : AtBoundary rest s)
  | within (done : List Sent) (sent : Sent) (rest : List Sent) (left : List UInt8)
      (hsplit : packets = done ++ sent :: rest) (hqueue : s.txQueue = delivered p done)
      (hleft : left ≠ []) (h : Receiving p sent rest left s)

variable {packets : List Sent}

theorem tracks_start (p : Pools) (packets : List Sent) : Tracks p packets (start packets) :=
  .boundary [] packets rfl rfl ⟨rfl, rfl, rfl, rfl⟩

theorem Tracks.of_readsOn {done : List Sent} {n : Nat} {s' : Hci}
    (hsplit : packets = done ++ sent :: rest) (hqueue : s.txQueue = delivered p done)
    (h : ReadsOn p sent rest left n s s') : Tracks p packets s' := by
  obtain ⟨-, h⟩ := h
  by_cases hdone : left.drop n = []
  · rw [if_pos hdone] at h
    refine .boundary (done ++ [sent]) rest ?_ ?_ h.1
    · rw [hsplit, List.append_assoc]
      rfl
    · rw [h.2, hqueue, delivered_append]
  · rw [if_neg hdone] at h
    exact .within done sent rest _ hsplit (h.2.trans hqueue) hdone h.1

/-- One turn of the loop keeps track, and when the reads return all that is there it leaves fewer
bytes to read. -/
theorem Tracks.turn (h : Tracks p packets s) (turn : Hci.Turn) (hready : turn.rxReady = true) :
    ∃ s', (∀ turns, s.btUartIsr p (turn :: turns) = s'.btUartIsr p turns) ∧
      Tracks p packets s' ∧ (turn.counts = [] → s'.wire.length ≤ s.wire.length - 1) := by
  have hready' : ¬turn.rxReady = false := by rw [hready]; decide
  cases h with
  | boundary done rest hsplit hqueue h =>
    have hzero : ¬s.remaining ≠ 0 := not_not_intro h.remaining
    rcases beginPacket_spec p h turn.counts with
      ⟨hbegin, hrest⟩ | ⟨sent, rest', counts', s₁, rfl, hbegin, hreceiving, hqueue₁, -⟩
    · refine ⟨s, fun turns => ?_, .boundary done rest hsplit hqueue h, fun hcounts => ?_⟩
      · rw [Hci.btUartIsr, if_neg hready', if_neg hzero, hbegin]
      · rw [h.wire, hrest hcounts]
        exact Nat.le_refl 0
    · obtain ⟨n, s', hpayload, -, hreads⟩ := receivePayload_spec hreceiving counts'
      refine ⟨s', fun turns => ?_, .of_readsOn hsplit (hqueue₁.trans hqueue) hreads,
        fun _ => ?_⟩
      · rw [Hci.btUartIsr, if_neg hready', if_neg hzero, hbegin]
        dsimp only
        rw [hpayload, Option.bind_some]
      · rw [hreads.1, h.wire, stream_cons, List.length_append, List.length_append,
          List.length_drop, Packet.encode_length]
        omega
  | within done sent rest left hsplit hqueue hleft h =>
    have hpos := List.length_pos_iff.mpr hleft
    have hremaining : s.remaining ≠ 0 := by
      rw [h.remaining]
      omega
    obtain ⟨n, s', hpayload, hprogress, hreads⟩ := receivePayload_spec h turn.counts
    refine ⟨s', fun turns => ?_, .of_readsOn hsplit hqueue hreads, fun hcounts => ?_⟩
    · rw [Hci.btUartIsr, if_neg hready', if_pos hremaining, hpayload, Option.bind_some]
    · have hn := hprogress hcounts hleft
      rw [hreads.1, h.wire, List.length_append, List.length_append, List.length_drop]
      omega

theorem Tracks.btUartIsr (h : Tracks p packets s) (turns : List Hci.Turn) :
    ∃ s', s.btUartIsr p turns = some s' ∧ Tracks p packets s' := by
  induction turns generalizing s with
  | nil => exact ⟨s, rfl, h⟩
  | cons turn turns ih =>
    by_cases hready : turn.rxReady = true
    · obtain ⟨s₁, hstep, h₁, -⟩ := h.turn turn hready
      rw [hstep]
      exact ih h₁
    · refine ⟨s, ?_, h⟩
      rw [Hci.btUartIsr, if_pos (Bool.eq_false_iff.mpr hready)]

theorem Tracks.foldlM (h : Tracks p packets s) (irqs : List (List Hci.Turn)) :
    ∃ s', irqs.foldlM (Hci.btUartIsr p) s = some s' ∧ Tracks p packets s' := by
  induction irqs generalizing s with
  | nil => exact ⟨s, rfl, h⟩
  | cons turns irqs ih =>
    obtain ⟨s₁, hisr, h₁⟩ := h.btUartIsr turns
    rw [List.foldlM_cons, hisr]
    exact ih h₁

/-- An interrupt with enough turns, in which all reads return what is there, reads everything. -/
theorem Tracks.drain (h : Tracks p packets s) {n : Nat} (hn : s.wire.length ≤ n) :
    ∃ s', s.btUartIsr p (List.replicate n {}) = some s' ∧ s'.wire = [] ∧ Tracks p packets s' := by
  induction n generalizing s with
  | zero => exact ⟨s, rfl, List.length_eq_zero_iff.mp (Nat.le_zero.mp hn), h⟩
  | succ n ih =>
    obtain ⟨s₁, hstep, h₁, hprogress⟩ := h.turn {} rfl
    rw [List.replicate_succ, hstep]
    exact ih h₁ (by have := hprogress rfl; omega)

theorem Receiving.left_length_le (h : Receiving p sent rest left s) :
    left.length ≤ sent.1.payload.length := by
  obtain ⟨read, hpayload, -⟩ := h.buf
  rw [hpayload, List.length_append]
  omega

theorem Tracks.position (h : Tracks p packets s) :
    ∃ done rest, packets = done ++ rest ∧ s.txQueue = delivered p done ∧ s.wire <:+ stream rest ∧
      ∀ sent rest', rest = sent :: rest' → (stream rest').length < s.wire.length := by
  cases h with
  | boundary done rest hsplit hqueue h =>
    refine ⟨done, rest, hsplit, hqueue, h.wire ▸ List.suffix_rfl, ?_⟩
    rintro sent rest' rfl
    rw [h.wire, stream_cons, List.length_append, Packet.encode_length]
    omega
  | within done sent rest left hsplit hqueue hleft h =>
    obtain ⟨read, hpayload, -⟩ := h.buf
    refine ⟨done, sent :: rest, hsplit, hqueue, ?_, ?_⟩
    · refine ⟨sent.1.type.byte :: (sent.1.header ++ read), ?_⟩
      rw [h.wire, stream_cons, Packet.encode, hpayload]
      simp
    · intro sent' rest' hcons
      obtain ⟨-, rfl⟩ := List.cons.inj hcons
      rw [h.wire, List.length_append]
      have := List.length_pos_iff.mpr hleft
      omega

/-- Where the bytes of whole packets are read, the handler stands at their boundary. -/
theorem Tracks.at_boundary (h : Tracks p packets s) {done rest : List Sent}
    (hsplit : packets = done ++ rest) (hwire : s.wire = stream rest) :
    s.txQueue = delivered p done ∧ s.buf = none ∧ s.remaining = 0 := by
  have hlength := congrArg List.length hwire
  cases h with
  | boundary done₀ rest₀ hsplit₀ hqueue h =>
    rw [h.wire] at hlength
    rcases List.append_eq_append_iff.mp (hsplit₀.symm.trans hsplit) with
      ⟨mid, rfl, rfl⟩ | ⟨mid, rfl, rfl⟩
    · rw [stream_append, List.length_append] at hlength
      obtain rfl : mid = [] :=
        eq_nil_of_stream_eq_nil (List.length_eq_zero_iff.mp (by omega))
      rw [List.append_nil]
      exact ⟨hqueue, h.buf, h.remaining⟩
    · rw [stream_append, List.length_append] at hlength
      obtain rfl : mid = [] :=
        eq_nil_of_stream_eq_nil (List.length_eq_zero_iff.mp (by omega))
      rw [List.append_nil] at hqueue
      exact ⟨hqueue, h.buf, h.remaining⟩
  | within done₀ sent rest₀ left hsplit₀ hqueue hleft h =>
    -- within a packet there are more bytes than those of the packets behind it, and fewer than
    -- those of the packets from it on
    have hpos := List.length_pos_iff.mpr hleft
    have hshort := h.left_length_le
    rw [h.wire, List.length_append] at hlength
    exfalso
    rcases List.append_eq_append_iff.mp (hsplit₀.symm.trans hsplit) with
      ⟨mid, rfl, hmid⟩ | ⟨mid, rfl, rfl⟩
    · cases mid with
      | nil =>
        rw [← show _ = rest from hmid, stream_cons, List.length_append, Packet.encode_length]
          at hlength
        omega
      | cons first mid =>
        have hrest : rest₀ = mid ++ rest := (List.cons.inj hmid).2
        rw [hrest, stream_append, List.length_append] at hlength
        omega
    · rw [stream_append, stream_cons, List.length_append, List.length_append,
        Packet.encode_length] at hlength
      omega

/-- Any number of interrupts, with any reads, on the bytes of any packets: every interrupt returns;
the buffers queued are those of the accepted packets among those read to their end; behind a whole
packet `buf` and `remaining` are back to `NULL` and 0; and once the reads return what is there, an
interrupt queues all that is to be queued. -/
theorem btUartIsr_reassembles (p : Pools) (packets : List Sent) (irqs : List (List Hci.Turn)) :
    ∃ s, irqs.foldlM (Hci.btUartIsr p) (start packets) = some s ∧
      (∃ done rest, packets = done ++ rest ∧ s.txQueue = delivered p done ∧
        s.wire <:+ stream rest ∧
        ∀ sent rest', rest = sent :: rest' → (stream rest').length < s.wire.length) ∧
      (∀ done rest, packets = done ++ rest → s.wire = stream rest →
        s.txQueue = delivered p done ∧ s.buf = none ∧ s.remaining = 0) ∧
      ∀ n, s.wire.length ≤ n → ∃ s', s.btUartIsr p (List.replicate n {}) = some s' ∧
        s'.wire = [] ∧ s'.txQueue = delivered p packets ∧ s'.buf = none ∧ s'.remaining = 0 := by
  obtain ⟨s, hrun, hs⟩ := (tracks_start p packets).foldlM irqs
  refine ⟨s, hrun, hs.position, fun done rest => hs.at_boundary, fun n hn => ?_⟩
  obtain ⟨s', hdrain, hwire, hs'⟩ := hs.drain hn
  exact ⟨s', hdrain, hwire, hs'.at_boundary (List.append_nil packets).symm hwire⟩

/-- A Reset command whose header comes in two reads, and ACL data for which there is no buffer,
discarded over two interrupts. -/
example :
    let reset : Packet := ⟨.cmd, [0x03, 0x0C, 0x00], [], rfl, rfl⟩
    let data : Packet := ⟨.acl, [0x40, 0x00, 0x02, 0x00], [0x11, 0x22], rfl, rfl⟩
    ([[⟨true, [1, 2, 0, 1]⟩, ⟨true, [1, 4, 1]⟩], [⟨true, [0]⟩, ⟨true, [1]⟩]].foldlM
        (Hci.btUartIsr ⟨16, 16, by decide, by decide⟩) (start [(reset, true), (data, false)])).map
          (fun s => (s.txQueue, s.buf, s.remaining, s.wire)) =
      some ([⟨.cmd, 16, [0x03, 0x0C, 0x00]⟩], none, 0, []) := by decide

end HciUart
end ZephyrSamples
