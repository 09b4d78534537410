import ZephyrSamples.Zperf.UdpReceiver

/-!
# The statistics packet

What the receiver fills in at the end of a session, `build_reply` puts on the wire and the sender's
`zperf_upload_decode_stat` takes off it.  Of the length, the low word is a remainder by `0xFFFFFFFF`
where the high word is a shift by 32.
-/

namespace ZephyrSamples
namespace Zperf

/-- `struct zperf_results` -/
structure Results where
  nbPacketsSent : BitVec 32 := 0
  nbPacketsRcvd : BitVec 32 := 0
  nbPacketsLost : BitVec 32 := 0
  nbPacketsOutorder : BitVec 32 := 0
  nbBytesSent : BitVec 32 := 0
  timeInUs : BitVec 32 := 0
  jitterInUs : BitVec 32 := 0
  clientTimeInUs : BitVec 32 := 0
  packetSize : BitVec 32 := 0
  nbPacketsErrors : BitVec 32 := 0
  deriving DecidableEq

/-- The bytes of a word that is stored after `htonl`. -/
def htonl (x : BitVec 32) : List (BitVec 8) :=
  [x.extractLsb' 24 8, x.extractLsb' 16 8, x.extractLsb' 8 8, x.extractLsb' 0 8]

/-- `ntohl` of the word that is stored from `off` on. -/
def ntohl (bytes : List (BitVec 8)) (off : Nat) : BitVec 32 :=
  (bytes.getD off 0 ++ bytes.getD (off + 1) 0 ++ bytes.getD (off + 2) 0 ++
    bytes.getD (off + 3) 0 : BitVec (8 + 8 + 8 + 8))

def UdpDatagram.words (hdr : UdpDatagram) : List (BitVec 32) := [hdr.id, hdr.tvSec, hdr.tvUsec]

def ServerHdr.words (stat : ServerHdr) : List (BitVec 32) :=
  [stat.flags, stat.totalLen1, stat.totalLen2, stat.stopSec, stat.stopUsec, stat.errorCnt,
    stat.outorderCnt, stat.datagrams, stat.jitter1, stat.jitter2]

/-- The header as it came, in the byte order of the network, and the statistics. -/
def buildReply (hdr : UdpDatagram) (stat : ServerHdr) : List (BitVec 8) :=
  (hdr.words ++ stat.words).flatMap htonl

/-- `struct zperf_server_hdr` behind the first header of a packet, each field through `ntohl`. -/
def receivedStat (pkt : List (BitVec 8)) : ServerHdr where
  flags := ntohl pkt 12
  totalLen1 := ntohl pkt 16
  totalLen2 := ntohl pkt 20
  stopSec := ntohl pkt 24
  stopUsec := ntohl pkt 28
  errorCnt := ntohl pkt 32
  outorderCnt := ntohl pkt 36
  datagrams := ntohl pkt 40
  jitter1 := ntohl pkt 44
  jitter2 := ntohl pkt 48

def zperfUploadDecodeStat (pkt : List (BitVec 8)) (results : Results) : Results :=
  if pkt.length < 12 then results
  else if pkt.length - 12 < 40 then results
  else
    let stat := receivedStat pkt
    { results with
      nbPacketsRcvd := stat.datagrams
      nbPacketsLost := stat.errorCnt
      nbPacketsOutorder := stat.outorderCnt
      nbBytesSent := stat.totalLen2
      timeInUs := stat.stopUsec + stat.stopSec * usecPerSec
      jitterInUs := stat.jitter2 + stat.jitter1 * usecPerSec }

/-! ## The wire -/

/-- The bytes of a word, put together again. -/
theorem bytes_append_eq (x : BitVec 32) :
    (x.extractLsb' 24 8 ++ x.extractLsb' 16 8 ++ x.extractLsb' 8 8 ++ x.extractLsb' 0 8 :
      BitVec (8 + 8 + 8 + 8)) = x := by
  rw [BitVec.extractLsb'_append_extractLsb'_eq_extractLsb' (by decide),
    BitVec.extractLsb'_append_extractLsb'_eq_extractLsb' (by decide),
    BitVec.extractLsb'_append_extractLsb'_eq_extractLsb' (by decide)]
  exact BitVec.extractLsb'_eq_self

theorem ntohl_append (before bytes : List (BitVec 8)) (off : Nat) :
    ntohl (before ++ bytes) (before.length + off) = ntohl bytes off := by
  have hbyte (k : Nat) : (before ++ bytes).getD (before.length + k) 0 = bytes.getD k 0 := by
    rw [List.getD_eq_getElem?_getD, List.getD_eq_getElem?_getD,
      List.getElem?_append_right (Nat.le_add_right _ _), Nat.add_sub_cancel_left]
  simp only [ntohl, Nat.add_assoc, hbyte]

/-- A word is read from where it was written. -/
theorem ntohl_flatMap {words : List (BitVec 32)} {i : Nat} {x : BitVec 32}
    (h : words[i]? = some x) : ntohl (words.flatMap htonl) (4 * i) = x := by
  induction words generalizing i with
  | nil => cases h
  | cons y words ih =>
    cases i with
    | zero =>
      rw [List.getElem?_cons_zero] at h
      rw [← Option.some.inj h]
      exact bytes_append_eq y
    | succ i =>
      rw [List.getElem?_cons_succ] at h
      have hword : 4 * (i + 1) = (htonl y).length + 4 * i := by
        rw [Nat.mul_succ, Nat.add_comm]
        rfl
      rw [List.flatMap_cons, hword, ntohl_append, ih h]

variable (hdr : UdpDatagram) (stat : ServerHdr)

/-- The statistics that are received are those that were sent. -/
theorem receivedStat_buildReply : receivedStat (buildReply hdr stat) = stat := by
  have hword (i : Nat) {x : BitVec 32} (h : (hdr.words ++ stat.words)[i]? = some x) :
      ntohl (buildReply hdr stat) (4 * i) = x := ntohl_flatMap h
  unfold receivedStat
  congr 1
  · exact hword 3 rfl
  · exact hword 4 rfl
  · exact hword 5 rfl
  · exact hword 6 rfl
  · exact hword 7 rfl
  · exact hword 8 rfl
  · exact hword 9 rfl
  · exact hword 10 rfl
  · exact hword 11 rfl
  · exact hword 12 rfl

theorem length_buildReply : (buildReply hdr stat).length = 52 := rfl

theorem zperfUploadDecodeStat_buildReply (results : Results) :
    zperfUploadDecodeStat (buildReply hdr stat) results =
      { results with
        nbPacketsRcvd := stat.datagrams
        nbPacketsLost := stat.errorCnt
        nbPacketsOutorder := stat.outorderCnt
        nbBytesSent := stat.totalLen2
        timeInUs := stat.stopUsec + stat.stopSec * usecPerSec
        jitterInUs := stat.jitter2 + stat.jitter1 * usecPerSec } := by
  unfold zperfUploadDecodeStat
  rw [if_neg (by rw [length_buildReply]; decide), if_neg (by rw [length_buildReply]; decide),
    receivedStat_buildReply]

/-! ## The round trip -/

/-- The sender gets back what the session has counted. -/
structure RoundTrip (data : StatData) (duration : BitVec 32) (pkt : List (BitVec 8))
    (results : Results) : Prop where
  rcvd : results.nbPacketsRcvd = data.counter
  lost : results.nbPacketsLost = data.error
  outorder : results.nbPacketsOutorder = data.outorder
  bytes : results.nbBytesSent.toNat = data.length.toNat % 2 ^ 32
  time : results.timeInUs = duration
  jitter : results.jitterInUs = data.jitter
  total : (receivedStat pkt).totalLen1.toNat * 2 ^ 32 + (receivedStat pkt).totalLen2.toNat =
    data.length.toNat

/-- Seconds and microseconds make up the duration. -/
theorem duration_eq (duration : BitVec 32) :
    duration % usecPerSec + duration / usecPerSec * usecPerSec = duration := by
  apply BitVec.eq_of_toNat_eq
  have hparts := Nat.mod_add_div' duration.toNat usecPerSec.toNat
  have hsec : duration.toNat / usecPerSec.toNat * usecPerSec.toNat < 2 ^ 32 :=
    Nat.lt_of_le_of_lt (Nat.div_mul_le_self _ _) duration.isLt
  rw [BitVec.toNat_add, BitVec.toNat_mul, BitVec.toNat_umod, BitVec.toNat_udiv,
    Nat.mod_eq_of_lt hsec, hparts, Nat.mod_eq_of_lt duration.isLt]

/-- The two words that are sent for a length. -/
theorem toNat_totalLen1 (hz : Nat) (data : StatData) (time : BitVec 32) :
    (data.serverHdr hz time).totalLen1.toNat = data.length.toNat / 2 ^ 32 := by
  have hlt := data.length.isLt
  show ((data.length >>> 32).setWidth 32).toNat = _
  rw [BitVec.toNat_setWidth, BitVec.toNat_ushiftRight, Nat.shiftRight_eq_div_pow]
  omega

theorem toNat_totalLen2 (hz : Nat) (data : StatData) (time : BitVec 32) :
    (data.serverHdr hz time).totalLen2.toNat = data.length.toNat % 0xffffffff := by
  have hmod : (0xFFFFFFFF : BitVec 64).toNat = 0xffffffff := rfl
  show ((data.length % 0xFFFFFFFF).setWidth 32).toNat = _
  rw [BitVec.toNat_setWidth, BitVec.toNat_umod, hmod]
  omega

/-- The remainder by `0xFFFFFFFF` adds up the words, so it is the low word only if that is not all
ones and the high word counts for nothing. -/
theorem mod_allOnes_eq_iff {n : Nat} (h : n < 2 ^ 64) : n % 0xffffffff = n % 2 ^ 32 ↔
    (n / 2 ^ 32 = 0 ∨ n / 2 ^ 32 = 0xffffffff) ∧ n % 2 ^ 32 ≠ 0xffffffff := by
  omega

/-- The round trip is exact if the high word of the length is 0 or `0xFFFFFFFF` and its low word is
not `0xFFFFFFFF`, and for no other length. -/
theorem stat_roundTrip_iff (hz : Nat) (data : StatData) (time : BitVec 32) (hdr : UdpDatagram)
    (results : Results) :
    RoundTrip data (hwCyclesToUsec hz (timeDelta data.startTime time))
        (buildReply hdr (data.serverHdr hz time))
        (zperfUploadDecodeStat (buildReply hdr (data.serverHdr hz time)) results) ↔
      (data.length.toNat / 2 ^ 32 = 0 ∨ data.length.toNat / 2 ^ 32 = 0xffffffff) ∧
        data.length.toNat % 2 ^ 32 ≠ 0xffffffff := by
  have hlen1 := toNat_totalLen1 hz data time
  have hlen2 := toNat_totalLen2 hz data time
  rw [zperfUploadDecodeStat_buildReply, ← mod_allOnes_eq_iff data.length.isLt, ← hlen2]
  constructor
  · exact fun h => h.bytes
  · intro h
    refine ⟨rfl, rfl, rfl, h, ?_, ?_, ?_⟩
    · exact duration_eq _
    · show data.jitter + 0#32 * usecPerSec = data.jitter
      rw [BitVec.zero_mul, BitVec.add_zero]
    · rw [receivedStat_buildReply, hlen1, h]
      omega

/-- A session of `2 ^ 32` bytes, which is announced as one of `2 ^ 32 + 1`. -/
theorem stat_wrong : ¬ ∀ (hz : Nat) (data : StatData) (time : BitVec 32) (hdr : UdpDatagram)
    (results : Results), RoundTrip data (hwCyclesToUsec hz (timeDelta data.startTime time))
      (buildReply hdr (data.serverHdr hz time))
      (zperfUploadDecodeStat (buildReply hdr (data.serverHdr hz time)) results) := by
  intro h
  have hbytes := (h 1 { length := 0x100000000 } 0 { id := 0 } {}).bytes
  exact absurd hbytes (by decide +kernel)

end Zperf
end ZephyrSamples
