import ZephyrSamples.AudioCrb.Tuning

/-!
# The reply over HID reports

`usb_transport_send_reply` sends the data of `command_buffer` in reports of 52 bytes.  Each report
is sent from where it lies, with its header written over the four bytes in front of it, which have
been sent, and in full also when its data is shorter.  The memory is that
from `command_buffer` on. -/

namespace ZephyrSamples
namespace AudioCrb

/-- The memory, by the distance from `command_buffer.header`. -/
abbrev Mem := Nat → Byte

/-- `sizeof` of the header and the buffer of `command_buffer`. -/
def replyArea : Nat := usbHidReportHdr + tunDrvCmdMaxBytes

def bytes (mem : Mem) (start n : Nat) : List Byte := (List.range n).map fun i => mem (start + i)

def store (mem : Mem) (start : Nat) (data : List Byte) : Mem := fun a =>
  if start ≤ a ∧ a < start + data.length then data.getD (a - start) 0 else mem a

/-- Bytes read or written. -/
structure Access where
  start : Nat
  len : Nat
  deriving DecidableEq, Repr

/-- What a call of `usb_transport_send_reply` comes to: its result, the reports that went out, and
the accesses to the memory. -/
structure Reply where
  ret : Int
  reports : List (List Byte)
  accesses : List Access

/-- `EIO` -/
def eio : Int := 5

/-- `header->byte`, with the number of bytes of the report. -/
def hidHeader (byteCount : Nat) : List Byte := [1, 0, 0, UInt8.ofNat byteCount]

/-- The loop from `header` on.  `hidIntEpWrite` is what the calls of `hid_int_ep_write` return and
store in `written`, by their number. -/
def sendReports (hidIntEpWrite : Nat → Int × Nat) (call : Nat) (mem : Mem) (header len : Nat) :
    Reply :=
  if len = 0 then { ret := 0, reports := [], accesses := [] }
  else
    let byteCount := if len < hidReportDataLen then len else hidReportDataLen
    let mem := store mem header (hidHeader byteCount)
    let (ret, written) := hidIntEpWrite call
    let accesses := [⟨header, usbHidReportHdr⟩, ⟨header, hidReportCount⟩]
    if ret ≠ 0 then { ret, reports := [], accesses }
    else if written ≠ hidReportCount then { ret := -eio, reports := [], accesses }
    else
      let rest := sendReports hidIntEpWrite (call + 1) mem (header + hidReportDataLen)
        (len - hidReportDataLen)
      { rest with
        reports := bytes mem header hidReportCount :: rest.reports
        accesses := accesses ++ rest.accesses }
termination_by len
decreasing_by
  have hpos : 0 < hidReportDataLen := by decide
  omega

/-- `data` is the distance of the buffer; the header is the one in front of it. -/
def usbTransportSendReply (hidIntEpWrite : Nat → Int × Nat) (mem : Mem) (data len : Nat) : Reply :=
  sendReports hidIntEpWrite 0 mem (data - usbHidReportHdr) len

/-- The length of the reply, from the first word of the buffer. -/
def replyLen (mem : Mem) : Nat := word (bytes mem usbHidReportHdr 4) / 2 ^ 16 * 4

/-- `ready` is what `audio_core_is_tuning_reply_ready` returns. -/
def tunDrvPacketHandler (ready : Bool) (hidIntEpWrite : Nat → Int × Nat) (mem : Mem) : Reply :=
  if ready = false then { ret := 0, reports := [], accesses := [] }
  else
    let reply := usbTransportSendReply hidIntEpWrite mem usbHidReportHdr (replyLen mem)
    { reply with accesses := ⟨usbHidReportHdr, 4⟩ :: reply.accesses }

/-- Every report goes out in full. -/
def allSent : Nat → Int × Nat := fun _ => (0, hidReportCount)

def byteCount (report : List Byte) : Nat := (report.getD 3 0).toNat

/-- The data of a report. -/
def payload (report : List Byte) : List Byte :=
  (report.drop usbHidReportHdr).take (byteCount report)

/-- What the reply to a tuning command should be. -/
structure ReplyMeets (mem : Mem) : Prop where
  content : (((tunDrvPacketHandler true allSent mem).reports.map payload).flatten
    = bytes mem usbHidReportHdr (replyLen mem))
  full : ∀ report ∈ (tunDrvPacketHandler true allSent mem).reports.dropLast,
    byteCount report = hidReportDataLen
  inside : ∀ access ∈ (tunDrvPacketHandler true allSent mem).accesses,
    access.start + access.len ≤ replyArea

/-! ## The memory -/

variable {mem : Mem}

theorem length_bytes (mem : Mem) (start n : Nat) : (bytes mem start n).length = n := by
  rw [bytes, List.length_map, List.length_range]

theorem bytes_add (mem : Mem) (start m n : Nat) :
    bytes mem start (m + n) = bytes mem start m ++ bytes mem (start + m) n := by
  simp only [bytes, List.range_add, List.map_append, List.map_map, Function.comp_def,
    Nat.add_assoc]

/-- A header does not touch what lies behind it. -/
theorem bytes_store_of_le {start : Nat} {data : List Byte} {a : Nat} (h : start + data.length ≤ a)
    (n : Nat) : bytes (store mem start data) a n = bytes mem a n := by
  refine List.map_congr_left fun i _ => ?_
  rw [store, if_neg (by omega)]

theorem bytes_store_self (start : Nat) (data : List Byte) :
    bytes (store mem start data) start data.length = data := by
  refine List.ext_getElem (length_bytes _ _ _) fun i hi hi' => ?_
  simp only [bytes, List.getElem_map, List.getElem_range, store]
  rw [if_pos (by omega), Nat.add_sub_cancel_left, List.getD_eq_getElem?_getD,
    List.getElem?_eq_getElem hi', Option.getD_some]

/-- A report, as header and data. -/
theorem report_eq (mem : Mem) (header count : Nat) :
    bytes (store mem header (hidHeader count)) header hidReportCount
      = hidHeader count ++ bytes mem (header + usbHidReportHdr) hidReportDataLen := by
  have hsplit : hidReportCount = (hidHeader count).length + hidReportDataLen := rfl
  rw [hsplit, bytes_add, bytes_store_self, bytes_store_of_le (Nat.le_refl _)]
  rfl

theorem byteCount_report (mem : Mem) (header : Nat) {count : Nat} (h : count ≤ hidReportDataLen) :
    byteCount (bytes (store mem header (hidHeader count)) header hidReportCount) = count := by
  have hlt : count < 256 := Nat.lt_of_le_of_lt h (by decide)
  rw [report_eq]
  show (UInt8.ofNat count).toNat = count
  rw [UInt8.toNat_ofNat', Nat.mod_eq_of_lt hlt]

theorem payload_report (mem : Mem) (header : Nat) {count : Nat} (h : count ≤ hidReportDataLen) :
    payload (bytes (store mem header (hidHeader count)) header hidReportCount)
      = bytes mem (header + usbHidReportHdr) count := by
  obtain ⟨rest, hrest⟩ := Nat.exists_eq_add_of_le h
  have hlen := length_bytes mem (header + usbHidReportHdr) count
  have hdrop : (hidHeader count ++ bytes mem (header + usbHidReportHdr) hidReportDataLen).drop
      usbHidReportHdr = bytes mem (header + usbHidReportHdr) hidReportDataLen := rfl
  rw [payload, byteCount_report mem header h, report_eq, hdrop, hrest, bytes_add,
    List.take_left' hlen]

/-! ## The loop -/

theorem sendReports_zero (mem : Mem) (call header : Nat) :
    sendReports allSent call mem header 0 = { ret := 0, reports := [], accesses := [] } := by
  rw [sendReports, if_pos rfl]

/-- One report that goes out, and the rest. -/
theorem sendReports_allSent (mem : Mem) (call header : Nat) {len : Nat} (h : len ≠ 0) :
    let count := min len hidReportDataLen
    let rest := sendReports allSent (call + 1) (store mem header (hidHeader count))
      (header + hidReportDataLen) (len - hidReportDataLen)
    sendReports allSent call mem header len =
      { ret := rest.ret
        reports := bytes (store mem header (hidHeader count)) header hidReportCount :: rest.reports
        accesses := ⟨header, usbHidReportHdr⟩ :: ⟨header, hidReportCount⟩ :: rest.accesses } := by
  have hcount : (if len < hidReportDataLen then len else hidReportDataLen)
      = min len hidReportDataLen := by
    split <;> omega
  rw [sendReports, if_neg h, hcount]
  rfl

theorem sendReports_reports_eq_nil_iff (mem : Mem) (call header len : Nat) :
    (sendReports allSent call mem header len).reports = [] ↔ len = 0 := by
  by_cases h : len = 0
  · rw [h, sendReports_zero]
    exact ⟨fun _ => rfl, fun _ => rfl⟩
  · rw [sendReports_allSent mem call header h]
    exact ⟨fun hno => absurd hno (List.cons_ne_nil _ _), fun hno => absurd hno h⟩

/-- The data of the reports is the data of the reply. -/
theorem sendReports_payload (mem : Mem) (call header len : Nat) :
    ((sendReports allSent call mem header len).reports.map payload).flatten
      = bytes mem (header + usbHidReportHdr) len := by
  induction len using Nat.strongRecOn generalizing mem call header with
  | ind len ih =>
    by_cases h : len = 0
    · rw [h, sendReports_zero]
      rfl
    · have hdata : 0 < hidReportDataLen := by decide
      have hcount : min len hidReportDataLen ≤ hidReportDataLen := Nat.min_le_right _ _
      have hrest := ih (len - hidReportDataLen) (by omega)
        (store mem header (hidHeader (min len hidReportDataLen))) (call + 1)
        (header + hidReportDataLen)
      -- the rest is data of the memory as it was, for the header lies in front of it
      have hbehind : header + (hidHeader (min len hidReportDataLen)).length
          ≤ header + hidReportDataLen + usbHidReportHdr := by
        show header + 4 ≤ header + 52 + 4
        omega
      rw [sendReports_allSent mem call header h]
      dsimp only
      rw [List.map_cons, List.flatten_cons, payload_report mem header hcount, hrest,
        bytes_store_of_le hbehind]
      by_cases hlast : len ≤ hidReportDataLen
      · rw [Nat.min_eq_left hlast, Nat.sub_eq_zero_of_le hlast]
        exact List.append_nil _
      · have hlen : len = hidReportDataLen + (len - hidReportDataLen) := by omega
        have hshift : header + hidReportDataLen + usbHidReportHdr
            = header + usbHidReportHdr + hidReportDataLen := by omega
        rw [Nat.min_eq_right (by omega), hshift, ← bytes_add, ← hlen]

/-- All reports but the last are full. -/
theorem sendReports_full (mem : Mem) (call header len : Nat) :
    ∀ report ∈ (sendReports allSent call mem header len).reports.dropLast,
      byteCount report = hidReportDataLen := by
  induction len using Nat.strongRecOn generalizing mem call header with
  | ind len ih =>
    by_cases h : len = 0
    · rw [h, sendReports_zero]
      exact fun report hr => absurd hr List.not_mem_nil
    · have hdata : 0 < hidReportDataLen := by decide
      have hcount : min len hidReportDataLen ≤ hidReportDataLen := Nat.min_le_right _ _
      have hfull := ih (len - hidReportDataLen) (by omega)
        (store mem header (hidHeader (min len hidReportDataLen))) (call + 1)
        (header + hidReportDataLen)
      have hnil := sendReports_reports_eq_nil_iff
        (store mem header (hidHeader (min len hidReportDataLen))) (call + 1)
        (header + hidReportDataLen) (len - hidReportDataLen)
      rw [sendReports_allSent mem call header h]
      dsimp only
      generalize sendReports allSent (call + 1) _ (header + hidReportDataLen)
        (len - hidReportDataLen) = rest at hfull hnil
      intro report hr
      by_cases hrest : rest.reports = []
      · rw [hrest] at hr
        exact absurd hr List.not_mem_nil
      · rw [List.dropLast_cons_of_ne_nil hrest] at hr
        rcases List.mem_cons.mp hr with rfl | hr
        · have hmore := mt hnil.mpr hrest
          rw [byteCount_report mem header hcount]
          omega
        · exact hfull report hr

/-- The accesses reach to the end of the last report. -/
theorem sendReports_inside_iff (mem : Mem) (call header len area : Nat) :
    (∀ access ∈ (sendReports allSent call mem header len).accesses,
        access.start + access.len ≤ area) ↔
      (0 < len → header + hidReportDataLen * ((len - 1) / hidReportDataLen) + hidReportCount ≤ area)
      := by
  induction len using Nat.strongRecOn generalizing mem call header with
  | ind len ih =>
    by_cases h : len = 0
    · rw [h, sendReports_zero]
      exact ⟨fun _ hno => absurd hno (Nat.lt_irrefl 0),
        fun _ access ha => absurd ha List.not_mem_nil⟩
    · have hrest := ih (len - hidReportDataLen) (by
          have hdata : 0 < hidReportDataLen := by decide
          omega)
        (store mem header (hidHeader (min len hidReportDataLen))) (call + 1)
        (header + hidReportDataLen)
      rw [sendReports_allSent mem call header h]
      dsimp only
      rw [List.forall_mem_cons, List.forall_mem_cons, hrest]
      have hdata : hidReportDataLen = 52 := rfl
      have hreport : hidReportCount = 56 := rfl
      have hheader : usbHidReportHdr = 4 := rfl
      rw [hdata, hreport, hheader]
      dsimp only
      omega

/-! ## The reply -/

theorem tunDrvPacketHandler_allSent (mem : Mem) :
    tunDrvPacketHandler true allSent mem =
      { sendReports allSent 0 mem 0 (replyLen mem) with
        accesses := ⟨usbHidReportHdr, 4⟩ ::
          (sendReports allSent 0 mem 0 (replyLen mem)).accesses } := by
  rw [tunDrvPacketHandler, if_neg nofun, usbTransportSendReply, Nat.sub_self]

/-- Twenty reports fit the area, and twenty-one do not. -/
theorem reports_fit_iff (words : Nat) :
    (0 < words * 4 →
      0 + hidReportDataLen * ((words * 4 - 1) / hidReportDataLen) + hidReportCount ≤ replyArea) ↔
      words ≤ 260 := by
  have hdata : hidReportDataLen = 52 := rfl
  have hreport : hidReportCount = 56 := rfl
  have harea : replyArea = 1060 := rfl
  rw [hdata, hreport, harea]
  omega

/-- A handler that sends the data right is right when the accesses of the loop stay in the area. -/
theorem replyMeets_iff_inside {sent : Reply}
    (hhandler : tunDrvPacketHandler true allSent mem =
      { sent with accesses := ⟨usbHidReportHdr, 4⟩ :: sent.accesses })
    (hcontent : (sent.reports.map payload).flatten = bytes mem usbHidReportHdr (replyLen mem))
    (hfull : ∀ report ∈ sent.reports.dropLast, byteCount report = hidReportDataLen) :
    ReplyMeets mem ↔ ∀ access ∈ sent.accesses, access.start + access.len ≤ replyArea := by
  have hfirst : usbHidReportHdr + 4 ≤ replyArea := by decide
  constructor
  · intro h access ha
    refine h.inside access ?_
    rw [hhandler]
    exact List.mem_cons_of_mem _ ha
  · intro h
    refine ⟨?_, ?_, ?_⟩
    · rw [hhandler, hcontent]
    · rw [hhandler]
      exact hfull
    · rw [hhandler]
      exact List.forall_mem_cons.mpr ⟨hfirst, h⟩

/-- The accesses stay in the area up to the end of the last report. -/
theorem replyMeets_iff_fits (mem : Mem) :
    ReplyMeets mem ↔
      (0 < replyLen mem →
        0 + hidReportDataLen * ((replyLen mem - 1) / hidReportDataLen) + hidReportCount
          ≤ replyArea) := by
  have hcontent := sendReports_payload mem 0 0 (replyLen mem)
  have hfull := sendReports_full mem 0 0 (replyLen mem)
  rw [Nat.zero_add] at hcontent
  rw [replyMeets_iff_inside (tunDrvPacketHandler_allSent mem) hcontent hfull,
    sendReports_inside_iff]

/-- A reply is sent as it should be exactly when its first word asks for at most 260 words, which
are twenty reports. -/
theorem replyMeets_iff (mem : Mem) :
    ReplyMeets mem ↔ word (bytes mem usbHidReportHdr 4) / 2 ^ 16 ≤ 260 :=
  (replyMeets_iff_fits mem).trans (reports_fit_iff _)

/-- A reply of 261 words: the last of its 21 reports ends 36 bytes behind the buffer. -/
theorem not_replyMeets :
    ¬ ReplyMeets (fun a => if a = 6 then 0x05 else if a = 7 then 0x01 else 0) := by
  rw [replyMeets_iff_fits]
  decide

end AudioCrb
end ZephyrSamples
