import Mathlib.Data.List.TakeDrop
import Mathlib.Algebra.Group.Nat.Defs
import ZephyrSamples.Lib.Memory

/-!
# Tuning commands over HID reports

`tun_drv_process_command` puts a command together from the 52 data bytes of one report after the
other; how many it needs it reads in the command's first word, and takes at most the size of the
buffer.  The commands of a host come out one by one exactly when that limit does not end one before
its last report.
-/

namespace ZephyrSamples
namespace AudioCrb

open Memory

abbrev Byte := UInt8

/-- `TUN_DRV_CMD_MAX_WORDS` -/
def tunDrvCmdMaxWords : Nat := 264

/-- `TUN_DRV_CMD_MAX_BYTES` -/
def tunDrvCmdMaxBytes : Nat := tunDrvCmdMaxWords * 4

/-- `sizeof(union usb_hid_report_hdr)` -/
def usbHidReportHdr : Nat := 4

/-- `USB_TPORT_HID_REPORT_COUNT` -/
def hidReportCount : Nat := 56

/-- `USB_TPORT_HID_REPORT_DATA_LEN` -/
def hidReportDataLen : Nat := hidReportCount - usbHidReportHdr

/-- `command_buffer` -/
structure CommandBuffer where
  buffer : List Byte
  len : Nat
  index : Nat
  deriving DecidableEq, Repr

/-- What a report does beside changing the buffer: the bytes `memcpy` wrote, as a start and a
length, and whether `tun_drv_sem` was given. -/
structure Effect where
  written : Nat × Nat
  gave : Bool
  deriving DecidableEq, Repr

/-- A `u32_t` read from the bytes, little endian. -/
def word (data : List Byte) : Nat :=
  (data.getD 0 0).toNat + (data.getD 1 0).toNat * 2 ^ 8 + (data.getD 2 0).toNat * 2 ^ 16 +
    (data.getD 3 0).toNat * 2 ^ 24

/-- `memcpy(&buffer[at], data, len)` -/
def memcpy (buffer : List Byte) (start : Nat) (data : List Byte) (len : Nat) : List Byte :=
  buffer.take start ++ data.take len ++ buffer.drop (start + len)

/-- The length of the command, on the first report of one. -/
def extractLen (c : CommandBuffer) (data : List Byte) : CommandBuffer :=
  if c.len = 0 then
    let len := word data / 2 ^ 16 * 4
    { c with len := if tunDrvCmdMaxBytes < len then tunDrvCmdMaxBytes else len }
  else c

def tunDrvProcessCommand (c : CommandBuffer) (data : List Byte) (len : Nat) :
    CommandBuffer × Effect :=
  let c := extractLen c data
  let len := if c.len ≤ (c.index + len) % 2 ^ 32 then (c.len + 2 ^ 32 - c.index) % 2 ^ 32 else len
  let start := c.index
  let c := if len ≠ 0 then
      { c with buffer := memcpy c.buffer start data len, index := (start + len) % 2 ^ 32 }
    else c
  if c.index = c.len then
    ({ c with index := 0, len := 0 }, { written := (start, len), gave := true })
  else (c, { written := (start, len), gave := false })

/-- `usb_transport_set_report`: strip the header. -/
def usbTransportSetReport (c : CommandBuffer) (report : List Byte) : CommandBuffer × Effect :=
  tunDrvProcessCommand c (report.drop usbHidReportHdr) (report.length - usbHidReportHdr)

/-- The reports of a command, in order. -/
def setReports (c : CommandBuffer) : List (List Byte) → CommandBuffer × List Effect
  | [] => (c, [])
  | report :: reports =>
    let (c, effect) := usbTransportSetReport c report
    let (c, effects) := setReports c reports
    (c, effect :: effects)

/-- `command_buffer` at the start. -/
def idle : CommandBuffer where
  buffer := List.replicate tunDrvCmdMaxBytes 0
  len := 0
  index := 0

/-! ## What a host sends -/

/-- A command of `words` words, with the number in the upper half of the first one. -/
structure Command where
  words : Nat
  bytes : List Byte
  pos : 1 ≤ words
  length : bytes.length = 4 * words
  first : word bytes / 2 ^ 16 = words

/-- A command cut into reports, the last one filled up. -/
structure Sent where
  command : Command
  reports : List (List Byte)
  pad : List Byte
  report_length : ∀ report ∈ reports, report.length = hidReportCount
  data : (reports.map fun report => report.drop usbHidReportHdr).flatten = command.bytes ++ pad
  count : reports.length = (4 * command.words + (hidReportDataLen - 1)) / hidReportDataLen

/-- The command comes out: the semaphore is given with the last report and with no other, the buffer
then starts with the command as far as it has room, it is ready for the next one, and nothing was
written outside. -/
structure Delivered (c : CommandBuffer) (sent : Sent) : Prop where
  gave : (setReports c sent.reports).2.map Effect.gave =
    List.replicate (sent.reports.length - 1) false ++ [true]
  bytes : sent.command.bytes.take tunDrvCmdMaxBytes <+: (setReports c sent.reports).1.buffer
  len : (setReports c sent.reports).1.len = 0
  index : (setReports c sent.reports).1.index = 0
  inside : ∀ effect ∈ (setReports c sent.reports).2,
    effect.written.1 + effect.written.2 ≤ tunDrvCmdMaxBytes

/-- So it is for one command after the other. -/
def AllDelivered : CommandBuffer → List Sent → Prop
  | _, [] => True
  | c, sent :: rest => Delivered c sent ∧ AllDelivered (setReports c sent.reports).1 rest

/-! ## The buffer -/

variable {c : CommandBuffer} {buffer data report : List Byte} {start len : Nat}

theorem memcpy_eq (hdata : len ≤ data.length) :
    memcpy buffer start data len = overwrite buffer start (data.take len) := by
  rw [memcpy, overwrite, List.length_take_of_le hdata]

variable (buffer data start len) in
theorem length_memcpy (hfits : start + len ≤ buffer.length) (hdata : len ≤ data.length) :
    (memcpy buffer start data len).length = buffer.length := by
  have hlen : (data.take len).length = len := List.length_take_of_le hdata
  rw [memcpy_eq hdata, length_overwrite (by rwa [hlen])]

variable (buffer data start len) in
theorem take_memcpy (hfits : start + len ≤ buffer.length) (hdata : len ≤ data.length) :
    (memcpy buffer start data len).take (start + len) = buffer.take start ++ data.take len := by
  have hlen : (data.take len).length = len := List.length_take_of_le hdata
  have htake : (overwrite buffer start (data.take len)).take (start + (data.take len).length) =
      buffer.take start ++ data.take len := take_overwrite (Nat.le_of_add_right_le hfits)
  rwa [hlen, ← memcpy_eq hdata] at htake

/-- A command of `L` bytes in all is being put together. -/
structure Filling (c : CommandBuffer) (L : Nat) : Prop where
  size : c.buffer.length = tunDrvCmdMaxBytes
  len : c.len = L
  index : c.index < L
  le : L ≤ tunDrvCmdMaxBytes

/-- Between two commands. -/
structure Ready (c : CommandBuffer) : Prop where
  size : c.buffer.length = tunDrvCmdMaxBytes
  len : c.len = 0
  index : c.index = 0

theorem ready_idle : Ready idle := ⟨List.length_replicate, rfl, rfl⟩

theorem Filling.extractLen {L : Nat} (h : Filling c L) (data : List Byte) :
    extractLen c data = c := by
  have hne : c.len ≠ 0 := by
    have := h.index
    rw [h.len]
    omega
  rw [AudioCrb.extractLen, if_neg hne]

/-- The bytes of a command that are taken. -/
def taken (words : Nat) : Nat := min (4 * words) tunDrvCmdMaxBytes

theorem Ready.extractLen (h : Ready c) (hpos : 1 ≤ word data / 2 ^ 16) :
    Filling (extractLen c data) (taken (word data / 2 ^ 16)) ∧
      (extractLen c data).index = 0 ∧ (extractLen c data).buffer = c.buffer := by
  have hmax : tunDrvCmdMaxBytes = 1056 := rfl
  rw [AudioCrb.extractLen, if_pos h.len]
  refine ⟨⟨h.size, ?_, ?_, Nat.min_le_right _ _⟩, h.index, rfl⟩
  · show (if tunDrvCmdMaxBytes < word data / 2 ^ 16 * 4 then _ else _) = _
    unfold taken
    split
    · omega
    · omega
  · show c.index < taken (word data / 2 ^ 16)
    rw [h.index, taken]
    omega

/-- Once the length is known the first report is like the others. -/
theorem process_extractLen {L : Nat} (h : Filling (extractLen c data) L) (len : Nat) :
    tunDrvProcessCommand c data len = tunDrvProcessCommand (extractLen c data) data len := by
  rw [tunDrvProcessCommand, tunDrvProcessCommand, h.extractLen]

theorem process_part {L : Nat} (h : Filling c L) (hpart : c.index + hidReportDataLen < L) :
    tunDrvProcessCommand c data hidReportDataLen =
      ({ c with buffer := memcpy c.buffer c.index data hidReportDataLen
                index := c.index + hidReportDataLen },
        { written := (c.index, hidReportDataLen), gave := false }) := by
  have hmax : tunDrvCmdMaxBytes = 1056 := rfl
  have h52 : hidReportDataLen = 52 := rfl
  have hlen := h.len
  have hle := h.le
  have hsum : (c.index + hidReportDataLen) % 2 ^ 32 = c.index + hidReportDataLen :=
    Nat.mod_eq_of_lt (by omega)
  have hmore : ¬ c.len ≤ c.index + hidReportDataLen := by omega
  have hne : hidReportDataLen ≠ 0 := by decide
  have hopen : c.index + hidReportDataLen ≠ c.len := by omega
  rw [tunDrvProcessCommand, h.extractLen]
  simp only [hsum, if_neg hmore, if_pos hne, if_neg hopen]

theorem Filling.part {L : Nat} (h : Filling c L) (hdata : data.length = hidReportDataLen)
    (hpart : c.index + hidReportDataLen < L) :
    Filling { c with buffer := memcpy c.buffer c.index data hidReportDataLen
                     index := c.index + hidReportDataLen } L := by
  have hle := h.le
  have hsize := h.size
  refine ⟨?_, h.len, hpart, hle⟩
  show (memcpy c.buffer c.index _ hidReportDataLen).length = _
  rw [length_memcpy _ _ _ _ (by omega) (by omega)]
  exact hsize

theorem Filling.take_part {L : Nat} (h : Filling c L) (hdata : data.length = hidReportDataLen)
    (hpart : c.index + hidReportDataLen < L) (more : List Byte) :
    (memcpy c.buffer c.index data hidReportDataLen).take (c.index + hidReportDataLen) ++
        more.take (L - (c.index + hidReportDataLen)) =
      c.buffer.take c.index ++ (data ++ more).take (L - c.index) := by
  have hle := h.le
  have hsize := h.size
  have hcopy := take_memcpy c.buffer data c.index hidReportDataLen (by omega) (by omega)
  have hall : data.take hidReportDataLen = data := List.take_of_length_le (by omega)
  have hmore : data.length ≤ L - c.index := by omega
  have hrest : L - c.index - data.length = L - (c.index + hidReportDataLen) := by omega
  rw [hcopy, hall, List.take_append, List.take_of_length_le hmore, hrest, List.append_assoc]

theorem process_last {L : Nat} (h : Filling c L) (hlast : L ≤ c.index + hidReportDataLen) :
    tunDrvProcessCommand c data hidReportDataLen =
      ({ buffer := memcpy c.buffer c.index data (L - c.index), len := 0, index := 0 },
        { written := (c.index, L - c.index), gave := true }) := by
  have hmax : tunDrvCmdMaxBytes = 1056 := rfl
  have h52 : hidReportDataLen = 52 := rfl
  have hlen := h.len
  have hle := h.le
  have hindex := h.index
  have hsum : (c.index + hidReportDataLen) % 2 ^ 32 = c.index + hidReportDataLen :=
    Nat.mod_eq_of_lt (by omega)
  have hdone : c.len ≤ c.index + hidReportDataLen := by omega
  have hrest : (c.len + 2 ^ 32 - c.index) % 2 ^ 32 = L - c.index := by omega
  have hne : L - c.index ≠ 0 := by omega
  have hfull : (c.index + (L - c.index)) % 2 ^ 32 = c.len := by omega
  rw [tunDrvProcessCommand, h.extractLen]
  simp only [hsum, if_pos hdone, hrest, if_pos hne, hfull, if_true]

/-! ## One command -/

theorem setReport_eq (hreport : report.length = hidReportCount) :
    usbTransportSetReport c report =
      tunDrvProcessCommand c (report.drop usbHidReportHdr) hidReportDataLen := by
  rw [usbTransportSetReport, hreport]
  rfl

theorem length_data (hreport : report.length = hidReportCount) :
    (report.drop usbHidReportHdr).length = hidReportDataLen := by
  rw [List.length_drop, hreport]
  rfl

/-- The data bytes of the reports, one after the other. -/
def dataOf (reports : List (List Byte)) : List Byte :=
  (reports.map fun report => report.drop usbHidReportHdr).flatten

/-- The reports that complete a command: the semaphore is given with the last one, and the buffer
holds what it had and their data. -/
theorem setReports_filling {L : Nat} {reports : List (List Byte)} (h : Filling c L)
    (hreports : ∀ report ∈ reports, report.length = hidReportCount)
    (hopen : c.index + 52 * (reports.length - 1) < L)
    (henough : L ≤ c.index + 52 * reports.length) :
    let after := setReports c reports
    Ready after.1 ∧ after.2.map Effect.gave = List.replicate (reports.length - 1) false ++ [true] ∧
      after.1.buffer.take L = c.buffer.take c.index ++ (dataOf reports).take (L - c.index) ∧
      ∀ effect ∈ after.2, effect.written.1 + effect.written.2 ≤ tunDrvCmdMaxBytes := by
  have h52 : hidReportDataLen = 52 := rfl
  induction reports generalizing c with
  | nil =>
    have hindex := h.index
    rw [List.length_nil] at henough
    omega
  | cons report reports ih =>
    have hreport := hreports report List.mem_cons_self
    have hdata := length_data hreport
    have hle := h.le
    have hindex := h.index
    have hsize := h.size
    rw [List.length_cons] at hopen henough
    simp only [setReports, setReport_eq hreport]
    cases reports with
    | nil =>
      simp only [List.length_nil] at hopen henough
      rw [process_last h (by omega)]
      refine ⟨⟨?_, rfl, rfl⟩, rfl, ?_, ?_⟩
      · show (memcpy c.buffer c.index _ (L - c.index)).length = _
        rw [length_memcpy _ _ _ _ (by omega) (by omega)]
        exact hsize
      · have htake := take_memcpy c.buffer (report.drop usbHidReportHdr) c.index
          (L - c.index) (by omega) (by omega)
        have hsum : c.index + (L - c.index) = L := by omega
        rw [hsum] at htake
        simp only [setReports, dataOf, List.map_cons, List.map_nil, List.flatten_cons,
          List.flatten_nil, List.append_nil]
        exact htake
      · intro effect hmem
        obtain rfl := List.mem_singleton.mp hmem
        show c.index + (L - c.index) ≤ tunDrvCmdMaxBytes
        omega
    | cons report' reports =>
      rw [List.length_cons] at hopen henough
      have hpart : c.index + hidReportDataLen < L := by omega
      rw [process_part h hpart]
      obtain ⟨hready, hgave, htake, hinside⟩ := ih (h.part hdata hpart)
        (fun r hr => hreports r (List.mem_cons_of_mem report hr))
        (by simp only [List.length_cons]; omega) (by simp only [List.length_cons]; omega)
      refine ⟨hready, ?_, ?_, ?_⟩
      · rw [List.map_cons, hgave, List.length_cons]
        rfl
      · rw [htake]
        exact h.take_part hdata hpart (dataOf (report' :: reports))
      · intro effect hmem
        rcases List.mem_cons.mp hmem with rfl | hmem
        · show c.index + hidReportDataLen ≤ tunDrvCmdMaxBytes
          omega
        · exact hinside effect hmem

theorem setReports_append (c : CommandBuffer) (as bs : List (List Byte)) :
    (setReports c (as ++ bs)).2 =
      (setReports c as).2 ++ (setReports (setReports c as).1 bs).2 := by
  induction as generalizing c with
  | nil => rfl
  | cons report as ih =>
    show _ :: (setReports _ (as ++ bs)).2 = _
    rw [ih]
    rfl

theorem setReports_extractLen {L : Nat} {reports : List (List Byte)}
    (hreport : report.length = hidReportCount)
    (h : Filling (extractLen c (report.drop usbHidReportHdr)) L) :
    setReports c (report :: reports) =
      setReports (extractLen c (report.drop usbHidReportHdr)) (report :: reports) := by
  simp only [setReports, setReport_eq hreport]
  rw [process_extractLen h]

theorem word_congr {data' : List Byte} (h : ∀ i < 4, data[i]? = data'[i]?) :
    word data = word data' := by
  simp only [word, List.getD_eq_getElem?_getD, h 0 (by omega), h 1 (by omega), h 2 (by omega),
    h 3 (by omega)]

theorem Sent.word_first (sent : Sent) {reports : List (List Byte)}
    (h : sent.reports = report :: reports) :
    word (report.drop usbHidReportHdr) / 2 ^ 16 = sent.command.words := by
  have hreport : report.length = hidReportCount :=
    sent.report_length report (h ▸ List.mem_cons_self)
  have hdata := length_data hreport
  have h52 : hidReportDataLen = 52 := rfl
  have hsplit : report.drop usbHidReportHdr ++ dataOf reports = sent.command.bytes ++ sent.pad := by
    rw [← sent.data, h]
    rfl
  have hlen := sent.command.length
  have hpos := sent.command.pos
  rw [← sent.command.first]
  congr 1
  refine word_congr fun i hi => ?_
  have hget : (report.drop usbHidReportHdr ++ dataOf reports)[i]? =
      (sent.command.bytes ++ sent.pad)[i]? := by rw [hsplit]
  rwa [List.getElem?_append_left (by omega), List.getElem?_append_left (by omega)] at hget

theorem dataOf_append (as bs : List (List Byte)) : dataOf (as ++ bs) = dataOf as ++ dataOf bs := by
  rw [dataOf, List.map_append, List.flatten_append]
  rfl

theorem length_dataOf {reports : List (List Byte)}
    (h : ∀ report ∈ reports, report.length = hidReportCount) :
    (dataOf reports).length = 52 * reports.length := by
  induction reports with
  | nil => rfl
  | cons report reports ih =>
    have hdata := length_data (h report List.mem_cons_self)
    have h52 : hidReportDataLen = 52 := rfl
    have hrest := ih fun r hr => h r (List.mem_cons_of_mem report hr)
    show (report.drop usbHidReportHdr ++ dataOf reports).length = _
    rw [List.length_append, List.length_cons]
    omega

theorem Sent.take_dataOf (sent : Sent) {k L : Nat} (hk : k ≤ sent.reports.length) (hL : L ≤ 52 * k)
    (hle : L ≤ 4 * sent.command.words) :
    (dataOf (sent.reports.take k)).take L = sent.command.bytes.take L := by
  have hlen := sent.command.length
  have hfirst : (dataOf (sent.reports.take k)).length = 52 * k := by
    rw [length_dataOf fun r hr => sent.report_length r (List.mem_of_mem_take hr), List.length_take]
    omega
  have hall : dataOf (sent.reports.take k) ++ dataOf (sent.reports.drop k) =
      sent.command.bytes ++ sent.pad := by
    rw [← dataOf_append, List.take_append_drop]
    exact sent.data
  have htake : (dataOf (sent.reports.take k) ++ dataOf (sent.reports.drop k)).take L =
      (sent.command.bytes ++ sent.pad).take L := by rw [hall]
  rwa [List.take_append_of_le_length (by omega), List.take_append_of_le_length (by omega)] at htake

theorem Sent.reports_ne_nil (sent : Sent) : sent.reports ≠ [] := by
  intro hnil
  have hcount := sent.count
  have hpos := sent.command.pos
  have h52 : hidReportDataLen = 52 := rfl
  rw [hnil, List.length_nil, h52] at hcount
  omega

/-- What the first `k` reports of a command do, if they are just enough for what is taken of it. -/
theorem setReports_sent (h : Ready c) (sent : Sent) {k : Nat} (hk : k ≤ sent.reports.length)
    (hopen : 52 * (k - 1) < taken sent.command.words)
    (henough : taken sent.command.words ≤ 52 * k) :
    let after := setReports c (sent.reports.take k)
    Ready after.1 ∧ after.2.map Effect.gave = List.replicate (k - 1) false ++ [true] ∧
      after.1.buffer.take (taken sent.command.words) =
        sent.command.bytes.take (taken sent.command.words) ∧
      ∀ effect ∈ after.2, effect.written.1 + effect.written.2 ≤ tunDrvCmdMaxBytes := by
  obtain ⟨report, reports, hreports⟩ := List.exists_cons_of_ne_nil sent.reports_ne_nil
  have hreport : report.length = hidReportCount :=
    sent.report_length report (hreports ▸ List.mem_cons_self)
  have hword := sent.word_first hreports
  have hpos : 1 ≤ word (report.drop usbHidReportHdr) / 2 ^ 16 := by
    rw [hword]
    exact sent.command.pos
  obtain ⟨hfill, hindex, -⟩ := h.extractLen hpos
  rw [hword] at hfill
  have hkpos : 0 < k := by
    have := hfill.index
    omega
  obtain ⟨m, rfl⟩ : ∃ m, k = m + 1 := ⟨k - 1, by omega⟩
  have htake : sent.reports.take (m + 1) = report :: reports.take m := by
    rw [hreports, List.take_succ_cons]
  have hlen : (report :: reports.take m).length = m + 1 := by
    rw [← htake, List.length_take]
    omega
  have hall : ∀ r ∈ report :: reports.take m, r.length = hidReportCount := by
    intro r hr
    refine sent.report_length r (List.mem_of_mem_take (i := m + 1) ?_)
    rwa [htake]
  obtain ⟨hready, hgave, hbuf, hinside⟩ := setReports_filling hfill hall
    (by rw [hlen, hindex]; omega) (by rw [hlen, hindex]; omega)
  rw [htake, setReports_extractLen hreport hfill]
  refine ⟨hready, ?_, ?_, hinside⟩
  · rw [hgave, hlen]
  · rw [hbuf, hindex, List.take_zero, List.nil_append, Nat.sub_zero, ← htake]
    exact sent.take_dataOf hk henough (Nat.min_le_left _ _)

theorem Sent.enough (sent : Sent) (h : sent.command.words ≤ 273) :
    52 * (sent.reports.length - 1) < taken sent.command.words ∧
      taken sent.command.words ≤ 52 * sent.reports.length := by
  have hcount := sent.count
  have hpos := sent.command.pos
  have h52 : hidReportDataLen = 52 := rfl
  have hmax : tunDrvCmdMaxBytes = 1056 := rfl
  rw [h52] at hcount
  unfold taken
  omega

theorem Sent.more_reports (sent : Sent) (h : 273 < sent.command.words) :
    21 < sent.reports.length ∧ taken sent.command.words = 1056 := by
  have hcount := sent.count
  have h52 : hidReportDataLen = 52 := rfl
  have hmax : tunDrvCmdMaxBytes = 1056 := rfl
  rw [h52] at hcount
  unfold taken
  omega

/-- A command that has no more reports than its part for the buffer needs comes out. -/
theorem delivered_of_le (h : Ready c) (sent : Sent) (hle : sent.command.words ≤ 273) :
    Delivered c sent ∧ Ready (setReports c sent.reports).1 := by
  obtain ⟨hopen, henough⟩ := sent.enough hle
  obtain ⟨hready, hgave, hbuf, hinside⟩ := setReports_sent h sent (Nat.le_refl _) hopen henough
  rw [List.take_length] at hready hgave hbuf hinside
  refine ⟨⟨hgave, ?_, hready.len, hready.index, hinside⟩, hready⟩
  have htaken : sent.command.bytes.take tunDrvCmdMaxBytes =
      sent.command.bytes.take (taken sent.command.words) := by
    rw [taken, ← sent.command.length, Nat.min_comm, ← List.take_take, List.take_length]
  rw [htaken, ← hbuf]
  exact List.take_prefix _ _

/-- A longer one gives the semaphore with its 21st report, which is not its last. -/
theorem not_delivered_of_lt (h : Ready c) (sent : Sent) (hlt : 273 < sent.command.words) :
    ¬ Delivered c sent := by
  intro hdel
  obtain ⟨hmore, htaken⟩ := sent.more_reports hlt
  obtain ⟨-, hgave, -, -⟩ := setReports_sent (k := 21) h sent (by omega) (by omega) (by omega)
  have hsplit := setReports_append c (sent.reports.take 21) (sent.reports.drop 21)
  rw [List.take_append_drop] at hsplit
  have hall := hdel.gave
  rw [hsplit, List.map_append, hgave] at hall
  have hexpected :
      (List.replicate (sent.reports.length - 1) false ++ [true])[20]? = some false := by
    rw [List.getElem?_append_left (by rw [List.length_replicate]; omega),
      List.getElem?_replicate_of_lt (by omega)]
  rw [← hall, List.getElem?_append_left (by simp)] at hexpected
  simp at hexpected

theorem delivered_iff (h : Ready c) (sent : Sent) :
    Delivered c sent ↔ sent.command.words ≤ 273 := by
  constructor
  · intro hdel
    by_contra hlt
    exact not_delivered_of_lt h sent (by omega) hdel
  · exact fun hle => (delivered_of_le h sent hle).1

/-! ## Every command -/

theorem allDelivered_iff_of_ready (h : Ready c) (commands : List Sent) :
    AllDelivered c commands ↔ ∀ sent ∈ commands, sent.command.words ≤ 273 := by
  induction commands generalizing c with
  | nil => exact ⟨fun _ _ hmem => (nomatch hmem), fun _ => trivial⟩
  | cons sent commands ih =>
    rw [List.forall_mem_cons]
    constructor
    · rintro ⟨hdel, hrest⟩
      have hle := (delivered_iff h sent).mp hdel
      exact ⟨hle, (ih (delivered_of_le h sent hle).2).mp hrest⟩
    · rintro ⟨hle, hrest⟩
      obtain ⟨hdel, hready⟩ := delivered_of_le h sent hle
      exact ⟨hdel, (ih hready).mpr hrest⟩

/-- Any finite sequence of commands, with any bytes in the headers and behind the commands. -/
theorem tuning_commands_delivered_iff (commands : List Sent) :
    AllDelivered idle commands ↔ ∀ sent ∈ commands, sent.command.words ≤ 273 :=
  allDelivered_iff_of_ready ready_idle commands

/-- A command of 274 words. -/
def longCommand : Command where
  words := 274
  bytes := [0x00, 0x00, 0x12, 0x01] ++ List.replicate 1092 0
  pos := by decide
  length := by
    rw [List.length_append, List.length_replicate]
    rfl
  first := by decide

/-- Its 22 reports. -/
def longSent : Sent where
  command := longCommand
  reports := ([0x01, 0x00, 0x00, 0x38, 0x00, 0x00, 0x12, 0x01] ++ List.replicate 48 0) ::
    List.replicate 21 (List.replicate 56 0)
  pad := List.replicate 48 0
  report_length := by
    intro report hmem
    rcases List.mem_cons.mp hmem with rfl | hmem
    · rfl
    · rw [List.eq_of_mem_replicate hmem, List.length_replicate]
      rfl
  data := by decide +kernel
  count := by decide

/-- It is not over when the semaphore is given. -/
theorem long_command_splits : ¬ ∀ commands, AllDelivered idle commands := by
  intro h
  have hle := (allDelivered_iff_of_ready ready_idle [longSent]).mp (h _) longSent
    List.mem_cons_self
  revert hle
  decide

end AudioCrb
end ZephyrSamples
