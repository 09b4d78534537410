import ZephyrSamples.Zperf.ShellUtils
import ZephyrSamples.Zperf.UdpReceiver

/-!
# The pacing of a UDP upload

The loop of `zperf_udp_upload` and the command lines it is called from.  Each iteration reads the
cycle counter, corrects the delay by how late it is, sends a datagram and then reads the counter
until the delay has passed.  The counter has 32 bits; `Timed` goes with the loop and keeps the
number of cycles that really passed.

The `zperf_client_hdr_v1` of the datagrams is left out, and so is what is printed.
-/

namespace ZephyrSamples
namespace Zperf

open Runs

/-! ## The command lines -/

/-- What the commands pass to `zperf_udp_upload`. -/
structure UploadArgs where
  durationInMs : BitVec 32
  packetSize : BitVec 32
  rateInKbps : BitVec 32
  deriving DecidableEq

/-- `(n + 1023) / 1024`, a division of signed numbers -/
def roundToKbps (n : BitVec 32) : BitVec 32 := (n + 1023).sdiv 1024

/-- An optional argument that `parse_number` reads, and what is made of its value. -/
def numberArg (text : Option (List Char)) (ofNumber : BitVec 32 → BitVec 32)
    (missing : BitVec 32) : Option (BitVec 32) :=
  match text with
  | some text => (parseNumber text Table.k.rows).map ofNumber
  | none => some missing

/-- The arguments from `argv[first]` on: a duration in seconds, a packet size and a rate. -/
def uploadArgs (argv : List (List Char)) (first : Nat) : Option UploadArgs :=
  if argv.length < 2 then none
  else do
    let durationInMs := argv[first]?.elim 1000 fun text => 1000 * (strtoul text).1
    let packetSize ← numberArg argv[first + 1]? id 256
    let rateInKbps ← numberArg argv[first + 2]? roundToKbps 10
    some { durationInMs, packetSize, rateInKbps }

/-- `shell_cmd_upload`, once its address is parsed and its contexts are set up -/
def shellCmdUpload (argv : List (List Char)) : Option UploadArgs := uploadArgs argv 3

/-- `shell_cmd_upload2` -/
def shellCmdUpload2 (argv : List (List Char)) : Option UploadArgs := uploadArgs argv 2

inductive Command where
  | upload
  | upload2
  deriving DecidableEq

namespace Command

/-- Where the arguments of a command start. -/
def first : Command → Nat
  | upload => 3
  | upload2 => 2

def args : Command → List (List Char) → Option UploadArgs
  | upload => shellCmdUpload
  | upload2 => shellCmdUpload2

theorem args_eq (command : Command) (argv : List (List Char)) :
    command.args argv = uploadArgs argv command.first := by
  cases command <;> rfl

end Command

/-! ## The loop -/

/-- `USEC_TO_HW_CYCLES`, whose product wraps in 64 bits -/
def usecToHwCycles (hz : BitVec 32) (usec : BitVec 64) : BitVec 64 :=
  usec * hz.setWidth 64 / usecPerSec.setWidth 64

/-- `SEC_TO_HW_CYCLES` -/
def secToHwCycles (hz : BitVec 32) (sec : BitVec 64) : BitVec 64 :=
  usecToHwCycles hz (sec * 1000000)

/-- `MSEC_TO_HW_CYCLES` -/
def msecToHwCycles (hz : BitVec 32) (msec : BitVec 64) : BitVec 64 :=
  usecToHwCycles hz (msec * 1000)

/-- The values that `zperf_udp_upload` computes before its loop. -/
structure Setup where
  hz : BitVec 32
  /-- Whether `CONFIG_ARCH_POSIX` is set: the wait is then one busy wait that reads no counter. -/
  posix : Bool
  packetDuration : BitVec 32
  duration : BitVec 32
  printInterval : BitVec 32
  packetSize : BitVec 32
  deriving DecidableEq

namespace UploadArgs

/-- What the packet size is divided by. -/
def divisor (args : UploadArgs) : BitVec 32 := args.rateInKbps * 1024

/-- `packet_size`, cut to `PACKET_SIZE_MAX` or raised to a header. -/
def sentSize (args : UploadArgs) : BitVec 32 :=
  if 1024 < args.packetSize then 1024 else if args.packetSize < 12 then 12 else args.packetSize

/-- The result is `none` if the division by the rate is one by 0. -/
def setup (args : UploadArgs) (hz : BitVec 32) (posix : Bool) : Option Setup :=
  if args.divisor = 0 then none
  else some
    { hz, posix
      packetDuration := (args.packetSize.setWidth 64 * secToHwCycles hz 1 * 8 /
        args.divisor.setWidth 64).setWidth 32
      duration := (msecToHwCycles hz (args.durationInMs.setWidth 64)).setWidth 32
      printInterval := (secToHwCycles hz 1).setWidth 32
      packetSize := args.sentSize }

end UploadArgs

/-- Where the loop next reads the counter: at the start of an iteration, in its wait, or no more. -/
inductive Phase where
  | iterating
  | waiting
  | left
  deriving DecidableEq

structure Loop where
  startTime : BitVec 32
  lastPrintTime : BitVec 32
  lastLoopTime : BitVec 32
  delay : BitVec 32
  nbPackets : BitVec 32 := 0
  /-- The datagrams sent, of `packetSize` bytes each. -/
  sent : List UdpDatagram := []
  phase : Phase := .iterating
  deriving DecidableEq

/-- What an iteration makes of the delay. -/
def corrected (delay adjust : BitVec 32) : BitVec 32 :=
  if 0 ≤ adjust.toInt ∨ -adjust < delay then delay + adjust else 0

namespace Loop

variable (setup : Setup) (loop : Loop) (loopTime : BitVec 32)

/-- The loop before its first iteration, where `start_time` was read. -/
def start (time : BitVec 32) : Loop :=
  { startTime := time, lastPrintTime := time, lastLoopTime := time, delay := setup.packetDuration }

/-- The condition of the loop. -/
def again : Loop :=
  if timeDelta loop.startTime loop.lastLoopTime < setup.duration then
    { loop with phase := .iterating }
  else { loop with phase := .left }

def adjust : BitVec 32 :=
  if loop.lastLoopTime ≠ loopTime then
    setup.packetDuration - timeDelta loop.lastLoopTime loopTime
  else 0

def datagram : UdpDatagram :=
  let usec := loopTime.toNat * usecPerSec.toNat / setup.hz.toNat
  { id := loop.nbPackets
    tvSec := BitVec.ofNat 32 (usec / usecPerSec.toNat)
    tvUsec := BitVec.ofNat 32 (usec % usecPerSec.toNat) }

/-- An iteration up to its wait.  `sends` is whether `net_context_send` sends the datagram. -/
def iterate (sends : Bool) : Loop :=
  let timed :=
    { loop with
      delay := corrected loop.delay (loop.adjust setup loopTime)
      lastLoopTime := loopTime }
  if sends then
    let counted :=
      { timed with
        nbPackets := loop.nbPackets + 1
        sent := loop.sent ++ [loop.datagram setup loopTime]
        lastPrintTime :=
          if setup.printInterval < timeDelta loop.lastPrintTime loopTime then loopTime
          else loop.lastPrintTime }
    if setup.posix then counted.again setup else { counted with phase := .waiting }
  else { timed with phase := .left }

/-- What the loop does with one reading of the counter. -/
def next (time : BitVec 32) (sends : Bool) : Loop :=
  match loop.phase with
  | .iterating => loop.iterate setup time sends
  | .waiting => if timeDelta loop.lastLoopTime time < loop.delay then loop else loop.again setup
  | .left => loop

end Loop

/-! ## The time that passes -/

/-- One reading of the counter: how many cycles it is after the one before, and whether the datagram
is sent if the reading starts an iteration. -/
structure Reading where
  gap : BitVec 31
  sends : Bool := true
  deriving DecidableEq

/-- The loop with the true number of cycles at its start, at its last iteration and at the last
reading. -/
structure Timed where
  loop : Loop
  start : Nat
  last : Nat
  now : Nat
  startTime : loop.startTime = BitVec.ofNat 32 start
  lastLoopTime : loop.lastLoopTime = BitVec.ofNat 32 last
  start_le : start ≤ last
  le_now : last ≤ now

section Fields

variable (setup : Setup) (loop : Loop) (time : BitVec 32) (sends : Bool)

@[simp] theorem again_startTime : (loop.again setup).startTime = loop.startTime := by
  unfold Loop.again
  split <;> rfl

@[simp] theorem again_lastLoopTime : (loop.again setup).lastLoopTime = loop.lastLoopTime := by
  unfold Loop.again
  split <;> rfl

@[simp] theorem again_delay : (loop.again setup).delay = loop.delay := by
  unfold Loop.again
  split <;> rfl

@[simp] theorem iterate_startTime :
    (loop.iterate setup time sends).startTime = loop.startTime := by
  unfold Loop.iterate
  cases sends <;> cases setup.posix <;> simp

@[simp] theorem iterate_lastLoopTime : (loop.iterate setup time sends).lastLoopTime = time := by
  unfold Loop.iterate
  cases sends <;> cases setup.posix <;> simp

@[simp] theorem iterate_delay :
    (loop.iterate setup time sends).delay = corrected loop.delay (loop.adjust setup time) := by
  unfold Loop.iterate
  cases sends <;> cases setup.posix <;> simp

theorem next_startTime : (loop.next setup time sends).startTime = loop.startTime := by
  unfold Loop.next
  split
  · exact iterate_startTime setup loop time sends
  · split
    · rfl
    · exact again_startTime setup loop
  · rfl

theorem next_lastLoopTime : (loop.next setup time sends).lastLoopTime =
    if loop.phase = .iterating then time else loop.lastLoopTime := by
  unfold Loop.next
  cases loop.phase with
  | iterating =>
    rw [if_pos rfl]
    exact iterate_lastLoopTime setup loop time sends
  | waiting =>
    rw [if_neg (by decide : Phase.waiting ≠ .iterating)]
    dsimp only
    split
    · rfl
    · exact again_lastLoopTime setup loop
  | left => rw [if_neg (by decide : Phase.left ≠ .iterating)]

end Fields

namespace Timed

variable (setup : Setup) (s : Timed) (r : Reading)

/-- The loop entered when the counter has made `time` cycles. -/
def enter (time : Nat) : Timed where
  loop := Loop.start setup (BitVec.ofNat 32 time)
  start := time
  last := time
  now := time
  startTime := rfl
  lastLoopTime := rfl
  start_le := Nat.le_refl time
  le_now := Nat.le_refl time

def step : Timed where
  loop := s.loop.next setup (BitVec.ofNat 32 (s.now + r.gap.toNat)) r.sends
  start := s.start
  last := if s.loop.phase = .iterating then s.now + r.gap.toNat else s.last
  now := s.now + r.gap.toNat
  startTime := by rw [next_startTime, s.startTime]
  lastLoopTime := by
    rw [next_lastLoopTime]
    split
    · rfl
    · exact s.lastLoopTime
  start_le := by
    have := s.start_le
    have := s.le_now
    split <;> omega
  le_now := by
    have := s.le_now
    split <;> omega

/-- The cycles from the start to the last iteration. -/
def elapsed : Nat := s.last - s.start

end Timed

/-! ## What the loop is to do -/

/-- `elapsed` cycles are at least that many milliseconds. -/
def Reached (ms hz elapsed : Nat) : Prop := ms * hz ≤ 1000 * elapsed

/-- What an iteration whose reading is `r` is to add to the delay: the duration of a packet less the
cycles since the iteration before, or since the start if there is none. -/
def correction (setup : Setup) (s : Timed) (r : Reading) : Int :=
  (setup.packetDuration.toNat : Int) - (s.now + r.gap.toNat - s.last)

/-- An iteration corrects the delay, which is never negative, and the loop is left after the first
iteration that reaches the duration. -/
structure Right (ms : Nat) (setup : Setup) (s : Timed) (r : Reading) : Prop where
  delay : s.loop.phase = .iterating →
    ((s.step setup r).loop.delay.toNat : Int) =
      max 0 ((s.loop.delay.toNat : Int) + correction setup s r)
  stop : s.loop.phase ≠ .left → (s.step setup r).loop.phase ≠ .waiting →
    ((s.step setup r).loop.phase = .left ↔ Reached ms setup.hz.toNat (s.step setup r).elapsed)

/-- The upload is not stopped by a division by 0, and every step of its loop is right. -/
structure Paced (args : UploadArgs) (hz : BitVec 32) (posix : Bool) (time : Nat)
    (readings : List Reading) : Prop where
  divisor : args.divisor ≠ 0
  steps : ∀ setup, args.setup hz posix = some setup →
    Along (Timed.step setup) (Right args.durationInMs.toNat setup) (.enter setup time) readings

/-- The rate of the command line, if it has one, is none of those that are rounded to 0. -/
def RateCounts (command : Command) (argv : List (List Char)) : Prop :=
  ∀ text n, argv[command.first + 2]? = some text → parseNumber text Table.k.rows = some n →
    ¬ (-2046 ≤ n.toInt ∧ n.toInt ≤ 0)

/-- The counter has not wrapped since `start`, and the elapsed cycles are not the very ones before
the duration, which the division by 1000 makes out as the duration. -/
structure Punctual (ms hz start elapsed : Nat) : Prop where
  unwrapped : start % 2 ^ 32 + elapsed < 2 ^ 32
  whole : ms * hz ≤ 1000 * elapsed ∨ 1000 * elapsed + 1000 ≤ ms * hz

/-- What an iteration whose reading is `r` is right under: two iterations do not read the same time,
the correction fits in 32 bits with its sign and the delay without, and a datagram that cannot be
sent is the last one anyway. -/
structure Careful (ms : Nat) (setup : Setup) (s : Timed) (r : Reading) : Prop where
  punctual : Punctual ms setup.hz.toNat s.start (s.now + r.gap.toNat - s.start)
  distinct : s.now + r.gap.toNat = s.last → setup.packetDuration = 0
  signed : -2 ^ 31 ≤ correction setup s r ∧ correction setup s r < 2 ^ 31
  bounded : (s.loop.delay.toNat : Int) + correction setup s r < 2 ^ 32
  sends : r.sends = false → Reached ms setup.hz.toNat (s.now + r.gap.toNat - s.start)

/-- An iteration is careful; the readings of a wait are free. -/
def Heedful (ms : Nat) (setup : Setup) (s : Timed) (r : Reading) : Prop :=
  s.loop.phase = .iterating → Careful ms setup s r

section Decidable

variable (ms : Nat) (setup : Setup) (s : Timed) (r : Reading)

instance (hz elapsed : Nat) : Decidable (Reached ms hz elapsed) :=
  inferInstanceAs (Decidable (ms * hz ≤ 1000 * elapsed))

instance (hz start elapsed : Nat) : Decidable (Punctual ms hz start elapsed) :=
  decidable_of_iff (start % 2 ^ 32 + elapsed < 2 ^ 32 ∧
      (ms * hz ≤ 1000 * elapsed ∨ 1000 * elapsed + 1000 ≤ ms * hz))
    ⟨fun ⟨h, h'⟩ => ⟨h, h'⟩, fun ⟨h, h'⟩ => ⟨h, h'⟩⟩

instance : Decidable (Careful ms setup s r) :=
  decidable_of_iff (Punctual ms setup.hz.toNat s.start (s.now + r.gap.toNat - s.start) ∧
      (s.now + r.gap.toNat = s.last → setup.packetDuration = 0) ∧
      (-2 ^ 31 ≤ correction setup s r ∧ correction setup s r < 2 ^ 31) ∧
      (s.loop.delay.toNat : Int) + correction setup s r < 2 ^ 32 ∧
      (r.sends = false → Reached ms setup.hz.toNat (s.now + r.gap.toNat - s.start)))
    ⟨fun ⟨h₁, h₂, h₃, h₄, h₅⟩ => ⟨h₁, h₂, h₃, h₄, h₅⟩,
      fun ⟨h₁, h₂, h₃, h₄, h₅⟩ => ⟨h₁, h₂, h₃, h₄, h₅⟩⟩

instance : Decidable (Heedful ms setup s r) :=
  inferInstanceAs (Decidable (s.loop.phase = .iterating → Careful ms setup s r))

end Decidable

/-! ## The rate -/

/-- A division by 1024 rounds towards 0. -/
theorem tdiv_1024_cases (m : Int) :
    0 ≤ m ∧ m.tdiv 1024 = m / 1024 ∨ m < 0 ∧ m.tdiv 1024 = -(-m / 1024) := by
  by_cases h : 0 ≤ m
  · exact Or.inl ⟨h, Int.tdiv_eq_ediv_of_nonneg h⟩
  · have hneg : (-m).tdiv 1024 = -m / 1024 := Int.tdiv_eq_ediv_of_nonneg (by omega)
    rw [Int.neg_tdiv] at hneg
    exact Or.inr ⟨by omega, by omega⟩

theorem toInt_roundToKbps (n : BitVec 32) :
    (roundToKbps n).toInt = (n + 1023).toInt.tdiv 1024 := by
  have hlow := BitVec.le_toInt (n + 1023)
  have hhigh := BitVec.toInt_lt (x := n + 1023)
  have h1024 : (1024 : BitVec 32).toInt = 1024 := by decide
  rw [roundToKbps, BitVec.toInt_sdiv, h1024]
  apply Int.bmod_eq_of_le <;> rcases tdiv_1024_cases (n + 1023).toInt with ⟨_, h⟩ | ⟨_, h⟩ <;> omega

theorem roundToKbps_mul_eq_zero_iff (n : BitVec 32) :
    roundToKbps n * 1024 = 0 ↔ -2046 ≤ n.toInt ∧ n.toInt ≤ 0 := by
  have hlow := BitVec.le_toInt (n + 1023)
  have hhigh := BitVec.toInt_lt (x := n + 1023)
  have hnlow := BitVec.le_toInt n
  have hnhigh := BitVec.toInt_lt (x := n)
  have h1024 : (1024 : BitVec 32).toInt = 1024 := by decide
  have h0 : (0 : BitVec 32).toInt = 0 := by decide
  have hsmall : roundToKbps n * 1024 = 0 ↔ -1023 ≤ (n + 1023).toInt ∧ (n + 1023).toInt ≤ 1023 := by
    rw [← BitVec.toInt_inj, BitVec.toInt_mul, toInt_roundToKbps, h1024, h0]
    rcases tdiv_1024_cases (n + 1023).toInt with ⟨hsign, h⟩ | ⟨hsign, h⟩
    · rw [h, Int.bmod_eq_of_le (by omega) (by omega)]
      omega
    · rw [h, Int.bmod_eq_of_le (by omega) (by omega)]
      omega
  rw [hsmall]
  have hsum : (n + 1023).toInt = (n.toInt + 1023).bmod (2 ^ 32) := BitVec.toInt_add n 1023
  have hwrap := Int.bmod_def (n.toInt + 1023) (2 ^ 32)
  rw [← hsum] at hwrap
  split at hwrap <;> omega

theorem uploadArgs_rate {argv : List (List Char)} {first : Nat} {args : UploadArgs}
    (h : uploadArgs argv first = some args) :
    argv[first + 2]? = none ∧ args.rateInKbps = 10 ∨
      ∃ text n, argv[first + 2]? = some text ∧ parseNumber text Table.k.rows = some n ∧
        args.rateInKbps = roundToKbps n := by
  unfold uploadArgs at h
  split at h
  case isTrue => cases h
  case isFalse =>
    obtain ⟨packetSize, _, h⟩ := Option.bind_eq_some_iff.mp h
    obtain ⟨rateInKbps, hrate, h⟩ := Option.bind_eq_some_iff.mp h
    obtain rfl := Option.some.inj h
    cases htext : argv[first + 2]? with
    | none =>
      rw [htext] at hrate
      exact Or.inl ⟨rfl, (Option.some.inj hrate).symm⟩
    | some text =>
      rw [htext] at hrate
      obtain ⟨n, hn, hround⟩ := Option.map_eq_some_iff.mp hrate
      exact Or.inr ⟨text, n, rfl, hn, hround.symm⟩

/-- The upload divides by 0 for exactly the rates that are rounded to 0. -/
theorem divisor_ne_zero_iff {command : Command} {argv : List (List Char)} {args : UploadArgs}
    (h : command.args argv = some args) : args.divisor ≠ 0 ↔ RateCounts command argv := by
  rw [command.args_eq] at h
  rcases uploadArgs_rate h with ⟨hnone, hrate⟩ | ⟨text, n, hsome, hn, hrate⟩
  · apply iff_of_true
    · rw [UploadArgs.divisor, hrate]
      decide
    · intro text n htext
      rw [hnone] at htext
      cases htext
  · rw [UploadArgs.divisor, hrate, Ne, roundToKbps_mul_eq_zero_iff]
    constructor
    · intro hcounts text' n' htext' hn'
      obtain rfl := Option.some.inj (hsome.symm.trans htext')
      obtain rfl := Option.some.inj (hn.symm.trans hn')
      exact hcounts
    · intro hcounts
      exact hcounts text n hsome hn

/-! ## The words -/

theorem timeDelta_ofNat {start time : Nat} (hle : start ≤ time)
    (h : start % 2 ^ 32 + (time - start) < 2 ^ 32) :
    (timeDelta (BitVec.ofNat 32 start) (BitVec.ofNat 32 time)).toNat = time - start := by
  have hreading : time % 2 ^ 32 = start % 2 ^ 32 + (time - start) := by omega
  have hle' : BitVec.ofNat 32 start ≤ BitVec.ofNat 32 time := by
    rw [BitVec.le_def, BitVec.toNat_ofNat, BitVec.toNat_ofNat]
    omega
  rw [timeDelta, if_pos hle', BitVec.toNat_sub_of_le hle', BitVec.toNat_ofNat, BitVec.toNat_ofNat]
  omega

theorem toInt_sub_eq {a b : BitVec 32} (hlow : -2 ^ 31 ≤ (a.toNat : Int) - b.toNat)
    (hhigh : (a.toNat : Int) - b.toNat < 2 ^ 31) : (a - b).toInt = (a.toNat : Int) - b.toNat := by
  have hsub := BitVec.toNat_sub a b
  have ha := a.isLt
  have hb := b.isLt
  rw [BitVec.toInt_eq_toNat_cond]
  split <;> omega

theorem corrected_toNat {delay adjust : BitVec 32}
    (h : (delay.toNat : Int) + adjust.toInt < 2 ^ 32) :
    ((corrected delay adjust).toNat : Int) = max 0 ((delay.toNat : Int) + adjust.toInt) := by
  have hdelay := delay.isLt
  have hadjust := adjust.isLt
  have hsigned := BitVec.toInt_eq_toNat_cond adjust
  have hmore : -adjust < delay ↔ (2 ^ 32 - adjust.toNat) % 2 ^ 32 < delay.toNat := by
    rw [BitVec.lt_def, BitVec.toNat_neg]
  unfold corrected
  split
  case isTrue hkept =>
    rw [hmore] at hkept
    rw [BitVec.toNat_add]
    split at hsigned <;> omega
  case isFalse hlost =>
    rw [hmore] at hlost
    show (0 : Int) = _
    split at hsigned <;> omega

/-! ## The steps -/

theorem msecToHwCycles_toNat {hz ms : BitVec 32} (hfits : ms.toNat * hz.toNat < 1000 * 2 ^ 32) :
    (msecToHwCycles hz (ms.setWidth 64)).toNat = ms.toNat * hz.toNat / 1000 := by
  have hms := ms.isLt
  have hhz := hz.isLt
  have hproduct : ms.toNat * 1000 * hz.toNat < 2 ^ 64 := by
    rw [Nat.mul_right_comm]
    omega
  have husec : (usecPerSec.setWidth 64).toNat = 1000 * 1000 := by decide
  have h1000 : (1000 : BitVec 64).toNat = 1000 := by decide
  rw [msecToHwCycles, usecToHwCycles, BitVec.toNat_udiv, BitVec.toNat_mul, BitVec.toNat_mul,
    BitVec.toNat_setWidth, BitVec.toNat_setWidth, husec, h1000,
    Nat.mod_eq_of_lt (by omega : ms.toNat < 2 ^ 64),
    Nat.mod_eq_of_lt (by omega : hz.toNat < 2 ^ 64),
    Nat.mod_eq_of_lt (by omega : ms.toNat * 1000 < 2 ^ 64), Nat.mod_eq_of_lt hproduct,
    Nat.mul_right_comm, Nat.mul_div_mul_right _ _ (by decide : 0 < 1000)]

theorem setup_eq {args : UploadArgs} {hz : BitVec 32} {posix : Bool} {setup : Setup}
    (h : args.setup hz posix = some setup) :
    setup.hz = hz ∧
      setup.duration = (msecToHwCycles hz (args.durationInMs.setWidth 64)).setWidth 32 := by
  unfold UploadArgs.setup at h
  split at h
  case isTrue => cases h
  case isFalse =>
    obtain rfl := Option.some.inj h
    exact ⟨rfl, rfl⟩

theorem again_phase (setup : Setup) (loop : Loop) : (loop.again setup).phase =
    if timeDelta loop.startTime loop.lastLoopTime < setup.duration then .iterating else .left := by
  unfold Loop.again
  split <;> rfl

/-- A step that leaves an iteration does so by the condition of the loop, or for want of sending. -/
theorem next_phase_cases (setup : Setup) (loop : Loop) (time : BitVec 32) (sends : Bool) :
    loop.phase = .left ∧ (loop.next setup time sends).phase = .left ∨
    (loop.next setup time sends).phase = .waiting ∨
    loop.phase = .iterating ∧ sends = false ∧ (loop.next setup time sends).phase = .left ∨
    (loop.next setup time sends).phase =
      if timeDelta (loop.next setup time sends).startTime
          (loop.next setup time sends).lastLoopTime < setup.duration then .iterating
      else .left := by
  rw [next_startTime, next_lastLoopTime]
  unfold Loop.next
  cases hphase : loop.phase with
  | iterating =>
    rw [if_pos rfl]
    dsimp only
    unfold Loop.iterate
    cases sends with
    | false => exact Or.inr (Or.inr (Or.inl ⟨rfl, rfl, rfl⟩))
    | true =>
      cases setup.posix with
      | false => exact Or.inr (Or.inl rfl)
      | true => exact Or.inr (Or.inr (Or.inr (again_phase setup _)))
  | waiting =>
    rw [if_neg (by decide : Phase.waiting ≠ .iterating)]
    dsimp only
    split
    · exact Or.inr (Or.inl hphase)
    · exact Or.inr (Or.inr (Or.inr (again_phase setup loop)))
  | left => exact Or.inl ⟨rfl, hphase⟩

namespace Timed

variable {ms : Nat} {setup : Setup} {s : Timed} {r : Reading}

/-- The iteration waited for was punctual. -/
def Kept (ms : Nat) (setup : Setup) (s : Timed) : Prop :=
  s.loop.phase = .waiting → Punctual ms setup.hz.toNat s.start s.elapsed

theorem step_last_of_iterating (h : s.loop.phase = .iterating) :
    (s.step setup r).last = s.now + r.gap.toNat := if_pos h

theorem step_last_of_waiting (h : s.loop.phase = .waiting) : (s.step setup r).last = s.last :=
  if_neg (by rw [h]; decide)

theorem step_punctual (hkept : Kept ms setup s) (hheed : Heedful ms setup s r)
    (hphase : s.loop.phase ≠ .left) :
    Punctual ms setup.hz.toNat (s.step setup r).start (s.step setup r).elapsed := by
  cases h : s.loop.phase with
  | iterating =>
    rw [elapsed, step_last_of_iterating h]
    exact (hheed h).punctual
  | waiting =>
    rw [elapsed, step_last_of_waiting h]
    exact hkept h
  | left => exact absurd h hphase

theorem adjust_toInt (hcareful : Careful ms setup s r) :
    (s.loop.adjust setup (BitVec.ofNat 32 (s.now + r.gap.toNat))).toInt = correction setup s r := by
  have hunwrapped := hcareful.punctual.unwrapped
  have hsigned := hcareful.signed
  have hstart := s.start_le
  have hnow := s.le_now
  unfold correction at hsigned ⊢
  have hdelta : (timeDelta s.loop.lastLoopTime (BitVec.ofNat 32 (s.now + r.gap.toNat))).toNat =
      s.now + r.gap.toNat - s.last := by
    rw [s.lastLoopTime]
    exact timeDelta_ofNat (by omega) (by omega)
  unfold Loop.adjust
  split
  case isTrue =>
    rw [toInt_sub_eq (by omega) (by omega)]
    omega
  case isFalse hsame =>
    have hsame := congrArg BitVec.toNat (not_not.mp hsame)
    rw [s.lastLoopTime, BitVec.toNat_ofNat, BitVec.toNat_ofNat] at hsame
    have hlast : s.now + r.gap.toNat = s.last := by omega
    have hnone : setup.packetDuration.toNat = 0 := by rw [hcareful.distinct hlast]; rfl
    show (0 : Int) = _
    omega

theorem step_delay (hcareful : Careful ms setup s r) (hphase : s.loop.phase = .iterating) :
    ((s.step setup r).loop.delay.toNat : Int) =
      max 0 ((s.loop.delay.toNat : Int) + correction setup s r) := by
  have hdelay : (s.step setup r).loop.delay = corrected s.loop.delay
      (s.loop.adjust setup (BitVec.ofNat 32 (s.now + r.gap.toNat))) := by
    show (s.loop.next setup _ r.sends).delay = _
    unfold Loop.next
    rw [hphase]
    exact iterate_delay setup s.loop _ r.sends
  have hadjust := adjust_toInt hcareful
  have hbounded := hcareful.bounded
  rw [← hadjust] at hbounded ⊢
  rw [hdelay, corrected_toNat hbounded]

theorem decided_left_iff (hduration : setup.duration.toNat = ms * setup.hz.toNat / 1000)
    (hpunctual : Punctual ms setup.hz.toNat s.start s.elapsed) :
    (if timeDelta s.loop.startTime s.loop.lastLoopTime < setup.duration then Phase.iterating
      else .left) = .left ↔ Reached ms setup.hz.toNat s.elapsed := by
  have hwhole := hpunctual.whole
  have hdelta : (timeDelta s.loop.startTime s.loop.lastLoopTime).toNat = s.elapsed := by
    rw [s.startTime, s.lastLoopTime]
    exact timeDelta_ofNat s.start_le hpunctual.unwrapped
  unfold Reached
  split
  case isTrue hless =>
    rw [BitVec.lt_def, hdelta, hduration] at hless
    exact iff_of_false (by decide) (by omega)
  case isFalse hreached =>
    rw [BitVec.lt_def, hdelta, hduration] at hreached
    exact iff_of_true rfl (by omega)

theorem step_right (hduration : setup.duration.toNat = ms * setup.hz.toNat / 1000)
    (hkept : Kept ms setup s) (hheed : Heedful ms setup s r) :
    Kept ms setup (s.step setup r) ∧ Right ms setup s r := by
  have hcases := next_phase_cases setup s.loop (BitVec.ofNat 32 (s.now + r.gap.toNat)) r.sends
  refine ⟨fun hwaiting => ?_, fun h => step_delay (hheed h) h, fun hphase hwaiting => ?_⟩
  · refine step_punctual hkept hheed fun hleft => ?_
    have hstays : (s.step setup r).loop.phase = .left := by
      show (s.loop.next setup _ r.sends).phase = .left
      unfold Loop.next
      rw [hleft]
      exact hleft
    rw [hstays] at hwaiting
    cases hwaiting
  · rcases hcases with ⟨hleft, _⟩ | hwaits | ⟨hiterating, hsends, hleft⟩ | hdecided
    · exact absurd hleft hphase
    · exact absurd hwaits hwaiting
    · have hreached := (hheed hiterating).sends hsends
      rw [elapsed, step_last_of_iterating hiterating]
      exact iff_of_true hleft hreached
    · have hpunctual := step_punctual hkept hheed hphase
      rw [← decided_left_iff hduration hpunctual]
      exact iff_of_eq (congrArg (· = Phase.left) hdecided)

end Timed

/-- What the upload is to do it does in every run of careful iterations, if the duration fits the
counter and the rate is not rounded to 0. -/
theorem paced_of_heedful {command : Command} {argv : List (List Char)} {args : UploadArgs}
    (hargs : command.args argv = some args) (hz : BitVec 32) (posix : Bool) (time : Nat)
    (readings : List Reading) (hcounts : RateCounts command argv)
    (hfits : args.durationInMs.toNat * hz.toNat < 1000 * 2 ^ 32)
    (hheed : ∀ setup, args.setup hz posix = some setup →
      Along (Timed.step setup) (Heedful args.durationInMs.toNat setup) (.enter setup time)
        readings) :
    Paced args hz posix time readings := by
  refine ⟨(divisor_ne_zero_iff hargs).mpr hcounts, fun setup hsetup => ?_⟩
  obtain ⟨rfl, hduration⟩ := setup_eq hsetup
  have hduration : setup.duration.toNat = args.durationInMs.toNat * setup.hz.toNat / 1000 := by
    rw [hduration, BitVec.toNat_setWidth, msecToHwCycles_toNat hfits]
    omega
  exact Along.imp_of_invariant _ (fun s r => Timed.step_right hduration)
    (fun h => Phase.noConfusion h) (hheed setup hsetup)

theorem paced_twice :
    Paced { durationInMs := 1000, packetSize := 1024, rateInKbps := 8 } 1000 false 5
      [{ gap := 10 }, { gap := 2000 }, { gap := 0 }, { gap := 990 }] := by
  have hargs : Command.upload.args
      ["upload".toList, "192.0.2.2".toList, "5001".toList, "1".toList, "1K".toList, "8K".toList] =
      some { durationInMs := 1000, packetSize := 1024, rateInKbps := 8 } := by decide +kernel
  refine paced_of_heedful hargs 1000 false 5 _ ?_ (by decide) ?_
  · intro text n htext hn
    obtain rfl := Option.some.inj htext
    have hread : parseNumber "8K".toList Table.k.rows = some 8192 := by decide +kernel
    obtain rfl := Option.some.inj (hread.symm.trans hn)
    decide
  · intro setup hsetup
    obtain rfl := Option.some.inj hsetup
    decide +kernel

/-- A rate of 0 is divided by, and a counter that wraps takes one cycle too few from the delay. -/
theorem upload_not_paced :
    (∃ args, Command.upload.args ["upload".toList, "192.0.2.2".toList, "5001".toList, "1".toList,
        "1K".toList, "0".toList] = some args ∧ ¬ Paced args 1000 false 0 []) ∧
    ∃ args, Command.upload.args ["upload".toList, "192.0.2.2".toList, "5001".toList, "1".toList,
        "1K".toList, "8K".toList] = some args ∧
      ¬ Paced args 1000 false (2 ^ 32 - 5) [{ gap := 10 }] := by
  refine ⟨⟨{ durationInMs := 1000, packetSize := 1024, rateInKbps := 0 }, by decide +kernel, ?_⟩,
    ⟨{ durationInMs := 1000, packetSize := 1024, rateInKbps := 8 }, by decide +kernel, ?_⟩⟩
  · intro h
    exact h.divisor rfl
  · intro h
    have hdelay := (h.steps _ rfl).1.delay rfl
    exact absurd hdelay (by decide +kernel)

/-! ## The datagrams -/

/-- The datagrams sent are numbered from 0 on. -/
structure Numbered (loop : Loop) : Prop where
  nbPackets : loop.nbPackets = BitVec.ofNat 32 loop.sent.length
  ids : loop.sent.map UdpDatagram.id = (List.range loop.sent.length).map (BitVec.ofNat 32)

theorem Numbered.again {setup : Setup} {loop : Loop} (h : Numbered loop) :
    Numbered (loop.again setup) := by
  unfold Loop.again
  split <;> exact ⟨h.nbPackets, h.ids⟩

theorem Numbered.iterate {setup : Setup} {loop : Loop} {time : BitVec 32} {sends : Bool}
    (h : Numbered loop) : Numbered (loop.iterate setup time sends) := by
  have hcount : loop.nbPackets + 1 =
      BitVec.ofNat 32 (loop.sent ++ [loop.datagram setup time]).length := by
    rw [List.length_append, h.nbPackets, BitVec.ofNat_add]
    rfl
  have hids : (loop.sent ++ [loop.datagram setup time]).map UdpDatagram.id =
      (List.range (loop.sent ++ [loop.datagram setup time]).length).map (BitVec.ofNat 32) := by
    rw [List.length_append, List.length_singleton, List.range_succ, List.map_append,
      List.map_append, h.ids, List.map_singleton, List.map_singleton, ← h.nbPackets]
    rfl
  unfold Loop.iterate
  cases sends with
  | false => exact ⟨h.nbPackets, h.ids⟩
  | true =>
    cases setup.posix with
    | false => exact ⟨hcount, hids⟩
    | true => exact Numbered.again ⟨hcount, hids⟩

theorem Numbered.next {setup : Setup} {loop : Loop} {time : BitVec 32} {sends : Bool}
    (h : Numbered loop) : Numbered (loop.next setup time sends) := by
  unfold Loop.next
  cases loop.phase with
  | iterating => exact h.iterate
  | waiting =>
    dsimp only
    split
    · exact h
    · exact h.again
  | left => exact h

/-- Whatever the readings, the server is sent the ids that it counts with. -/
theorem run_numbered (setup : Setup) (time : Nat) (readings : List Reading) :
    Numbered (run (Timed.step setup) (.enter setup time) readings).loop :=
  run_invariant (I := fun s => Numbered s.loop) (Timed.step setup) (fun _ _ h => h.next) ⟨rfl, rfl⟩
    readings

end Zperf
end ZephyrSamples
