import Mathlib.Tactic.ByContra

/-!
# The PECI sample

`peci_get_tjmax` asks up to three times for the package's `tjmax` and reads the answer through the
response buffer.  `peci_get_temp` turns a sixteen bit reading, in sixty-fourths of a degree from
`tjmax`, into degrees.  A transfer is what `peci_transfer` returns, together with what the response
buffer holds after it. -/

namespace ZephyrSamples
namespace Peci

abbrev Byte := BitVec 8

/-- The numbers of the PECI header that the sample uses. -/
structure Header where
  rdPkgLenDword : Nat
  rwPkgCfgRspPass : Byte
  getTempRdLen : Nat

/-- A call of `peci_transfer`: what it returns, and the response buffer after it. -/
structure Transfer where
  ret : Int
  buf : Nat → Byte

/-- The sample's static variables. -/
structure Statics where
  tjmax : Byte
  rxFcs : Byte

def peciSafeTemp : Int := 72

variable (header : Header)

/-! ## `peci_get_tjmax` -/

/-- The retry loop from its call number `calls` on, with the given number of
retries left: the transfer it ends with, and how many there were by then.

The loop looks at the response code only; what `peci_transfer` returned is stored
and not read. -/
def tjmaxLoop (transfers : Nat → Transfer) (calls : Nat) : Nat → Transfer × Nat
  | 0 => (transfers calls, calls + 1)
  | retries + 1 =>
    let peciResp := (transfers calls).buf 0
    if peciResp ≠ header.rwPkgCfgRspPass ∧ retries > 0 then
      tjmaxLoop transfers (calls + 1) retries
    else (transfers calls, calls + 1)

/-- What a call of `peci_get_tjmax` comes to. -/
structure TjmaxResult where
  ret : Int
  attempts : Nat
  statics : Statics

/-- Three retries, then `buf[3]` of the last attempt, whatever its code was. -/
def peciGetTjmax (transfers : Nat → Transfer) : TjmaxResult :=
  let (packet, attempts) := tjmaxLoop header transfers 0 3
  { ret := 0, attempts,
    statics := { tjmax := packet.buf 3, rxFcs := packet.buf header.rdPkgLenDword } }

/-- The transfer went through, and the package answered that it passed. -/
def Transfer.Passed (t : Transfer) : Prop := t.ret = 0 ∧ t.buf 0 = header.rwPkgCfgRspPass

/-- What reading `tjmax` should come to: the value is left alone or is byte 3 of
an attempt that passed, there are three attempts at most, and an error is
reported exactly when none of them passed. -/
structure TjmaxMeets (transfers : Nat → Transfer) (before : Statics) : Prop where
  source : (peciGetTjmax header transfers).statics.tjmax ≠ before.tjmax →
    ∃ k < (peciGetTjmax header transfers).attempts, (transfers k).Passed header ∧
      (peciGetTjmax header transfers).statics.tjmax = (transfers k).buf 3
  attempts : (peciGetTjmax header transfers).attempts ≤ 3
  reports : (peciGetTjmax header transfers).ret ≠ 0 ↔
    ∀ k < (peciGetTjmax header transfers).attempts, ¬ (transfers k).Passed header

/-- Among the first three transfers there is one with the code for passed, and
the first of them went through. -/
def FirstPassWentThrough (transfers : Nat → Transfer) : Prop :=
  ∃ k < 3, (∀ j < k, (transfers j).buf 0 ≠ header.rwPkgCfgRspPass) ∧
    (transfers k).Passed header

/-- What the loop ends with: the transfers before the last one had another code,
and the last one has the code or used up the last retry. -/
theorem tjmaxLoop_spec (transfers : Nat → Transfer) (retries calls : Nat) :
    ∃ k, tjmaxLoop header transfers calls (retries + 1) = (transfers (calls + k), calls + k + 1)
      ∧ k ≤ retries
      ∧ (∀ j < k, (transfers (calls + j)).buf 0 ≠ header.rwPkgCfgRspPass)
      ∧ ((transfers (calls + k)).buf 0 = header.rwPkgCfgRspPass ∨ k = retries) := by
  induction retries generalizing calls with
  | zero =>
    refine ⟨0, ?_, Nat.le_refl 0, fun j hj => absurd hj (Nat.not_lt_zero j), Or.inr rfl⟩
    show (if _ ∧ 0 > 0 then _ else _) = _
    rw [if_neg (fun h => Nat.lt_irrefl 0 h.2)]
    rfl
  | succ retries ih =>
    by_cases hcode : (transfers calls).buf 0 = header.rwPkgCfgRspPass
    · refine ⟨0, ?_, Nat.zero_le _, fun j hj => absurd hj (Nat.not_lt_zero j), Or.inl hcode⟩
      show (if _ ∧ retries + 1 > 0 then _ else _) = _
      rw [if_neg (fun h => h.1 hcode)]
      rfl
    · obtain ⟨k, hloop, hk, hbefore, hlast⟩ := ih (calls + 1)
      have hshift : ∀ j, calls + 1 + j = calls + (j + 1) := fun j => by omega
      refine ⟨k + 1, ?_, by omega, ?_, ?_⟩
      · show (if _ ∧ retries + 1 > 0 then _ else _) = _
        rw [if_pos ⟨hcode, Nat.succ_pos retries⟩, hloop, hshift]
      · intro j hj
        cases j with
        | zero => exact hcode
        | succ j => rw [← hshift]; exact hbefore j (by omega)
      · rw [← hshift]
        exact hlast.imp id (fun h => by omega)

/-- `peci_get_tjmax` never reports an error. -/
theorem peciGetTjmax_ret (transfers : Nat → Transfer) :
    (peciGetTjmax header transfers).ret = 0 := rfl

theorem peciGetTjmax_attempts (transfers : Nat → Transfer) :
    (peciGetTjmax header transfers).attempts = (tjmaxLoop header transfers 0 3).2 := rfl

theorem peciGetTjmax_tjmax (transfers : Nat → Transfer) :
    (peciGetTjmax header transfers).statics.tjmax
      = (tjmaxLoop header transfers 0 3).1.buf 3 := rfl

/-- Reading `tjmax` comes to what it should exactly when the first code for
passed came with a transfer that went through. -/
theorem tjmaxMeets_iff (transfers : Nat → Transfer) (before : Statics) :
    TjmaxMeets header transfers before ↔ FirstPassWentThrough header transfers := by
  obtain ⟨k, hloop, hk, hbefore, hlast⟩ := tjmaxLoop_spec header transfers 2 0
  simp only [Nat.zero_add] at hloop hbefore hlast
  have hattempts : (peciGetTjmax header transfers).attempts = k + 1 := by
    rw [peciGetTjmax_attempts, hloop]
  have htjmax : (peciGetTjmax header transfers).statics.tjmax = (transfers k).buf 3 := by
    rw [peciGetTjmax_tjmax, hloop]
  constructor
  · intro h
    have hsome : ∃ j < k + 1, (transfers j).Passed header := by
      by_contra hnone
      refine h.reports.mpr ?_ (peciGetTjmax_ret header transfers)
      rw [hattempts]
      exact fun j hj hpassed => hnone ⟨j, hj, hpassed⟩
    obtain ⟨j, hj, hpassed⟩ := hsome
    have hjk : j = k := by
      by_contra hne
      exact hbefore j (by omega) hpassed.2
    subst hjk
    exact ⟨j, by omega, hbefore, hpassed⟩
  · rintro ⟨m, hm, hfirst, hpassed⟩
    have hmk : m = k := by
      rcases Nat.lt_trichotomy m k with hlt | heq | hgt
      · exact absurd hpassed.2 (hbefore m hlt)
      · exact heq
      · rcases hlast with hcode | hused
        · exact absurd hcode (hfirst k hgt)
        · omega
    subst hmk
    refine ⟨fun _ => ⟨m, by omega, hpassed, htjmax⟩, by omega, ?_⟩
    refine ⟨fun h => absurd (peciGetTjmax_ret header transfers) h, fun hnone => ?_⟩
    exact absurd hpassed (hnone m (by omega))

/-! ## `peci_get_temp` -/

/-- The two bytes put together as the source does, through an `int`. -/
def rawCpuTemp (buf : Nat → Byte) : BitVec 16 :=
  let upper := ((((buf 1).setWidth 32) <<< 8) &&& 0xFF00#32).setWidth 16
  ((buf 0).setWidth 32 ||| upper.signExtend 32).setWidth 16

/-- What a call of `peci_get_temp` comes to: its result, the temperature it
wrote, if it wrote one, and the static variables. -/
structure TempResult where
  ret : Int
  temperature : Option Int
  statics : Statics

/-- `(raw_cpu_temp >> 6) | 0x7E00`, back in sixteen bits. -/
def scaled (raw : BitVec 16) : BitVec 16 :=
  ((raw.signExtend 32).sshiftRight 6 ||| 0x7E00#32).setWidth 16

/-- The reading is compared with `0x8000` as an `int`. -/
def peciGetTemp (transfer : Transfer) (s : Statics) : TempResult :=
  if transfer.ret ≠ 0 then
    { ret := transfer.ret, temperature := none, statics := { s with rxFcs := 0 } }
  else
    let s := { s with rxFcs := transfer.buf header.getTempRdLen }
    let raw := rawCpuTemp transfer.buf
    if raw.signExtend 32 = 0x8000#32 then
      { ret := -1, temperature := some peciSafeTemp, statics := s }
    else
      { ret := 0, temperature := some ((scaled raw).toInt + s.tjmax.toNat), statics := s }

/-- The reading a transfer brought, as a number. -/
def Transfer.reading (t : Transfer) : Nat := (t.buf 0).toNat + 256 * (t.buf 1).toNat

/-- The reading as a signed sixteen bit number. -/
def signed (r : Nat) : Int := if r < 32768 then (r : Int) else (r : Int) - 65536

/-- What reading the temperature should come to, for a transfer that went
through. -/
def TempMeets (transfer : Transfer) (s : Statics) : Prop :=
  let result := peciGetTemp header transfer s
  let r := transfer.reading
  if r = 0x8000 then result.ret ≠ 0 ∧ result.temperature = some peciSafeTemp
  else result.ret = 0 ∧ result.temperature = some (s.tjmax.toNat + signed r / 64)

/-! ### The reading -/

/-- The mask keeps what the shift put into the upper byte. -/
theorem upper_eq (b : Byte) :
    ((b.setWidth 32 <<< 8) &&& 0xFF00#32).setWidth 16 = b.setWidth 16 <<< 8 := by
  ext i hi
  have hmask : (0xFF00#32).getLsbD i = decide (8 ≤ i) := by
    have h : ∀ i : Nat, i < 16 → (0xFF00#32).getLsbD i = decide (8 ≤ i) := by decide
    exact h i hi
  rw [BitVec.getElem_setWidth, BitVec.getLsbD_and, hmask]
  simp only [BitVec.getLsbD_shiftLeft, BitVec.getElem_shiftLeft, BitVec.getLsbD_setWidth,
    BitVec.getElem_setWidth]
  grind

theorem setWidth_signExtend (x : BitVec 16) : (x.signExtend 32).setWidth 16 = x := by
  ext i hi
  rw [BitVec.getElem_setWidth, BitVec.getLsbD_signExtend, if_pos hi, BitVec.getLsbD_eq_getElem hi,
    decide_eq_true (Nat.lt_trans hi (by decide)), Bool.true_and]

theorem toNat_rawCpuTemp (t : Transfer) : (rawCpuTemp t.buf).toNat = t.reading := by
  have h0 := (t.buf 0).isLt
  have h1 := (t.buf 1).isLt
  rw [rawCpuTemp, upper_eq, BitVec.setWidth_or, BitVec.setWidth_setWidth_of_le _ (by decide),
    setWidth_signExtend, BitVec.toNat_or, BitVec.toNat_shiftLeft,
    BitVec.toNat_setWidth_of_le (by decide), BitVec.toNat_setWidth_of_le (by decide),
    Nat.shiftLeft_eq, Nat.mod_eq_of_lt (by omega), Nat.or_comm, Nat.mul_comm,
    ← Nat.two_pow_add_eq_or_of_lt (by omega), Transfer.reading]
  omega

theorem toInt_rawCpuTemp (t : Transfer) : (rawCpuTemp t.buf).toInt = signed t.reading := by
  have h := toNat_rawCpuTemp t
  have hlt := (rawCpuTemp t.buf).isLt
  rw [BitVec.toInt_eq_toNat_cond, h, signed]
  split <;> split <;> omega

/-- A signed sixteen bit number, made an `int`, is never `0x8000`. -/
theorem signExtend_ne (raw : BitVec 16) : raw.signExtend 32 ≠ 0x8000#32 := by
  intro h
  have ht := congrArg BitVec.toInt h
  rw [BitVec.toInt_signExtend_of_le (by decide)] at ht
  have hlt := BitVec.toInt_lt (x := raw)
  have hconst : (0x8000#32).toInt = 32768 := by decide
  omega

/-! ### The shift and the mask -/

theorem scaled_eq (raw : BitVec 16) : scaled raw = raw.sshiftRight 6 ||| 0x7E00#16 := by
  rw [scaled, BitVec.setWidth_or]
  have hconst : (0x7E00#32).setWidth 16 = 0x7E00#16 := by decide
  rw [hconst]
  congr 1
  ext i hi
  simp only [BitVec.getElem_setWidth, BitVec.getElem_sshiftRight, BitVec.getLsbD_sshiftRight,
    BitVec.getLsbD_signExtend, BitVec.msb_signExtend]
  grind

/-- For a negative reading the shift has set all the bits of the mask. -/
theorem scaled_of_msb {raw : BitVec 16} (h : raw.msb = true) : scaled raw = raw.sshiftRight 6 := by
  rw [scaled_eq]
  ext i hi
  have hset : (0x7E00#16)[i] = true → 9 ≤ i := by
    have h : ∀ j : Nat, (hj : j < 16) → (0x7E00#16)[j] = true → 9 ≤ j := by decide
    exact h i hi
  have htop : 9 ≤ i → (raw.sshiftRight 6)[i] = true := by
    intro h9
    rw [BitVec.getElem_sshiftRight]
    split
    · have hi9 : i = 9 := by omega
      subst hi9
      exact h
    · exact h
  rw [BitVec.getElem_or]
  cases hb : (0x7E00#16)[i] with
  | false => rw [Bool.or_false]
  | true => rw [htop (hset hb), Bool.true_or]

/-- For any other reading the mask adds `0x7E00` degrees. -/
theorem toInt_scaled_of_msb_false {raw : BitVec 16} (h : raw.msb = false) :
    (scaled raw).toInt = raw.toInt / 64 + 0x7E00 := by
  have hs : raw.sshiftRight 6 = raw >>> 6 := BitVec.sshiftRight_eq_of_msb_false h
  have hlt := BitVec.toNat_lt_of_msb_false h
  have hshift : (raw >>> 6).toNat = raw.toNat / 64 := by
    rw [BitVec.toNat_ushiftRight, Nat.shiftRight_eq_div_pow]
  have hor : (raw >>> 6 ||| 0x7E00#16).toNat = 2 ^ 9 * 63 + raw.toNat / 64 := by
    rw [BitVec.toNat_or, hshift, Nat.or_comm, show (0x7E00#16).toNat = 2 ^ 9 * 63 from rfl,
      ← Nat.two_pow_add_eq_or_of_lt (by omega)]
  rw [scaled_eq, hs, BitVec.toInt_eq_toNat_of_lt (by omega), BitVec.toInt_eq_toNat_of_msb h, hor]
  omega

theorem toInt_scaled (raw : BitVec 16) :
    (scaled raw).toInt = raw.toInt / 64 + if raw.toInt < 0 then 0 else 0x7E00 := by
  cases h : raw.msb with
  | true =>
    rw [if_pos (BitVec.toInt_neg_of_msb_true h), scaled_of_msb h, BitVec.toInt_sshiftRight,
      Int.shiftRight_eq_div_pow, Int.add_zero]
    rfl
  | false =>
    rw [if_neg (Int.not_lt.mpr (BitVec.toInt_nonneg_of_msb_false h)), toInt_scaled_of_msb_false h]

/-! ### What comes out -/

/-- Every reading that arrived is reported as valid. -/
theorem peciGetTemp_of_success {t : Transfer} (h : t.ret = 0) (s : Statics) :
    (peciGetTemp header t s).ret = 0 ∧
      (peciGetTemp header t s).temperature = some (s.tjmax.toNat + signed t.reading / 64
        + if signed t.reading < 0 then 0 else 0x7E00) := by
  unfold peciGetTemp
  rw [if_neg (not_not_intro h)]
  simp only [signExtend_ne, if_false, toInt_scaled, toInt_rawCpuTemp]
  refine ⟨trivial, congrArg some ?_⟩
  omega

theorem tempMeets_iff {t : Transfer} (h : t.ret = 0) (s : Statics) :
    TempMeets header t s ↔ t.reading ≠ 0x8000 ∧ signed t.reading < 0 := by
  obtain ⟨hret, htemp⟩ := peciGetTemp_of_success header h s
  rw [TempMeets]
  by_cases hr : t.reading = 0x8000
  · rw [if_pos hr]
    exact ⟨fun hm => absurd hret hm.1, fun hm => absurd hr hm.1⟩
  · rw [if_neg hr]
    by_cases hneg : signed t.reading < 0
    · rw [if_pos hneg] at htemp
      refine ⟨fun _ => ⟨hr, hneg⟩, fun _ => ⟨hret, ?_⟩⟩
      rw [htemp, Int.add_zero]
    · rw [if_neg hneg] at htemp
      refine ⟨fun hm => ?_, fun hm => absurd hm.2 hneg⟩
      have hsome := Option.some.inj (htemp.symm.trans hm.2)
      omega

/-- Both readings, for any transfers: they come out as they should exactly when the first code for
passed came with a transfer that went through, and the temperature read is negative but not the
smallest. -/
theorem readings_right_iff (transfers : Nat → Transfer) (before : Statics) (t : Transfer)
    (s : Statics) :
    (TjmaxMeets header transfers before ∧ (t.ret = 0 → TempMeets header t s)) ↔
      FirstPassWentThrough header transfers ∧
        (t.ret = 0 → t.reading ≠ 0x8000 ∧ signed t.reading < 0) := by
  constructor
  · rintro ⟨htjmax, htemp⟩
    refine ⟨(tjmaxMeets_iff header transfers before).mp htjmax, fun h => ?_⟩
    exact (tempMeets_iff header h s).mp (htemp h)
  · rintro ⟨hfirst, hrange⟩
    refine ⟨(tjmaxMeets_iff header transfers before).mpr hfirst, fun h => ?_⟩
    exact (tempMeets_iff header h s).mpr (hrange h)

/-- No answer at all makes 0 of `tjmax` without an error, and a reading of 0, the largest
temperature itself, comes out 32256 degrees above it. -/
theorem readings_go_wrong :
    let header : Header := { rdPkgLenDword := 5, rwPkgCfgRspPass := 0x40, getTempRdLen := 2 }
    ¬ TjmaxMeets header (fun _ => { ret := -5, buf := fun _ => 0 }) { tjmax := 100, rxFcs := 0 } ∧
      ¬ TempMeets header { ret := 0, buf := fun _ => 0 } { tjmax := 100, rxFcs := 0 } ∧
      ¬ TempMeets header { ret := 0, buf := fun i => if i = 1 then 0x80 else 0 }
        { tjmax := 100, rxFcs := 0 } := by
  refine ⟨?_, ?_, ?_⟩
  · rw [tjmaxMeets_iff]
    rintro ⟨k, -, -, hret, -⟩
    exact absurd hret (by decide : (-5 : Int) ≠ 0)
  · rw [tempMeets_iff _ rfl]
    decide
  · rw [tempMeets_iff _ rfl]
    decide

end Peci
end ZephyrSamples
