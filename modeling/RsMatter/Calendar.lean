import RsMatter.Basic
import RsMatter.Panic
import Mathlib.Data.Nat.Digits.Lemmas

/-!
# Dates (`cert/asn1_writer.rs`, `utils/epoch.rs`)

The date of a timestamp is asked of the `time` crate, which knows the years up to 9999
(`Calendar`); `gregorian` is the calendar it implements. Times of certificates count from
the start of 2000, and are written as text to a string of a fixed capacity.
-/

namespace RsMatter

open Stop

/-! ## Numbers as text -/

/-- A digit; from ten on, an upper-case letter. -/
def digitByte (d : ℕ) : UInt8 := UInt8.ofNat (if d < 10 then 48 + d else 55 + d)

/-- A number in some base, filled up with zeros to a width. -/
def radixText (base width n : ℕ) : List UInt8 :=
  ((Nat.digits base n).reverse.leftpad width 0).map digitByte

/-- `write_unwrap!` to a `heapless::String` of some capacity. -/
def writeUnwrap {ε : Type} (capacity : ℕ) (text : List UInt8) : Except (Stop ε) (List UInt8) :=
  if text.length ≤ capacity then .ok text else .error .panic

/-! ## Dates -/

structure OffsetDateTime where
  year : ℕ
  month : ℕ
  day : ℕ
  hour : ℕ
  minute : ℕ
  second : ℕ
  deriving DecidableEq

/-- The last second of the year 9999, the last one the `time` crate knows. -/
def maxTimestamp : ℤ := 253402300799

/-- The calendar of the `time` crate: from the start of 1970 to the end of the year 9999
every second has a date. -/
structure Calendar where
  fromUnixTimestamp : ℤ → Option OffsetDateTime
  /-- there is one up to the year 9999, of no more than the digits a date has -/
  fromUnixTimestamp_of_le : ∀ t, 0 ≤ t → t ≤ maxTimestamp →
    ∃ dt, fromUnixTimestamp t = some dt ∧ dt.year < 10000 ∧ dt.month < 100 ∧ dt.day < 100 ∧
      dt.hour < 100 ∧ dt.minute < 100 ∧ dt.second < 100

/-- The date of a timestamp, by days since the first of March of the year 0. -/
def OffsetDateTime.ofUnixTimestamp (t : ℕ) : OffsetDateTime :=
  let z := t / 86400 + 719468
  let doe := z % 146097
  let yoe := (doe - doe / 1460 + doe / 36524 - doe / 146096) / 365
  let doy := doe - (365 * yoe + yoe / 4 - yoe / 100)
  let mp := (5 * doy + 2) / 153
  { year := yoe + z / 146097 * 400 + mp / 10
    month := if mp < 10 then mp + 3 else mp - 9
    day := doy - (153 * mp + 2) / 5 + 1
    hour := t % 86400 / 3600
    minute := t % 3600 / 60
    second := t % 60 }

section Dates

variable (t : ℕ)

theorem dayOfYear_le (doe y : ℕ) (hdoe : doe < 146097)
    (hy : (doe - doe / 1460 + doe / 36524 - doe / 146096) / 365 = y) :
    doe - (365 * y + y / 4 - y / 100) ≤ 400 := by
  have hdays : doe ≤ 365 * y + 364 + doe / 1460 := by omega
  have hleap : doe / 1460 ≤ y / 4 + 1 := by omega
  omega

theorem year_ofUnixTimestamp_lt (h : t ≤ 253402300799) :
    (OffsetDateTime.ofUnixTimestamp t).year < 10000 := by
  have hz : t / 86400 + 719468 ≤ 3652364 := by omega
  simp only [OffsetDateTime.ofUnixTimestamp]
  generalize t / 86400 + 719468 = z at hz ⊢
  have hdoe : z % 146097 < 146097 := Nat.mod_lt _ (by decide)
  have hera : z / 146097 ≤ 24 := by omega
  -- the last era ends with December of 9999, before its last January
  have hlast : z / 146097 = 24 → z % 146097 ≤ 146036 := by omega
  generalize z % 146097 = doe at hdoe hlast ⊢
  generalize z / 146097 = era at hera hlast ⊢
  have hyoe : (doe - doe / 1460 + doe / 36524 - doe / 146096) / 365 ≤ 399 := by omega
  have hdoy := dayOfYear_le doe _ hdoe rfl
  have hend : doe ≤ 146036 → (doe - doe / 1460 + doe / 36524 - doe / 146096) / 365 = 399 →
      doe - (365 * 399 + 399 / 4 - 399 / 100) ≤ 305 := by omega
  generalize (doe - doe / 1460 + doe / 36524 - doe / 146096) / 365 = yoe at hyoe hdoy hend ⊢
  have hend' : era = 24 → yoe = 399 → doe - (365 * yoe + yoe / 4 - yoe / 100) ≤ 305 := by
    rintro heras rfl
    exact hend (hlast heras) rfl
  generalize doe - (365 * yoe + yoe / 4 - yoe / 100) = doy at hdoy hend' ⊢
  omega

theorem month_ofUnixTimestamp_lt : (OffsetDateTime.ofUnixTimestamp t).month < 100 := by
  simp only [OffsetDateTime.ofUnixTimestamp]
  have hdoe : (t / 86400 + 719468) % 146097 < 146097 := Nat.mod_lt _ (by decide)
  generalize (t / 86400 + 719468) % 146097 = doe at hdoe ⊢
  split <;> omega

theorem day_ofUnixTimestamp_lt : (OffsetDateTime.ofUnixTimestamp t).day < 100 := by
  simp only [OffsetDateTime.ofUnixTimestamp]
  have hdoe : (t / 86400 + 719468) % 146097 < 146097 := Nat.mod_lt _ (by decide)
  generalize (t / 86400 + 719468) % 146097 = doe at hdoe ⊢
  omega

end Dates

def Calendar.gregorian : Calendar where
  fromUnixTimestamp t :=
    if 0 ≤ t ∧ t ≤ maxTimestamp then some (.ofUnixTimestamp t.toNat) else none
  fromUnixTimestamp_of_le t h0 hmax := by
    refine ⟨.ofUnixTimestamp t.toNat, if_pos ⟨h0, hmax⟩, ?_, month_ofUnixTimestamp_lt _,
      day_ofUnixTimestamp_lt _, ?_, ?_, ?_⟩
    · rw [maxTimestamp] at hmax
      exact year_ofUnixTimestamp_lt _ (by omega)
    · simp only [OffsetDateTime.ofUnixTimestamp]
      omega
    · simp only [OffsetDateTime.ofUnixTimestamp]
      omega
    · simp only [OffsetDateTime.ofUnixTimestamp]
      omega

/-! ## Times of certificates -/

/-- Seconds from the start of 1970 to the start of 2000. -/
def matterEpochSecs : ℕ := 946684800

def OffsetDateTime.rest (dt : OffsetDateTime) : List UInt8 :=
  radixText 10 2 dt.month ++ radixText 10 2 dt.day ++ radixText 10 2 dt.hour ++
    radixText 10 2 dt.minute ++ radixText 10 2 dt.second ++ [0x5A]

/-- The tag and the text of a time; from 2050 on the year has four digits. -/
def Calendar.utctime (cal : Calendar) (epoch : ℕ) :
    Except (Stop ErrorCode) (UInt8 × List UInt8) :=
  if matterEpochSecs + epoch < 2 ^ 64 then do
    let matterEpoch := BitVec.ofNat 64 (matterEpochSecs + epoch)
    let dt ← unwrapSome (cal.fromUnixTimestamp matterEpoch.toInt)
    if 2050 ≤ dt.year then do
      let text ← writeUnwrap 32 (radixText 10 4 dt.year ++ dt.rest)
      return (0x18, text)
    else do
      let text ← writeUnwrap 32 (radixText 10 2 (dt.year % 100) ++ dt.rest)
      return (0x17, text)
  else .error .panic

/-- The time after which a certificate that does not expire expires. -/
def matterCertDoesntExpire : ℕ := 252455615999

theorem length_radixText_le {base width n : ℕ} (hbase : 1 < base) (hn : n < base ^ width) :
    (radixText base width n).length ≤ width := by
  have hdigits : (Nat.digits base n).length ≤ width := (Nat.digits_length_le_iff hbase n).mpr hn
  simp only [radixText, List.length_map, List.leftpad, List.length_append, List.length_replicate,
    List.length_reverse]
  omega

theorem noPanic_writeUnwrap {ε : Type} {capacity : ℕ} {text : List UInt8}
    (h : text.length ≤ capacity) : NoPanic (writeUnwrap capacity text : Except (Stop ε) _) := by
  rw [writeUnwrap, if_pos h]
  exact noPanic_ok _

theorem noPanic_utctime (cal : Calendar) {epoch : ℕ} (h : epoch ≤ matterCertDoesntExpire) :
    NoPanic (cal.utctime epoch) := by
  rw [matterCertDoesntExpire] at h
  have hint : (BitVec.ofNat 64 (matterEpochSecs + epoch)).toInt = matterEpochSecs + epoch := by
    have hlt : matterEpochSecs + epoch < 2 ^ 64 := by
      rw [matterEpochSecs]
      omega
    rw [BitVec.toInt_eq_toNat_of_lt, BitVec.toNat_ofNat, Nat.mod_eq_of_lt hlt, Nat.cast_add]
    rw [BitVec.toNat_ofNat, Nat.mod_eq_of_lt hlt, matterEpochSecs]
    omega
  obtain ⟨dt, hdt, hyear, hmonth, hday, hhour, hminute, hsecond⟩ :=
    cal.fromUnixTimestamp_of_le (matterEpochSecs + epoch) (by omega)
      (by rw [matterEpochSecs, maxTimestamp]; omega)
  have hrest : dt.rest.length ≤ 11 := by
    have h10 : (1 : ℕ) < 10 := by decide
    have h1 := length_radixText_le h10 (show dt.month < 10 ^ 2 from hmonth)
    have h2 := length_radixText_le h10 (show dt.day < 10 ^ 2 from hday)
    have h3 := length_radixText_le h10 (show dt.hour < 10 ^ 2 from hhour)
    have h4 := length_radixText_le h10 (show dt.minute < 10 ^ 2 from hminute)
    have h5 := length_radixText_le h10 (show dt.second < 10 ^ 2 from hsecond)
    simp only [OffsetDateTime.rest, List.length_append, List.length_singleton]
    omega
  rw [Calendar.utctime, if_pos (by rw [matterEpochSecs]; omega)]
  simp only [hint, hdt]
  change NoPanic (if 2050 ≤ dt.year then _ else _)
  split
  · have hlen := length_radixText_le (by decide) (show dt.year < 10 ^ 4 from hyear)
    refine (noPanic_writeUnwrap ?_).bind fun _ _ => noPanic_ok _
    rw [List.length_append]
    omega
  · have hlen := length_radixText_le (by decide)
      (show dt.year % 100 < 10 ^ 2 from Nat.mod_lt _ (by decide))
    refine (noPanic_writeUnwrap ?_).bind fun _ _ => noPanic_ok _
    rw [List.length_append]
    omega

end RsMatter
