/-
# Civil time and its fixed-width decimals

The proleptic Gregorian calendar over the integers, counted in days and seconds
from 1970-01-01T00:00:00, and the decimal texts padded with zeros in which such
times are written.

* `Civil.ofDays` : the date of a day, computed in eras of 400 years whose years
  start in March, with its inverse `Civil.days`;
* `CivilTime.ofSeconds` : the date and the time of day of a second, from which the
  second can be read back (`CivilTime.ofSeconds_injective`);
* `paddedInt` : the decimal text of an integer, padded on the left, from which the
  integer can be read back (`paddedInt_injective`).
-/
import Mathlib.Data.List.Basic
import Mathlib.Data.Int.Basic
import Mathlib.Tactic.Basic

/-! ## Dates -/

/-- A date: year, month from 1 and day of the month from 1. -/
structure Civil where
  year : ℤ
  month : ℤ
  day : ℤ
  deriving DecidableEq, Repr

namespace Civil

/-- The year of an era whose day `doe` falls in, for eras of 400 years that start on
the 1st of March: the centuries, then the periods of four years, then the years.  The
last century and the last year of a period are the ones with a day more. -/
def yearOfEra (doe : ℤ) : ℤ :=
  let century := min (doe / 36524) 3
  let ofCentury := doe - 36524 * century
  let ofPeriod := ofCentury % 1461
  100 * century + 4 * (ofCentury / 1461) + min (ofPeriod / 365) 3

/-- The days before year `yoe` of an era. -/
def daysBefore (yoe : ℤ) : ℤ := 365 * yoe + yoe / 4 - yoe / 100

/-- The month, counted from March, in which day `doy` of such a year falls. -/
def monthOfYear (doy : ℤ) : ℤ := (5 * doy + 2) / 153

/-- The days of such a year before its month `mp`. -/
def daysBeforeMonth (mp : ℤ) : ℤ := (153 * mp + 2) / 5

/-- A month counted from March, in the usual count. -/
def ofMarch (mp : ℤ) : ℤ := if mp < 10 then mp + 3 else mp - 9

/-- A month of the usual count, counted from March. -/
def fromMarch (month : ℤ) : ℤ := if month ≤ 2 then month + 9 else month - 3

/-- January and February belong to the year that started in the March before. -/
def yearShift (month : ℤ) : ℤ := if month ≤ 2 then 1 else 0

/-- The date of a day counted from 1970-01-01. -/
def ofDays (z : ℤ) : Civil :=
  let era := (z + 719468) / 146097
  let doe := (z + 719468) % 146097
  let yoe := yearOfEra doe
  let doy := doe - daysBefore yoe
  let mp := monthOfYear doy
  { year := 400 * era + yoe + yearShift (ofMarch mp)
    month := ofMarch mp
    day := doy - daysBeforeMonth mp + 1 }

/-- The day of a date. -/
def days (c : Civil) : ℤ :=
  let y := c.year - yearShift c.month
  146097 * (y / 400) + daysBefore (y % 400) + daysBeforeMonth (fromMarch c.month) + c.day - 1 -
    719468

example : ofDays 0 = ⟨1970, 1, 1⟩ := by decide
example : ofDays 11016 = ⟨2000, 2, 29⟩ := by decide
example : ofDays (-25509) = ⟨1900, 2, 28⟩ ∧ ofDays (-25508) = ⟨1900, 3, 1⟩ := by decide

/-- The days before a year, by its century, its period of four years and its place in
the period. -/
theorem daysBefore_eq {century period y : ℤ} (h₀ : 0 ≤ period) (h₁ : period ≤ 24) (h₂ : 0 ≤ y)
    (h₃ : y ≤ 3) : daysBefore (100 * century + 4 * period + y) =
      36524 * century + 1461 * period + 365 * y := by
  have h4 : (100 * century + 4 * period + y) / 4 = 25 * century + period := by omega
  have h100 : (100 * century + 4 * period + y) / 100 = century := by omega
  rw [daysBefore, h4, h100]
  omega

/-- A day of an era falls in one of its 400 years, and in the year it is given. -/
theorem yearOfEra_bounds {doe : ℤ} (h₀ : 0 ≤ doe) (h₁ : doe < 146097) :
    (0 ≤ yearOfEra doe ∧ yearOfEra doe ≤ 399) ∧
      0 ≤ doe - daysBefore (yearOfEra doe) ∧ doe - daysBefore (yearOfEra doe) ≤ 365 := by
  simp only [yearOfEra]
  have hc : 0 ≤ min (doe / 36524) 3 ∧ min (doe / 36524) 3 ≤ 3 := by omega
  have hr : 0 ≤ doe - 36524 * min (doe / 36524) 3 ∧
      doe - 36524 * min (doe / 36524) 3 ≤ 36524 := by omega
  generalize min (doe / 36524) 3 = century at *
  generalize hd : doe - 36524 * century = ofCentury at *
  have hp : 0 ≤ ofCentury / 1461 ∧ ofCentury / 1461 ≤ 24 := by omega
  have hy : 0 ≤ min (ofCentury % 1461 / 365) 3 ∧ min (ofCentury % 1461 / 365) 3 ≤ 3 := by omega
  rw [daysBefore_eq hp.1 hp.2 hy.1 hy.2]
  omega

/-- A day falls in the month it is given. -/
theorem monthOfYear_bounds {doy : ℤ} (h₀ : 0 ≤ doy) (h₁ : doy ≤ 365) :
    (0 ≤ monthOfYear doy ∧ monthOfYear doy ≤ 11) ∧
      0 ≤ doy - daysBeforeMonth (monthOfYear doy) ∧
        doy - daysBeforeMonth (monthOfYear doy) ≤ 30 := by
  unfold monthOfYear daysBeforeMonth
  omega

/-- The two counts of the months. -/
theorem fromMarch_ofMarch {mp : ℤ} (h₀ : 0 ≤ mp) (h₁ : mp ≤ 11) : fromMarch (ofMarch mp) = mp := by
  unfold fromMarch ofMarch
  omega

/-- The month and the day of a date have at most two digits. -/
theorem ofDays_bounds (z : ℤ) :
    (1 ≤ (ofDays z).month ∧ (ofDays z).month ≤ 12) ∧
      1 ≤ (ofDays z).day ∧ (ofDays z).day ≤ 31 := by
  have h₀ : 0 ≤ (z + 719468) % 146097 := Int.emod_nonneg _ (by decide)
  have h₁ : (z + 719468) % 146097 < 146097 := Int.emod_lt_of_pos _ (by decide)
  obtain ⟨-, hd₀, hd₁⟩ := yearOfEra_bounds h₀ h₁
  have hm := monthOfYear_bounds hd₀ hd₁
  simp only [ofDays, ofMarch]
  omega

/-- **A date determines its day.** -/
theorem days_ofDays (z : ℤ) : (ofDays z).days = z := by
  have h₀ : 0 ≤ (z + 719468) % 146097 := Int.emod_nonneg _ (by decide)
  have h₁ : (z + 719468) % 146097 < 146097 := Int.emod_lt_of_pos _ (by decide)
  obtain ⟨hy, hd₀, hd₁⟩ := yearOfEra_bounds h₀ h₁
  obtain ⟨hm, -⟩ := monthOfYear_bounds hd₀ hd₁
  have hz := Int.emod_add_mul_ediv (z + 719468) 146097
  simp only [ofDays, days, Int.add_sub_cancel, fromMarch_ofMarch hm.1 hm.2]
  generalize (z + 719468) % 146097 = doe at *
  generalize (z + 719468) / 146097 = era at *
  have hera : (400 * era + yearOfEra doe) / 400 = era := by omega
  have hyoe : (400 * era + yearOfEra doe) % 400 = yearOfEra doe := by omega
  rw [hera, hyoe]
  omega

end Civil

/-! ## Times of day -/

/-- A date with a time of day, to the second. -/
structure CivilTime where
  date : Civil
  hour : ℤ
  minute : ℤ
  second : ℤ
  deriving DecidableEq, Repr

namespace CivilTime

/-- The date and the time of day of a second counted from 1970-01-01T00:00:00. -/
def ofSeconds (s : ℤ) : CivilTime :=
  let ofDay := s % 86400
  { date := Civil.ofDays (s / 86400)
    hour := ofDay / 3600
    minute := ofDay / 60 % 60
    second := ofDay % 60 }

/-- The second of a date with a time of day. -/
def seconds (t : CivilTime) : ℤ := 86400 * t.date.days + 3600 * t.hour + 60 * t.minute + t.second

example : ofSeconds 1709251199 = ⟨⟨2024, 2, 29⟩, 23, 59, 59⟩ := by decide

/-- **A date with a time of day determines its second.** -/
theorem seconds_ofSeconds (s : ℤ) : (ofSeconds s).seconds = s := by
  simp only [ofSeconds, seconds, Civil.days_ofDays]
  omega

theorem ofSeconds_injective : Function.Injective ofSeconds :=
  Function.LeftInverse.injective seconds_ofSeconds

/-- Every part of a date with a time of day but the year is written with at most two
digits. -/
def TwoDigits (t : CivilTime) : Prop :=
  ∀ a ∈ [t.date.month, t.date.day, t.hour, t.minute, t.second], 0 ≤ a ∧ a < 100

theorem ofSeconds_twoDigits (s : ℤ) : (ofSeconds s).TwoDigits := by
  have hdate := Civil.ofDays_bounds (s / 86400)
  simp only [TwoDigits, ofSeconds, List.forall_mem_cons, List.not_mem_nil, false_imp_iff,
    implies_true, and_true]
  omega

end CivilTime

/-! ## Padded decimals -/

/-- The decimal text of an integer, padded on the left with zeros to `width`.  A sign is
part of the text, so the zeros stand before it. -/
def paddedInt (width : ℕ) (a : ℤ) : List Char :=
  a.repr.toList.leftpad width '0'

/-- The integer a padded decimal was written for. -/
def readPadded (cs : List Char) : ℤ :=
  let digits := Nat.ofDigitChars 10 (cs.filter (· != '-')) 0
  if '-' ∈ cs then -digits else digits

example : paddedInt 4 7 = ['0', '0', '0', '7'] ∧ paddedInt 4 (-7) = ['0', '0', '-', '7'] := by
  decide

/-- Padding does not change what is read. -/
theorem readPadded_replicate (n : ℕ) (cs : List Char) :
    readPadded (List.replicate n '0' ++ cs) = readPadded cs := by
  have hfilter : (List.replicate n '0').filter (· != '-') = List.replicate n '0' := by
    rw [List.filter_eq_self]
    intro c hc
    rw [List.eq_of_mem_replicate hc]
    rfl
  have hmem : '-' ∈ List.replicate n '0' ++ cs ↔ '-' ∈ cs := by
    simp [List.mem_replicate]
  simp only [readPadded, List.filter_append, hfilter, Nat.ofDigitChars_append,
    Nat.ofDigitChars_replicate_zero, Nat.mul_zero, hmem]

/-- The digits of a natural number hold no sign. -/
theorem minus_notMem_toDigits (n : ℕ) : '-' ∉ Nat.toDigits 10 n := by
  intro h
  have := Nat.isDigit_of_mem_toDigits (by decide) (by decide) h
  revert this
  decide

/-- The text of an integer is read back. -/
theorem readPadded_repr (a : ℤ) : readPadded a.repr.toList = a := by
  have hdigits (n : ℕ) : (Nat.toDigits 10 n).filter (· != '-') = Nat.toDigits 10 n := by
    rw [List.filter_eq_self]
    intro c hc
    simpa using fun h : c = '-' => minus_notMem_toDigits n (h ▸ hc)
  cases a with
  | ofNat n =>
      have ht : (Int.repr (Int.ofNat n)).toList = Nat.toDigits 10 n := Nat.toList_repr
      simp only [readPadded, ht, hdigits, minus_notMem_toDigits, Nat.ofDigitChars_ten_toDigits]
      rfl
  | negSucc n =>
      have ht : (Int.repr (Int.negSucc n)).toList = '-' :: Nat.toDigits 10 (n + 1) := by
        show ("-" ++ Nat.repr (n + 1)).toList = _
        rw [String.toList_append, Nat.toList_repr]
        rfl
      have hf : ('-' :: Nat.toDigits 10 (n + 1)).filter (· != '-') = Nat.toDigits 10 (n + 1) := by
        rw [List.filter_cons_of_neg (by decide), hdigits]
      simp only [readPadded, ht, hf, List.mem_cons, true_or, Nat.ofDigitChars_ten_toDigits]
      rfl

/-- **A padded decimal determines its integer.** -/
theorem paddedInt_injective (width : ℕ) : Function.Injective (paddedInt width) := by
  have hread : Function.LeftInverse readPadded (paddedInt width) := by
    intro a
    rw [paddedInt, List.leftpad, readPadded_replicate, readPadded_repr]
  exact hread.injective

/-- An integer of at most two digits fills two columns. -/
theorem length_paddedInt_two {a : ℤ} (h₀ : 0 ≤ a) (h₁ : a < 100) :
    (paddedInt 2 a).length = 2 := by
  obtain ⟨n, rfl⟩ := Int.eq_ofNat_of_zero_le h₀
  have ht : (Int.repr (Int.ofNat n)).toList = Nat.toDigits 10 n := Nat.toList_repr
  have hn : (Nat.toDigits 10 n).length ≤ 2 :=
    (Nat.length_toDigits_le_iff (by decide) (by decide)).mpr (by omega)
  rw [paddedInt, show (n : ℤ).repr.toList = Nat.toDigits 10 n from ht, List.length_leftpad]
  exact Nat.max_eq_left hn
