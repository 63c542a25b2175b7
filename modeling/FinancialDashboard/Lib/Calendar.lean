import FinancialDashboard.Lib.Numerals
import Mathlib.Data.Int.ConditionallyCompleteOrder
import Mathlib.Tactic.IntervalCases

/-!
# Months

A month is a number, twelve to the year, and its days are an interval: what falls in a
month is told by comparing with the first of it and the first of the next.

* `civil_year`, `civil_month`, `civil_day`: the date of an ordinal is its month and its
  place there.
* `firstOf_le_iff`: a day is from the first of a month on if its month is not before.
* `monthKey_inj`: the `YYYY-MM` of a day is that of its month alone.
* `Relativedelta`: what `dateutil` promises of moving by months.
-/

namespace PyTime

/-! ### Years from March -/

/-- The days before the March of a year, from that of year 0. -/
def daysBeforeMarch (year : Int) : Int := 365 * year + year / 4 - year / 100 + year / 400

theorem daysBeforeMarch_succ (year : Int) :
    daysBeforeMarch year + 365 ≤ daysBeforeMarch (year + 1) ∧
      daysBeforeMarch (year + 1) ≤ daysBeforeMarch year + 366 := by
  have h4 : (year + 1) / 4 = year / 4 ∨ (year + 1) / 4 = year / 4 + 1 := by omega
  have h100 : (year + 1) / 100 = year / 100 ∨
      (year + 1) / 100 = year / 100 + 1 ∧ (year + 1) / 4 = year / 4 + 1 := by omega
  have h400 : (year + 1) / 400 = year / 400 ∨
      (year + 1) / 400 = year / 400 + 1 ∧ (year + 1) / 100 = year / 100 + 1 := by omega
  unfold daysBeforeMarch
  omega

theorem daysBeforeMarch_add (era : Int) (year : Nat) (h : year ≤ 400) :
    daysBeforeMarch (era * 400 + year) = era * 146097 +
      (365 * year + year / 4 - year / 100 + year / 400 : Nat) := by
  unfold daysBeforeMarch
  omega

/-- The year of a day of a cycle of 400 years, as `civil` finds it. -/
theorem yearOfCycle_spec {doe yoe : Nat} (h : doe < 146097)
    (hyoe : yoe = (doe - doe / 1460 + doe / 36524 - doe / 146096) / 365) :
    yoe ≤ 399 ∧ 365 * yoe + yoe / 4 - yoe / 100 ≤ doe ∧
      doe < 365 * (yoe + 1) + (yoe + 1) / 4 - (yoe + 1) / 100 + (yoe + 1) / 400 := by
  have hlast : yoe ≤ 399 := by omega
  have hcentury : yoe / 100 = doe / 36524 ∨ yoe / 100 = 3 ∧ doe = 146096 := by omega
  have hnext : (yoe + 1) / 100 = yoe / 100 ∨ yoe + 1 = 100 * (yoe / 100 + 1) := by omega
  -- the quotient by 1460 is off by less than two years
  obtain ⟨k, hk, hcycle⟩ : ∃ k ≤ 5, yoe + 1 = 4 * (doe / 1460) + k :=
    ⟨yoe + 1 - 4 * (doe / 1460), by omega, by omega⟩
  refine ⟨hlast, ?_, ?_⟩
  · interval_cases k <;> omega
  · interval_cases k <;> rcases hnext with hnext | hnext <;> omega

theorem yearOfDay_spec {n : Int} {doe yoe : Nat} (hdoe : doe = ((n + 305) % 146097).toNat)
    (hyoe : yoe = (doe - doe / 1460 + doe / 36524 - doe / 146096) / 365) :
    n + 305 = daysBeforeMarch ((n + 305) / 146097 * 400 + yoe) +
        (doe - (365 * yoe + yoe / 4 - yoe / 100) : Nat) ∧
      n + 305 < daysBeforeMarch ((n + 305) / 146097 * 400 + yoe + 1) := by
  obtain ⟨hlast, hfrom, hto⟩ := yearOfCycle_spec (by omega) hyoe
  clear hyoe
  have hnext := daysBeforeMarch_add ((n + 305) / 146097) (yoe + 1) (by omega)
  rw [Nat.cast_add_one, ← Int.add_assoc] at hnext
  rw [hnext, daysBeforeMarch_add _ _ (by omega)]
  constructor
  · omega
  · omega

/-! ### Months -/

/-- The number of a day's month, from January of year 0. -/
def monthOf (ordinal : Int) : Int := 12 * (civil ordinal).year + (civil ordinal).month - 1

/-- The ordinal of the first of a month. -/
def firstOf (month : Int) : Int :=
  daysBeforeMarch ((month - 2) / 12) + (153 * ((month - 2) % 12) + 2) / 5 - 305

def daysInMonth (month : Int) : Int := firstOf (month + 1) - firstOf month

theorem civil_spec (n : Int) : ∃ year doy mp : Int, n + 305 = daysBeforeMarch year + doy ∧
    0 ≤ doy ∧ n + 305 < daysBeforeMarch (year + 1) ∧ mp = (5 * doy + 2) / 153 ∧
    monthOf n = 12 * year + mp + 2 ∧ (civil n).day = doy - (153 * mp + 2) / 5 + 1 ∧
    1 ≤ (civil n).month ∧ (civil n).month ≤ 12 := by
  unfold monthOf civil
  dsimp only
  generalize hdoe : ((n + 305) % 146097).toNat = doe
  generalize hyoe : (doe - doe / 1460 + doe / 36524 - doe / 146096) / 365 = yoe
  obtain ⟨hfrom, hto⟩ := yearOfDay_spec hdoe.symm hyoe.symm
  have hyear := daysBeforeMarch_succ ((n + 305) / 146097 * 400 + yoe)
  generalize doe - (365 * yoe + yoe / 4 - yoe / 100) = doy at hfrom ⊢
  clear hdoe hyoe
  generalize (n + 305) / 146097 = era at *
  have hdoy : doy ≤ 365 := by omega
  generalize hmp : (5 * doy + 2) / 153 = mp
  refine ⟨era * 400 + yoe, doy, mp, hfrom, by omega, hto, by omega, ?_, by omega, ?_⟩
  · split_ifs <;> omega
  · split_ifs <;> omega

/-- A day is in the interval of its month. -/
theorem firstOf_monthOf (n : Int) :
    firstOf (monthOf n) + (civil n).day - 1 = n ∧ 1 ≤ (civil n).day ∧
      n < firstOf (monthOf n + 1) := by
  obtain ⟨year, doy, mp, hfrom, hdoy, hto, hmp, hmonth, hday, -⟩ := civil_spec n
  have hyear := daysBeforeMarch_succ year
  have hlast : mp ≤ 11 := by omega
  have hthis : (monthOf n - 2) / 12 = year ∧ (monthOf n - 2) % 12 = mp := by omega
  have hfirst : firstOf (monthOf n) = daysBeforeMarch year + (153 * mp + 2) / 5 - 305 := by
    rw [firstOf, hthis.1, hthis.2]
  refine ⟨by omega, by omega, ?_⟩
  unfold firstOf
  rcases hlast.lt_or_eq with hlt | rfl
  · have hnext : (monthOf n + 1 - 2) / 12 = year ∧ (monthOf n + 1 - 2) % 12 = mp + 1 := by omega
    rw [hnext.1, hnext.2]
    omega
  · have hnext : (monthOf n + 1 - 2) / 12 = year + 1 ∧ (monthOf n + 1 - 2) % 12 = 0 := by omega
    rw [hnext.1, hnext.2]
    omega

theorem daysInMonth_bounds (month : Int) : 28 ≤ daysInMonth month ∧ daysInMonth month ≤ 31 := by
  have hyear := daysBeforeMarch_succ ((month - 2) / 12)
  unfold daysInMonth firstOf
  by_cases hlast : (month - 2) % 12 = 11
  · have hnext : (month + 1 - 2) / 12 = (month - 2) / 12 + 1 ∧ (month + 1 - 2) % 12 = 0 := by omega
    rw [hnext.1, hnext.2, hlast]
    omega
  · have hnext : (month + 1 - 2) / 12 = (month - 2) / 12 ∧
        (month + 1 - 2) % 12 = (month - 2) % 12 + 1 := by omega
    rw [hnext.1, hnext.2]
    omega

theorem firstOf_lt_succ (month : Int) : firstOf month < firstOf (month + 1) := by
  have h := (daysInMonth_bounds month).1
  unfold daysInMonth at h
  omega

theorem firstOf_strictMono : StrictMono firstOf := strictMono_int_of_lt_succ firstOf_lt_succ

/-- **From the first of a month on** are the days of no earlier month. -/
theorem firstOf_le_iff {month n : Int} : firstOf month ≤ n ↔ month ≤ monthOf n := by
  obtain ⟨hfrom, hday, hto⟩ := firstOf_monthOf n
  constructor
  · intro h
    by_contra hlt
    have hmono := firstOf_strictMono.monotone (show monthOf n + 1 ≤ month by omega)
    omega
  · intro h
    have hmono := firstOf_strictMono.monotone h
    omega

theorem lt_firstOf_iff {month n : Int} : n < firstOf month ↔ monthOf n < month := by
  rw [← not_le, firstOf_le_iff, not_le]

theorem monthOf_mono {m n : Int} (h : m ≤ n) : monthOf m ≤ monthOf n :=
  firstOf_le_iff.mp ((firstOf_le_iff.mpr le_rfl).trans h)

@[simp] theorem monthOf_firstOf (month : Int) : monthOf (firstOf month) = month :=
  le_antisymm (Int.lt_add_one_iff.mp (lt_firstOf_iff.mp (firstOf_lt_succ month)))
    (firstOf_le_iff.mp le_rfl)

/-! ### The fields of a date -/

theorem civil_month (n : Int) : ((civil n).month : Int) = monthOf n % 12 + 1 := by
  obtain ⟨-, -, -, -, -, -, -, -, -, hone, htwelve⟩ := civil_spec n
  unfold monthOf
  omega

theorem civil_year (n : Int) : (civil n).year = monthOf n / 12 := by
  obtain ⟨-, -, -, -, -, -, -, -, -, hone, htwelve⟩ := civil_spec n
  unfold monthOf
  omega

theorem civil_day (n : Int) : ((civil n).day : Int) = n - firstOf (monthOf n) + 1 := by
  have h := (firstOf_monthOf n).1
  omega

theorem civil_day_le (n : Int) : ((civil n).day : Int) ≤ daysInMonth (monthOf n) := by
  have h := (firstOf_monthOf n).2.2
  rw [civil_day, daysInMonth]
  omega

theorem civil_day_firstOf (month : Int) : (civil (firstOf month)).day = 1 := by
  have h := civil_day (firstOf month)
  rw [monthOf_firstOf] at h
  omega

/-! ### Dates -/

/-- `date.min` to `date.max`. -/
def IsDate (ordinal : Int) : Prop := 1 ≤ ordinal ∧ ordinal ≤ 3652059

instance : DecidablePred IsDate := fun _ => inferInstanceAs (Decidable (_ ∧ _))

/-- The years of the dates are 1 to 9999. -/
theorem isDate_iff {n : Int} : IsDate n ↔ 12 ≤ monthOf n ∧ monthOf n < 120000 := by
  have hmin : firstOf 12 = 1 := by decide
  have hmax : firstOf 120000 = 3652060 := by decide
  rw [← firstOf_le_iff, ← lt_firstOf_iff, hmin, hmax, IsDate]
  omega

/-! ### Keys -/

/-- `strftime("%Y-%m")`. -/
def monthKey (ordinal : Int) : String :=
  zeroPad 4 (civil ordinal).year.toNat ++ "-" ++ zeroPad 2 (civil ordinal).month

/-- **A key is of one month.** -/
theorem monthKey_inj {m n : Int} (hm : IsDate m) (hn : IsDate n) :
    monthKey m = monthKey n ↔ monthOf m = monthOf n := by
  have hyear := civil_year m
  have hyear' := civil_year n
  have hmonth := civil_month m
  have hmonth' := civil_month n
  rw [isDate_iff] at hm hn
  constructor
  · intro h
    have hlist := congrArg String.toList h
    simp only [monthKey, String.toList_append, List.append_assoc] at hlist
    obtain ⟨hfour, htwo⟩ := append_injective (fun _ => isDigit_of_mem_zeroPad)
      (fun _ => isDigit_of_mem_zeroPad) (by decide) hlist
    have hsame := zeroPad_injective (String.toList_inj.mp hfour)
    have hsame' := zeroPad_injective (String.toList_inj.mp htwo)
    omega
  · intro h
    have hsame : (civil m).year = (civil n).year := by omega
    have hsame' : (civil m).month = (civil n).month := by omega
    rw [monthKey, monthKey, hsame, hsame']

/-! ### Moving by months -/

/-- `date + relativedelta(months=…, days=…)` and what its documentation says: the months go
first and keep the day of the month if it exists; a result that is no date is an error. -/
structure Relativedelta where
  plus (months days date : Int) : Option Int
  isDate {months days date result : Int} : plus months days date = some result → IsDate result
  month {months date result : Int} : plus months 0 date = some result →
    monthOf result = monthOf date + months
  day {months date result : Int} : plus months 0 date = some result →
    ((civil result).day : Int) = min ((civil date).day : Int) (daysInMonth (monthOf result))
  days (months days date : Int) : plus months days date =
    (plus months 0 date).bind fun d => if IsDate (d + days) then some (d + days) else none
  defined {months date : Int} : IsDate date → 12 ≤ monthOf date + months →
    monthOf date + months < 120000 → (plus months 0 date).isSome

/-- The day of another month, or its last day. -/
def dayOfMonth (month date : Int) : Int :=
  firstOf month + min ((civil date).day : Int) (daysInMonth month) - 1

theorem monthOf_dayOfMonth (month date : Int) : monthOf (dayOfMonth month date) = month := by
  have hday := (firstOf_monthOf date).2.1
  have hbounds := daysInMonth_bounds month
  refine le_antisymm (Int.lt_add_one_iff.mp (lt_firstOf_iff.mp ?_)) (firstOf_le_iff.mp ?_)
  · have hlength : daysInMonth month = firstOf (month + 1) - firstOf month := rfl
    unfold dayOfMonth
    omega
  · unfold dayOfMonth
    omega

theorem isDate_dayOfMonth (month date : Int) :
    IsDate (dayOfMonth month date) ↔ 12 ≤ month ∧ month < 120000 := by
  rw [isDate_iff, monthOf_dayOfMonth]

/-- The months first, then the days; `none` is an error. -/
def shift (months days date : Int) : Option Int :=
  if IsDate (dayOfMonth (monthOf date + months) date) ∧
      IsDate (dayOfMonth (monthOf date + months) date + days) then
    some (dayOfMonth (monthOf date + months) date + days)
  else none

theorem shift_eq_some {months days date result : Int} (h : shift months days date = some result) :
    IsDate result ∧ result = dayOfMonth (monthOf date + months) date + days := by
  obtain ⟨⟨-, hdate⟩, hresult⟩ := Option.ite_none_right_eq_some.mp h
  rw [Option.some_inj] at hresult
  exact ⟨hresult ▸ hdate, hresult.symm⟩

def relativedelta : Relativedelta where
  plus := shift
  isDate h := (shift_eq_some h).1
  month h := by
    rw [(shift_eq_some h).2, Int.add_zero, monthOf_dayOfMonth]
  day h := by
    rw [(shift_eq_some h).2, Int.add_zero, civil_day, monthOf_dayOfMonth, dayOfMonth]
    omega
  days months days date := by
    unfold shift
    rw [Int.add_zero]
    by_cases h : IsDate (dayOfMonth (monthOf date + months) date)
    · simp [h]
    · simp [h]
  defined {months date} _ hmin hmax := by
    have h := (isDate_dayOfMonth (monthOf date + months) date).mpr ⟨hmin, hmax⟩
    unfold shift
    rw [Int.add_zero, if_pos ⟨h, h⟩]
    rfl

end PyTime
