import FinancialDashboard.Lib.Calendar
import FinancialDashboard.Lib.Posting
import Mathlib.Data.List.Basic

/-!
# Month windows

The calendar periods of the reports (`core/dates.py`).

* `monthStart_eq`, `monthEnd_eq`: the first and the last day of a month.
* `trailingMonthStarts_eq`: the firsts of the trailing months.
* `exists_monthEnd`: the last day is a date unless the calendar ends there.
-/

namespace FinancialDashboard.Core

open PyTime Posting

/-- What a report may raise. -/
inductive Raised
  | valueError | keyError | overflowError
  deriving DecidableEq, Repr

variable (delta : Relativedelta)

/-- `month_start`. -/
def monthStart (day back : Int) : Except Raised Int :=
  (delta.plus (-back) 0 day).elim (.error .valueError) fun date => .ok (firstOf (monthOf date))

/-- `month_end`. -/
def monthEnd (day : Int) : Except Raised Int :=
  (delta.plus 1 (-1) (firstOf (monthOf day))).elim (.error .valueError) .ok

/-- `trailing_month_starts`. -/
def trailingMonthStarts (day : Int) (months : Nat) : Except Raised (List Int) :=
  (List.range months).reverse.mapM fun back : Nat => monthStart delta day back

variable {delta} {day back first last month : Int} {months : Nat} {window : List Int}

theorem isDate_firstOf : IsDate (firstOf month) ↔ 12 ≤ month ∧ month < 120000 := by
  rw [isDate_iff, monthOf_firstOf]

theorem monthStart_eq (h : monthStart delta day back = .ok first) :
    first = firstOf (monthOf day - back) ∧ IsDate first := by
  unfold monthStart at h
  cases hplus : delta.plus (-back) 0 day with
  | none =>
    rw [hplus] at h
    cases h
  | some date =>
    rw [hplus] at h
    obtain rfl := Except.ok.inj h
    have hmonth := delta.month hplus
    refine ⟨congrArg firstOf (by omega), isDate_firstOf.mpr ?_⟩
    exact isDate_iff.mp (delta.isDate hplus)

/-- One month on from the first of a month is the first of the next. -/
theorem plus_month_eq {next : Int} (h : delta.plus 1 0 (firstOf month) = some next) :
    next = firstOf (month + 1) := by
  have hmonth := delta.month h
  have hday := delta.day h
  have hbounds := daysInMonth_bounds (monthOf next)
  rw [monthOf_firstOf] at hmonth
  rw [civil_day_firstOf, civil_day, hmonth] at hday
  rw [hmonth] at hbounds
  omega

theorem monthEnd_eq (h : monthEnd delta day = .ok last) : last = firstOf (monthOf day + 1) - 1 := by
  rw [monthEnd, delta.days] at h
  cases hplus : delta.plus 1 0 (firstOf (monthOf day)) with
  | none =>
    rw [hplus] at h
    cases h
  | some next =>
    rw [hplus, Option.bind_some, plus_month_eq hplus] at h
    split_ifs at h with hdate
    · exact (Except.ok.inj h).symm
    · cases h

theorem exists_monthEnd (hday : IsDate day) (h : monthOf day + 1 < 120000) :
    ∃ last, monthEnd delta day = .ok last := by
  obtain ⟨hmin, -⟩ := isDate_iff.mp hday
  have hfirst : IsDate (firstOf (monthOf day)) := isDate_firstOf.mpr (by omega)
  have hnext : IsDate (firstOf (monthOf day + 1)) := isDate_firstOf.mpr (by omega)
  have hlast : IsDate (firstOf (monthOf day + 1) + -1) := by
    have hlt := firstOf_lt_succ (monthOf day)
    unfold IsDate at *
    omega
  have hdefined : (delta.plus 1 0 (firstOf (monthOf day))).isSome :=
    delta.defined hfirst (by rw [monthOf_firstOf]; omega) (by rw [monthOf_firstOf]; omega)
  obtain ⟨next, hplus⟩ := Option.isSome_iff_exists.mp hdefined
  refine ⟨firstOf (monthOf day + 1) + -1, ?_⟩
  rw [monthEnd, delta.days, hplus, Option.bind_some, plus_month_eq hplus, if_pos hlast]
  rfl

theorem trailingMonthStarts_eq (h : trailingMonthStarts delta day months = .ok window) :
    window = (List.range months).reverse.map (fun back : Nat => firstOf (monthOf day - back)) ∧
      ∀ start ∈ window, IsDate start := by
  constructor
  · exact eq_map_of_mapM (fun back start hback => (monthStart_eq hback).1) h
  · intro start hstart
    obtain ⟨back, -, hback⟩ := exists_left (forall₂_of_mapM h) hstart
    exact (monthStart_eq hback).2

theorem headD_mem (hmonths : 0 < months) (h : trailingMonthStarts delta day months = .ok window) :
    window.headD day ∈ window := by
  obtain ⟨hwindow, -⟩ := trailingMonthStarts_eq h
  obtain ⟨n, rfl⟩ : ∃ n, months = n + 1 := ⟨months - 1, by omega⟩
  rw [hwindow, List.range_succ, List.reverse_append]
  exact List.mem_cons_self

/-- A trailing month starts on a first, between the first of the window and the day. -/
theorem of_mem_trailingMonthStarts {start : Int} (hmonths : 0 < months)
    (h : trailingMonthStarts delta day months = .ok window) (hstart : start ∈ window) :
    IsDate start ∧ window.headD day ≤ start ∧ start = firstOf (monthOf start) ∧ start ≤ day := by
  obtain ⟨hwindow, hdates⟩ := trailingMonthStarts_eq h
  obtain ⟨n, rfl⟩ : ∃ n, months = n + 1 := ⟨months - 1, by omega⟩
  refine ⟨hdates start hstart, ?_⟩
  rw [hwindow] at hstart
  obtain ⟨back, hback, rfl⟩ := List.mem_map.mp hstart
  rw [List.mem_reverse, List.mem_range] at hback
  refine ⟨?_, by rw [monthOf_firstOf], firstOf_le_iff.mpr (by omega)⟩
  rw [hwindow, List.range_succ, List.reverse_append]
  exact firstOf_strictMono.monotone (by omega)

/-- **A day from the first of the window on** is in a month of the window. -/
theorem firstOf_mem_window {date : Int} (hmonths : 0 < months)
    (h : trailingMonthStarts delta day months = .ok window) (hfrom : window.headD day ≤ date)
    (hto : date ≤ day) : firstOf (monthOf date) ∈ window := by
  obtain ⟨hwindow, -⟩ := trailingMonthStarts_eq h
  obtain ⟨n, rfl⟩ : ∃ n, months = n + 1 := ⟨months - 1, by omega⟩
  have hhead : window.headD day = firstOf (monthOf day - n) := by
    rw [hwindow, List.range_succ, List.reverse_append]
    rfl
  have hearliest : monthOf day - n ≤ monthOf date := firstOf_le_iff.mp (hhead ▸ hfrom)
  have hlatest := monthOf_mono hto
  rw [hwindow, List.mem_map]
  refine ⟨(monthOf day - monthOf date).toNat, ?_, congrArg firstOf (by omega)⟩
  rw [List.mem_reverse, List.mem_range]
  omega

end FinancialDashboard.Core
