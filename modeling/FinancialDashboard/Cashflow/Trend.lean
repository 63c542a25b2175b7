import FinancialDashboard.Cashflow.Reconciliation
import FinancialDashboard.Core.Dates

/-!
# The trend

`cashflow_trend` and `trend_ranges` (`services/cashflow/report.py`).  The trend is one
query by month, category and direction over the whole window; a month of it is set against
the summary of that month's range.

* `filter_window`: the rows of the window with the key of a month are those of its range.
* `figure_addFlow`, `figure_foldl_addFlow`: a group is counted in its bucket.
* `cashflowTrend_agrees`: the points say what the summaries of their ranges say.
-/

namespace FinancialDashboard.Cashflow

open Sql Sql.Truth Transactions PyTime FinancialDashboard.Core Posting

/-! ### Ranges -/

def maxTrendMonths : Int := 60

/-- `max(1, min(months, MAX_TREND_MONTHS))`. -/
def trendMonths (months : Int) : Nat := (max 1 (min months maxTrendMonths)).toNat

section

variable (delta : Relativedelta)

/-- The inclusive range that a month of the trend means. -/
def trendRange (today start : Int) : Except Raised (Int × Int) := do
  let last ← monthEnd delta start
  return (start, min last today)

def trendDates (months today : Int) : Except Raised (List (Int × Int)) := do
  let window ← trailingMonthStarts delta today (trendMonths months)
  window.mapM (trendRange delta today)

/-- `trend_ranges`: each month with the bounds of its range. -/
def trendRanges (months today : Int) : Except Raised (List (String × String × String)) := do
  let dates ← trendDates delta months today
  return dates.map fun (start, stop) => (monthKey start, isoformat start, isoformat stop)

/-! ### Points -/

structure TrendPoint where
  month : String
  income : Rat
  expense : Rat
  netInvested : Rat
  salaryCount : Nat
  deriving DecidableEq, Repr

/-- A month with no rows. -/
def TrendPoint.zero (month : String) : TrendPoint := ⟨month, 0, 0, 0, 0⟩

/-- `strftime("%Y-%m", transaction_date)`. -/
def rowMonth (t : BookedTransaction) : Option String := t.transactionDate.map monthKey

/-- What the loop adds to the point of a group. -/
def addFlow (group : Group (Option String × Option String × String) Rat) (point : TrendPoint) :
    TrendPoint :=
  let signed := decimal group.sum
  match bucketForSlug group.key.2.1 (some .bank) with
  | .income => { point with income := point.income + signed }
  | .expense => { point with expense := point.expense + -signed }
  | .investment => { point with netInvested := point.netInvested + -signed }
  | _ => point

variable (session : Session)

/-- The rows that the monetary series sum. -/
def flowRows (first today : Int) : List BookedTransaction :=
  select [inRange first today, inrOrNull, bankScope session, included] session.transactions.rows

def flowGroups (first today : Int) : List (Group (Option String × Option String × String) Rat) :=
  groupBy (fun t => (rowMonth t, t.category, t.direction)) signedFlow (flowRows session first today)

/-- The salary credits, of whatever currency. -/
def salaryRows (first today : Int) : List BookedTransaction :=
  select [inRange first today, bankScope session, included, ofCategory "salary"]
    session.transactions.rows

def salaryGroups (first today : Int) : List (Group (Option String) Rat) :=
  groupBy rowMonth signedFlow (salaryRows session first today)

/-- The points of the window, by month; a row without a date has a key that none has. -/
def seeded (window : List Int) : AList fun _ : Option String => TrendPoint :=
  Dict.ofKeys (fun key => .zero (key.getD "")) (window.map fun start => some (monthKey start))

def readPoint (points : AList fun _ : Option String => TrendPoint) (start : Int) :
    Except Raised TrendPoint :=
  (points.lookup (some (monthKey start))).elim (.error .keyError) .ok

/-- `cashflow_trend`; `window[0]` is its first month, which there always is. -/
def cashflowTrend (months today : Int) : Except Raised (List TrendPoint) := do
  let window ← trailingMonthStarts delta today (trendMonths months)
  let first := window.headD today
  let points ← (flowGroups session first today).foldlM
    (fun points group => Dict.adjust .keyError group.key.1 (addFlow group) points) (seeded window)
  let points ← (salaryGroups session first today).foldlM (fun points group =>
    Dict.adjust .keyError group.key (fun point => { point with salaryCount := group.count }) points)
    points
  window.mapM (readPoint points)

end

/-! ### The rows of a month -/

section

variable {t : BookedTransaction} {first start stop today : Int}

theorem holds_inRange {dateFrom dateTo : Int} : (inRange dateFrom dateTo t).holds = true ↔
    ∃ date, t.transactionDate = some date ∧ dateFrom ≤ date ∧ date ≤ dateTo := by
  cases h : t.transactionDate with
  | none => simp [inRange, between, h, holds]
  | some date => simp [inRange, between, h]

/-- The range of a month that starts in the window. -/
structure IsMonth (first today start stop : Int) : Prop where
  isDate : IsDate start
  from_first : first ≤ start
  is_first : start = firstOf (monthOf start)
  until_end : stop = min (firstOf (monthOf start + 1) - 1) today

/-- **The key of a month is its range**, for a row of the window. -/
theorem inRange_month_iff (hfirst : IsDate first) (htoday : IsDate today)
    (h : IsMonth first today start stop) :
    (inRange first today t).holds = true ∧ rowMonth t = some (monthKey start) ↔
      (inRange start stop t).holds = true := by
  rw [holds_inRange, holds_inRange]
  constructor
  · rintro ⟨⟨date, hdate, hfrom, hto⟩, hkey⟩
    rw [rowMonth, hdate, Option.map_some, Option.some_inj,
      monthKey_inj ⟨hfirst.1.trans hfrom, hto.trans htoday.2⟩ h.isDate] at hkey
    have hstart : firstOf (monthOf start) ≤ date := firstOf_le_iff.mpr hkey.ge
    have hstop : date < firstOf (monthOf start + 1) := lt_firstOf_iff.mpr (by omega)
    have hstop' := h.until_end
    exact ⟨date, hdate, h.is_first.trans_le hstart, by omega⟩
  · rintro ⟨date, hdate, hfrom, hto⟩
    have hstop := h.until_end
    have hfrom' := h.from_first
    have hmonth : monthOf date = monthOf start := by
      have hge : monthOf start ≤ monthOf date := monthOf_mono hfrom
      have hlt : monthOf date < monthOf start + 1 := lt_firstOf_iff.mp (by omega)
      omega
    have hisDate : IsDate date := ⟨h.isDate.1.trans hfrom, le_trans (by omega) htoday.2⟩
    refine ⟨⟨date, hdate, by omega, by omega⟩, ?_⟩
    rw [rowMonth, hdate, Option.map_some, (monthKey_inj hisDate h.isDate).mpr hmonth]

/-- **The rows of the window with the key of a month** are the rows of its range. -/
theorem filter_window (hfirst : IsDate first) (htoday : IsDate today)
    (h : IsMonth first today start stop) (clauses : List (BookedTransaction → Truth))
    (rows : List BookedTransaction) :
    (select (inRange first today :: clauses) rows).filter
        (fun t => rowMonth t = some (monthKey start)) =
      select (inRange start stop :: clauses) rows := by
  unfold select
  rw [List.filter_filter]
  refine List.filter_congr fun t _ => ?_
  have hmonth := inRange_month_iff (t := t) hfirst htoday h
  rw [Bool.eq_iff_iff, Bool.and_eq_true, decide_eq_true_iff, holds_all, holds_all,
    List.forall_mem_cons, List.forall_mem_cons, ← hmonth]
  tauto

end

/-! ### The points -/

/-- What a point says of a bucket, credits counting as positive. -/
def TrendPoint.figure (point : TrendPoint) : Bucket → Rat
  | .income => point.income
  | .expense => -point.expense
  | .investment => -point.netInvested
  | _ => 0

section

variable {b : Bucket} {point : TrendPoint}

/-- **A group is counted in its bucket** and in no other. -/
theorem figure_addFlow (hb : b ∈ headlineBuckets)
    (group : Group (Option String × Option String × String) Rat) :
    (addFlow group point).figure b = point.figure b +
      if bucketForSlug group.key.2.1 (some .bank) = b then group.tally.1 else 0 := by
  have hsum : decimal group.sum = group.tally.1 := rfl
  simp only [headlineBuckets, List.mem_cons, List.not_mem_nil, or_false] at hb
  unfold addFlow
  cases bucketForSlug group.key.2.1 (some .bank) <;> rcases hb with rfl | rfl | rfl <;>
    simp [TrendPoint.figure, hsum, add_comm]

variable (point) in
theorem figure_foldl_addFlow (hb : b ∈ headlineBuckets)
    (groups : List (Group (Option String × Option String × String) Rat)) :
    (groups.foldl (fun point group => addFlow group point) point).figure b = point.figure b +
      ((groups.filter fun g => bucketForSlug g.key.2.1 (some .bank) = b).map Group.tally).sum.1 := by
  induction groups generalizing point with
  | nil => simp
  | cons group rest ih =>
    rw [List.foldl_cons, ih, figure_addFlow hb, List.filter_cons]
    by_cases h : bucketForSlug group.key.2.1 (some .bank) = b
    · simp [h, add_assoc]
    · simp [h]

theorem month_addFlow (group : Group (Option String × Option String × String) Rat) :
    (addFlow group point).month = point.month := by
  unfold addFlow
  cases bucketForSlug group.key.2.1 (some .bank) <;> rfl

theorem month_foldl_addFlow (groups : List (Group (Option String × Option String × String) Rat)) :
    (groups.foldl (fun point group => addFlow group point) point).month = point.month := by
  induction groups generalizing point with
  | nil => rfl
  | cons group rest ih => rw [List.foldl_cons, ih, month_addFlow]

variable (point) in
/-- The salary count leaves the rest of a point alone. -/
theorem foldl_salaryCount (groups : List (Group (Option String) Rat)) :
    ∃ count, groups.foldl (fun (point : TrendPoint) group =>
      { point with salaryCount := group.count }) point = { point with salaryCount := count } := by
  induction groups generalizing point with
  | nil => exact ⟨point.salaryCount, rfl⟩
  | cons group rest ih =>
    obtain ⟨count, hcount⟩ := ih { point with salaryCount := group.count }
    exact ⟨count, by rw [List.foldl_cons, hcount]⟩

end

/-! ### Agreement -/

section

variable {delta : Relativedelta} {session : Session} {first start stop today months : Int}
  {window : List Int} {range : Int × Int} {point : TrendPoint} {b : Bucket}

/-- **The groups of a month have the figures of its summary.** -/
theorem sum_flowGroups (hb : b ∈ headlineBuckets) (hfirst : IsDate first) (htoday : IsDate today)
    (h : IsMonth first today start stop) :
    ((((flowGroups session first today).filter fun g => g.key.1 = some (monthKey start)).filter
      fun g => bucketForSlug g.key.2.1 (some .bank) = b).map Group.tally).sum =
        (cashflowSummary session start stop).tally b := by
  have hcounted : countedRows session start stop b = (headlineRows session start stop).filter
      fun t => bucketForSlug t.category (some .bank) = b := by
    simp only [headlineBuckets, List.mem_cons, List.not_mem_nil, or_false] at hb
    rcases hb with rfl | rfl | rfl <;> rfl
  have hrows : headlineRows session start stop =
      (flowRows session first today).filter fun t => rowMonth t = some (monthKey start) :=
    (filter_window hfirst htoday h [inrOrNull, bankScope session, included] _).symm
  rw [tally_cashflowSummary, hcounted, hrows, List.filter_filter, List.filter_filter]
  exact tally_groupBy (fun t : BookedTransaction => (rowMonth t, t.category, t.direction)) signedFlow
    (flowRows session first today) fun key =>
      decide (bucketForSlug key.2.1 (some .bank) = b) && decide (key.1 = some (monthKey start))

/-- What a point says of the three series is what a summary says. -/
structure TrendPoint.Agrees (point : TrendPoint) (summary : CashflowSummary) : Prop where
  income : point.income = summary.income.total
  expense : point.expense = summary.expense.total
  netInvested : point.netInvested = summary.investment.net

theorem agrees_of_figure {summary : CashflowSummary}
    (h : ∀ b ∈ headlineBuckets, point.figure b = (summary.tally b).1) : point.Agrees summary := by
  have hincome : point.income = summary.income.total := h .income (by decide)
  have hexpense : -point.expense = -summary.expense.total := h .expense (by decide)
  have hinvestment : -point.netInvested = -summary.investment.net := h .investment (by decide)
  exact ⟨hincome, neg_injective hexpense, neg_injective hinvestment⟩

theorem trendMonths_pos (months : Int) : 0 < trendMonths months := by
  unfold trendMonths
  omega

/-- A row of the window has the key of a month of the window. -/
theorem exists_month {t : BookedTransaction} {clauses : List (BookedTransaction → Truth)}
    (htoday : IsDate today)
    (hwindow : trailingMonthStarts delta today (trendMonths months) = .ok window)
    (hfirst : IsDate (window.headD today))
    (ht : t ∈ select (inRange (window.headD today) today :: clauses) session.transactions.rows) :
    ∃ start ∈ window, some (monthKey start) = rowMonth t := by
  obtain ⟨date, hdate, hfrom, hto⟩ :=
    holds_inRange.mp ((mem_select.mp ht).2 _ List.mem_cons_self)
  refine ⟨_, firstOf_mem_window (trendMonths_pos months) hwindow hfrom hto, ?_⟩
  have hisDate : IsDate date := ⟨hfirst.1.trans hfrom, hto.trans htoday.2⟩
  rw [rowMonth, hdate, Option.map_some, (monthKey_inj _ hisDate).mpr (monthOf_firstOf _)]
  exact isDate_firstOf.mpr (isDate_iff.mp hisDate)

theorem trendRange_eq (h : trendRange delta today start = .ok range) :
    range = (start, min (firstOf (monthOf start + 1) - 1) today) := by
  obtain ⟨last, hlast, hrange⟩ := bind_eq_ok.mp h
  rw [← monthEnd_eq hlast]
  exact (Except.ok.inj hrange).symm

/-- The point of a month when both loops are done. -/
def finalPoint (session : Session) (first today start : Int) : TrendPoint :=
  ((salaryGroups session first today).filter (·.key = some (monthKey start))).foldl
    (fun point group => { point with salaryCount := group.count })
    (((flowGroups session first today).filter (·.key.1 = some (monthKey start))).foldl
      (fun point group => addFlow group point) (.zero (monthKey start)))

variable (session) in
theorem finalPoint_spec (hfirst : IsDate first) (htoday : IsDate today)
    (h : IsMonth first today start stop) :
    (finalPoint session first today start).month = monthKey start ∧
      (finalPoint session first today start).Agrees (cashflowSummary session start stop) := by
  obtain ⟨count, hcount⟩ := foldl_salaryCount
    (((flowGroups session first today).filter (·.key.1 = some (monthKey start))).foldl
      (fun point group => addFlow group point) (.zero (monthKey start)))
    ((salaryGroups session first today).filter (·.key = some (monthKey start)))
  rw [finalPoint, hcount]
  refine ⟨month_foldl_addFlow _, agrees_of_figure fun b hb => ?_⟩
  have hzero : (TrendPoint.zero (monthKey start)).figure b = 0 := by
    cases b <;> simp [TrendPoint.zero, TrendPoint.figure]
  have hfigure := figure_foldl_addFlow (.zero (monthKey start)) hb
    ((flowGroups session first today).filter (·.key.1 = some (monthKey start)))
  rw [hzero, zero_add, sum_flowGroups hb hfirst htoday h] at hfigure
  rw [← hfigure]
  cases b <;> rfl

/-- **The loops end**, and leave the point of every month in the dictionary. -/
theorem cashflowTrend_eq (htoday : IsDate today)
    (hwindow : trailingMonthStarts delta today (trendMonths months) = .ok window) :
    cashflowTrend delta session months today =
      .ok (window.map (finalPoint session (window.headD today) today)) := by
  have hfirst : IsDate (window.headD today) :=
    (trailingMonthStarts_eq hwindow).2 _ (headD_mem (trendMonths_pos months) hwindow)
  have hseeded : ∀ start ∈ window, (seeded window).lookup (some (monthKey start)) =
      some (.zero (monthKey start)) :=
    fun start hstart => Dict.lookup_ofKeys (List.mem_map_of_mem hstart)
  obtain ⟨points, hflow, hpoints⟩ := Dict.foldlM_adjust (fun g => g.key.1) addFlow
    (flowGroups session (window.headD today) today) (seeded window) Raised.keyError fun g hg => by
      obtain ⟨t, ht, hkey⟩ := (of_mem_groupBy hg).1
      obtain ⟨start, hstart, hmonth⟩ := exists_month htoday hwindow hfirst ht
      rw [← hkey, ← hmonth, hseeded start hstart]
      rfl
  obtain ⟨final, hsalary, hfinal⟩ := Dict.foldlM_adjust (fun g => g.key)
    (fun g (point : TrendPoint) => { point with salaryCount := g.count })
    (salaryGroups session (window.headD today) today) points Raised.keyError
    fun g hg => by
      obtain ⟨t, ht, hkey⟩ := (of_mem_groupBy hg).1
      obtain ⟨start, hstart, hmonth⟩ := exists_month htoday hwindow hfirst ht
      rw [← hkey, ← hmonth, hpoints, hseeded start hstart]
      rfl
  have hread : ∀ start ∈ window, readPoint final start =
      .ok (finalPoint session (window.headD today) today start) := by
    intro start hstart
    rw [readPoint, hfinal, hpoints, hseeded start hstart]
    rfl
  exact bind_eq_ok.mpr ⟨window, hwindow, bind_eq_ok.mpr ⟨points, hflow,
    bind_eq_ok.mpr ⟨final, hsalary, mapM_eq_ok hread⟩⟩⟩

/-- **The trend agrees with the summary** on the range of every month. -/
theorem cashflowTrend_agrees {ranges : List (String × String × String)} (htoday : IsDate today)
    (hranges : trendRanges delta months today = .ok ranges) :
    ∃ points, cashflowTrend delta session months today = .ok points ∧
      List.Forall₂ (fun (range : String × String × String) point => ∃ start stop,
        IsDate start ∧ IsDate stop ∧ range = (monthKey start, isoformat start, isoformat stop) ∧
          point.month = range.1 ∧ point.Agrees (cashflowSummary session start stop))
        ranges points := by
  obtain ⟨dates, hdates, hrendered⟩ := bind_eq_ok.mp hranges
  obtain ⟨window, hwindow, hmap⟩ := bind_eq_ok.mp hdates
  refine ⟨_, cashflowTrend_eq htoday hwindow, ?_⟩
  have hfirst : IsDate (window.headD today) :=
    (trailingMonthStarts_eq hwindow).2 _ (headD_mem (trendMonths_pos months) hwindow)
  rw [← Except.ok.inj hrendered, eq_map_of_mapM (fun start range => trendRange_eq) hmap, List.map_map,
    List.forall₂_map_left_iff, List.forall₂_map_right_iff, List.forall₂_same]
  intro start hstart
  obtain ⟨hdate, hfrom, hisFirst, hto⟩ :=
    of_mem_trailingMonthStarts (trendMonths_pos months) hwindow hstart
  have hlast := firstOf_lt_succ (monthOf start)
  have hstop : IsDate (min (firstOf (monthOf start + 1) - 1) today) :=
    ⟨hdate.1.trans (by omega), (min_le_right _ _).trans htoday.2⟩
  obtain ⟨hmonth, hagrees⟩ := finalPoint_spec session hfirst htoday
    ⟨hdate, hfrom, hisFirst, rfl⟩
  exact ⟨start, _, hdate, hstop, rfl, hmonth, hagrees⟩

/-- A whole month and a part of one. -/
theorem cashflowTrend_agrees_aMonth :
    ∃ points, cashflowTrend relativedelta aMonth 2 739010 = .ok points ∧
      List.Forall₂ (fun (range : String × String × String) point => ∃ start stop,
        IsDate start ∧ IsDate stop ∧ range = (monthKey start, isoformat start, isoformat stop) ∧
          point.month = range.1 ∧ point.Agrees (cashflowSummary aMonth start stop))
        [("2024-04", "2024-04-01", "2024-04-30"), ("2024-05", "2024-05-01", "2024-05-04")] points :=
  cashflowTrend_agrees (by decide) (by decide +kernel)

end

end FinancialDashboard.Cashflow
