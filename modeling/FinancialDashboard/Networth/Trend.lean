import FinancialDashboard.Core.Dates
import FinancialDashboard.Networth.Current

/-!
# The monthly net worth

`monthly_trend` of `services/networth.py` against `current_networth`.  The rows are those of
the table as its columns allow them, of any kind, source, key and currency; a `RawDatabase`
is only promised a primary key.

* `onePass_netWorth`: one pass through any cutoffs in order sees what the net worth was at each.
* `trendFrom_eq`: the loop over the months is one pass through their cutoffs.
* `monthlyTrend_eq_naive`: the trend is the net worth of each month's cutoff.
* `currentNetWorth_toRaw`: `currentNetworth` of a `Database` is that of its raw rows.
-/

namespace FinancialDashboard.Networth

open PyTime FinancialDashboard.Core Posting

/-! ### Raw rows -/

/-- A row of `balance_snapshots` with its columns as they are. -/
structure SnapshotRow where
  id : Nat
  accountId : Option Nat
  manualItemId : Option Nat
  portfolioKey : Option String
  kind : String
  category : String
  asOfDate : Int
  value : Rat
  currency : String
  deriving DecidableEq, Repr

structure RawDatabase where
  rows : List SnapshotRow
  ids : rows.Pairwise fun a b => a.id ≠ b.id
  accounts : List Account
  manualItems : List ManualItem

/-- The tuples of `_source_key`. -/
inductive RowKey
  | acct (accountId : Nat) (category : String)
  | inv (portfolioKey : String) (category : String)
  | man (manualItemId : Option Nat)
  deriving DecidableEq, Repr

namespace SnapshotRow

def rank (row : SnapshotRow) : Int ×ₗ Nat := toLex (row.asOfDate, row.id)

/-- `_source_key`. -/
def sourceKey (row : SnapshotRow) : RowKey :=
  match row.accountId, row.portfolioKey with
  | some account, _ => .acct account row.category
  | none, some portfolio => .inv portfolio row.category
  | none, none => .man row.manualItemId

end SnapshotRow

/-- The account and the item of the row, as far as it has such, are not inactive. -/
def RawDatabase.isActive (db : RawDatabase) (row : SnapshotRow) : Bool :=
  let account := row.accountId.bind fun id => db.accounts.find? (·.id = id)
  let manualItem := row.manualItemId.bind fun id => db.manualItems.find? (·.id = id)
  (row.accountId.isNone || account.bind (·.active) ≠ some false) &&
    (row.manualItemId.isNone || manualItem.bind (·.active) ≠ some false)

/-- The query of both, in order of date and id. -/
def RawDatabase.activeRows (db : RawDatabase) : List SnapshotRow :=
  (db.rows.filter db.isActive).mergeSort fun a b => a.rank ≤ b.rank

abbrev Best := AList fun _ : RowKey => SnapshotRow

/-- What a row adds to the assets and to the liabilities. -/
def addRow (totals : Rat × Rat) (row : SnapshotRow) : Rat × Rat :=
  if row.currency ≠ "INR" then totals
  else if row.kind = "asset" then (totals.1 + row.value, totals.2)
  else if row.kind = "liability" then (totals.1, totals.2 + row.value)
  else totals

/-- The assets less the liabilities of the latest of each source. -/
def netWorth (best : Best) : Rat :=
  let totals := (best.entries.map (·.2)).foldl addRow (0, 0)
  totals.1 - totals.2

/-- `_latest_per_source`. -/
def latestRows (rows : List SnapshotRow) (asOf : Int) : Best :=
  Dict.latest SnapshotRow.sourceKey (fun row current => current.rank < row.rank)
    (rows.filter (·.asOfDate ≤ asOf))

/-- The `net_worth` of `current_networth`. -/
def RawDatabase.currentNetworth (db : RawDatabase) (today : Int) : Rat :=
  netWorth (latestRows db.activeRows today)

/-! ### The trend -/

structure TrendPoint where
  month : String
  value : Rat
  deriving DecidableEq, Repr

section

variable (delta : Relativedelta) (today : Int)

theorem lt_of_monthEnd {delta : Relativedelta} {today month last : Int}
    (h : monthEnd delta (firstOf month) = .ok last) (hlast : ¬today ≤ last) :
    (monthOf today - (month + 1)).toNat < (monthOf today - month).toNat := by
  have hend := monthEnd_eq h
  rw [monthOf_firstOf] at hend
  have hmonth : month + 1 ≤ monthOf today := firstOf_le_iff.mp (by omega)
  omega

/-- The loop, from a month on, with the snapshots that are left. -/
def trendFrom (month : Int) (best : Best) (snapshots : List SnapshotRow) :
    Except Raised (List TrendPoint) :=
  match h : monthEnd delta (firstOf month) with
  | .error e => .error e
  | .ok last =>
    let cutoff := min last today
    let taken := Dict.advance SnapshotRow.sourceKey (·.asOfDate) cutoff best snapshots
    let point : TrendPoint := ⟨monthKey cutoff, netWorth taken.1⟩
    if hlast : today ≤ last then .ok [point]
    else (trendFrom (month + 1) taken.1 taken.2).map (point :: ·)
termination_by (monthOf today - month).toNat
decreasing_by exact lt_of_monthEnd h hlast

/-- `monthly_trend`. -/
def monthlyTrend (db : RawDatabase) : Except Raised (List TrendPoint) :=
  match db.activeRows with
  | [] => .ok []
  | earliest :: rest =>
    if today < earliest.asOfDate then .ok []
    else trendFrom delta today (monthOf earliest.asOfDate) ∅ (earliest :: rest)

/-! ### The naive trend -/

/-- The month ends from a month on, the last of them cut at today. -/
def cutoffsFrom (month : Int) : Except Raised (List Int) :=
  match h : monthEnd delta (firstOf month) with
  | .error e => .error e
  | .ok last =>
    if hlast : today ≤ last then .ok [min last today]
    else (cutoffsFrom (month + 1)).map (min last today :: ·)
termination_by (monthOf today - month).toNat
decreasing_by exact lt_of_monthEnd h hlast

/-- The cutoffs of the months from the earliest snapshot's to this one. -/
def cutoffs (db : RawDatabase) : Except Raised (List Int) :=
  match db.activeRows with
  | [] => .ok []
  | earliest :: _ =>
    if today < earliest.asOfDate then .ok [] else cutoffsFrom delta today (monthOf earliest.asOfDate)

/-- The net worth as of each cutoff, each computed for itself. -/
def naiveTrend (db : RawDatabase) : Except Raised (List TrendPoint) :=
  (cutoffs delta today db).map fun dates =>
    dates.map fun cutoff => ⟨monthKey cutoff, db.currentNetworth cutoff⟩

end

/-! ### One pass -/

section

variable {delta : Relativedelta} {db : RawDatabase} {today month : Int} {dates : List Int}
  {best : Best} {rows : List SnapshotRow}

/-- The rows of the query are in the order of their rank. -/
theorem sorted_activeRows (db : RawDatabase) :
    db.activeRows.Pairwise fun a b => a.rank < b.rank := by
  have hle : db.activeRows.Pairwise fun a b => decide (a.rank ≤ b.rank) = true :=
    List.pairwise_mergeSort (fun a b c => by simpa using le_trans) (fun a b => by simpa using le_total _ _) _
  have hne : db.activeRows.Pairwise fun a b => a.id ≠ b.id :=
    ((List.mergeSort_perm _ _).pairwise_iff fun h => h.symm).mpr (db.ids.filter _)
  refine (hle.and hne).imp fun h => lt_of_le_of_ne (of_decide_eq_true h.1) fun heq => h.2 ?_
  exact congrArg (fun p => (ofLex p).2) heq

theorem dates_of_rank {a b : SnapshotRow} (h : a.rank < b.rank) : a.asOfDate ≤ b.asOfDate := by
  rcases Prod.Lex.lt_iff.mp h with h | h
  · exact h.le
  · exact h.1.le

/-- One pass sees the net worth of every cutoff, whatever the cutoffs in order. -/
theorem onePass_netWorth (db : RawDatabase) (hdates : dates.Pairwise (· ≤ ·)) :
    Dict.onePass SnapshotRow.sourceKey (·.asOfDate) netWorth ∅ db.activeRows dates =
      dates.map db.currentNetworth :=
  Dict.onePass_eq (sorted_activeRows db) ((sorted_activeRows db).imp dates_of_rank) hdates (by simp)

/-- The points of some cutoffs with what was seen at each. -/
def points (dates : List Int) (values : List Rat) : List TrendPoint :=
  List.zipWith (fun cutoff value => ⟨monthKey cutoff, value⟩) dates values

theorem cutoffsFrom_error {e : Raised} (h : monthEnd delta (firstOf month) = .error e) :
    cutoffsFrom delta today month = .error e := by
  rw [cutoffsFrom]
  split <;> simp_all

theorem cutoffsFrom_ok {last : Int} (h : monthEnd delta (firstOf month) = .ok last) :
    cutoffsFrom delta today month = if today ≤ last then .ok [min last today]
      else (cutoffsFrom delta today (month + 1)).map (min last today :: ·) := by
  rw [cutoffsFrom]
  split
  · simp_all
  · rename_i last' h'
    obtain rfl := Except.ok.inj (h.symm.trans h')
    split_ifs <;> rfl

/-- **The loop is one pass through the cutoffs of its months.** -/
theorem trendFrom_eq (month : Int) (best : Best) (rows : List SnapshotRow) :
    trendFrom delta today month best rows = (cutoffsFrom delta today month).map fun dates =>
      points dates (Dict.onePass SnapshotRow.sourceKey (·.asOfDate) netWorth best rows dates) := by
  fun_induction trendFrom delta today month best rows with
  | case1 month best rows e h =>
    rw [cutoffsFrom_error h]
    rfl
  | case2 month best rows last h cutoff taken point hlast =>
    rw [cutoffsFrom_ok h, if_pos hlast]
    rfl
  | case3 month best rows last h cutoff taken point hlast ih =>
    rw [cutoffsFrom_ok h, if_neg hlast, ih]
    cases cutoffsFrom delta today (month + 1) with
    | error e => rfl
    | ok dates => rfl

/-- The cutoffs are in order, and none is before the month they start from. -/
theorem pairwise_cutoffsFrom (h : cutoffsFrom delta today month = .ok dates) :
    dates.Pairwise (· ≤ ·) ∧ ∀ date ∈ dates, min (firstOf month) today ≤ date := by
  fun_induction cutoffsFrom delta today month generalizing dates with
  | case1 month e hend => cases h
  | case2 month last hend hlast =>
    obtain rfl := Except.ok.inj h
    have heq := monthEnd_eq hend
    have hlt := firstOf_lt_succ month
    rw [monthOf_firstOf] at heq
    refine ⟨List.pairwise_singleton _ _, fun date hdate => ?_⟩
    rw [List.mem_singleton.mp hdate]
    omega
  | case3 month last hend hlast ih =>
    cases hrest : cutoffsFrom delta today (month + 1) with
    | error e =>
      rw [hrest] at h
      cases h
    | ok rest =>
      rw [hrest] at h
      obtain rfl := Except.ok.inj h
      obtain ⟨hsorted, hfrom⟩ := ih hrest
      have heq := monthEnd_eq hend
      have hlt := firstOf_lt_succ month
      rw [monthOf_firstOf] at heq
      have hnext : ∀ date ∈ rest, min last today ≤ date := by
        intro date hdate
        have hdate := hfrom date hdate
        omega
      refine ⟨List.pairwise_cons.mpr ⟨hnext, hsorted⟩, fun date hdate => ?_⟩
      rcases List.mem_cons.mp hdate with rfl | hdate
      · omega
      · have hdate := hnext date hdate
        omega

theorem monthlyTrend_eq (today : Int) (db : RawDatabase) :
    monthlyTrend delta today db = naiveTrend delta today db := by
  unfold monthlyTrend naiveTrend cutoffs
  cases hrows : db.activeRows with
  | nil => rfl
  | cons earliest rest =>
    dsimp only
    split_ifs with hfuture
    · rfl
    · rw [trendFrom_eq]
      cases hdates : cutoffsFrom delta today (monthOf earliest.asOfDate) with
      | error e => rfl
      | ok dates =>
        refine congrArg Except.ok ?_
        dsimp only
        rw [← hrows, onePass_netWorth db (pairwise_cutoffsFrom hdates).1, points,
          List.zipWith_map_right, List.zipWith_self]

/-- **The trend is the naive computation**: one pass sees the net worth of every cutoff,
whatever the cutoffs in order, and the months' cutoffs are such. -/
theorem monthlyTrend_eq_naive (delta : Relativedelta) (db : RawDatabase) :
    (∀ dates : List Int, dates.Pairwise (· ≤ ·) →
      Dict.onePass SnapshotRow.sourceKey (·.asOfDate) netWorth ∅ db.activeRows dates =
        dates.map db.currentNetworth) ∧
    ∀ today, monthlyTrend delta today db = naiveTrend delta today db :=
  ⟨fun _ hdates => onePass_netWorth db hdates, fun today => monthlyTrend_eq today db⟩

/-- An account and a portfolio, of which a statement in another currency is the last. -/
def someRows : RawDatabase where
  rows := [⟨1, some 1, none, none, "asset", "bank_balance", 738990, 500, "INR"⟩,
    ⟨2, none, none, some "P", "asset", "investment", 738990, 70, "INR"⟩,
    ⟨3, some 1, none, none, "asset", "bank_balance", 738990, 600, "INR"⟩,
    ⟨4, none, none, some "P", "asset", "investment", 739000, 80, "USD"⟩,
    ⟨5, none, some 1, none, "liability", "manual_liability", 739100, 90, "INR"⟩]
  ids := by decide
  accounts := []
  manualItems := []

theorem monthlyTrend_eq_naive_someRows :
    Dict.onePass SnapshotRow.sourceKey (·.asOfDate) netWorth ∅ someRows.activeRows
      [738990, 738999, 739200] = [738990, 738999, 739200].map someRows.currentNetworth ∧
    monthlyTrend relativedelta 739010 someRows = naiveTrend relativedelta 739010 someRows :=
  ⟨(monthlyTrend_eq_naive relativedelta someRows).1 _ (by decide),
    (monthlyTrend_eq_naive relativedelta someRows).2 739010⟩

theorem exists_cutoffsFrom (hmonth : 12 ≤ month) (hto : month ≤ monthOf today)
    (hlast : monthOf today + 1 < 120000) : ∃ dates, cutoffsFrom delta today month = .ok dates := by
  fun_induction cutoffsFrom delta today month with
  | case1 month e hend =>
    have hdate : IsDate (firstOf month) := isDate_firstOf.mpr (by omega)
    have hlength : ∃ last, monthEnd delta (firstOf month) = .ok last :=
      exists_monthEnd hdate (by rw [monthOf_firstOf]; omega)
    obtain ⟨last, hok⟩ := hlength
    rw [hend] at hok
    cases hok
  | case2 month last hend hdone => exact ⟨_, rfl⟩
  | case3 month last hend hdone ih =>
    have hlt := lt_of_monthEnd hend hdone
    obtain ⟨rest, hrest⟩ := ih (by omega) (by omega)
    exact ⟨_, by rw [hrest]; rfl⟩

/-- **There is a trend**, unless it ends in the last month that there is. -/
theorem exists_monthlyTrend (hdates : ∀ row ∈ db.rows, IsDate row.asOfDate)
    (hlast : monthOf today + 1 < 120000) : ∃ trend, monthlyTrend delta today db = .ok trend := by
  have hcutoffs : ∃ dates, cutoffs delta today db = .ok dates := by
    unfold cutoffs
    cases hrows : db.activeRows with
    | nil => exact ⟨[], rfl⟩
    | cons earliest rest =>
      dsimp only
      split_ifs with hfuture
      · exact ⟨[], rfl⟩
      · have hmem : earliest ∈ db.activeRows := hrows ▸ List.mem_cons_self
        have hearliest := hdates _ (List.mem_filter.mp (List.mem_mergeSort.mp hmem)).1
        exact exists_cutoffsFrom (isDate_iff.mp hearliest).1 (monthOf_mono (by omega)) hlast
  obtain ⟨dates, hok⟩ := hcutoffs
  exact ⟨_, by rw [monthlyTrend_eq, naiveTrend, hok]; rfl⟩

end

/-! ### The rows of the database -/

section

variable {db : Database} {s : BalanceSnapshot}

namespace SourceKey

/-- The key as its tuple of texts. -/
def toRow : SourceKey → RowKey
  | acct account category => .acct account category.value
  | inv portfolio category => .inv portfolio category.value
  | man item => .man item

end SourceKey

def BalanceSnapshot.toRow (s : BalanceSnapshot) : SnapshotRow where
  id := s.id
  accountId := s.accountId
  manualItemId := s.manualItemId
  portfolioKey := s.portfolioKey
  kind := s.kind.value
  category := s.category.value
  asOfDate := s.asOfDate
  value := s.value
  currency := s.currency

def Database.toRaw (db : Database) : RawDatabase where
  rows := db.snapshots.rows.map BalanceSnapshot.toRow
  ids := List.pairwise_map.mpr db.snapshots.ids
  accounts := db.accounts
  manualItems := db.manualItems

theorem value_injective : Function.Injective SnapshotCategory.value := by
  intro a b h
  cases a <;> cases b <;> first | rfl | exact absurd h (by decide)

theorem toRow_injective : Function.Injective SourceKey.toRow := by
  intro a b h
  cases a <;> cases b <;> simp_all [SourceKey.toRow, value_injective.eq_iff]

theorem sourceKey_toRow (s : BalanceSnapshot) : s.toRow.sourceKey = (sourceKey s).toRow := by
  unfold SnapshotRow.sourceKey sourceKey BalanceSnapshot.toRow
  cases s.accountId with
  | some account => rfl
  | none => cases s.portfolioKey <;> rfl

theorem activeRows_toRaw (db : Database) :
    db.toRaw.activeRows = db.activeSnapshots.map BalanceSnapshot.toRow := by
  unfold RawDatabase.activeRows Database.activeSnapshots
  refine Eq.trans ?_ (List.map_mergeSort (r := fun a b : BalanceSnapshot => decide (a.rank ≤ b.rank))
    (s := fun a b : SnapshotRow => decide (a.rank ≤ b.rank)) fun _ _ _ _ => rfl).symm
  refine congrArg (List.mergeSort · _) ?_
  exact List.filter_map

variable (db) in
theorem foldl_addRow (current : List BalanceSnapshot) (totals : Rat × Rat) (today : Int) :
    (current.map BalanceSnapshot.toRow).foldl addRow totals =
      (totals.1 + totalOf .asset ((current.filter (·.currency = "INR")).map (sourceBalance db today)),
        totals.2 +
          totalOf .liability ((current.filter (·.currency = "INR")).map (sourceBalance db today))) := by
  induction current generalizing totals with
  | nil => simp [totalOf]
  | cons s rest ih =>
    rw [List.map_cons, List.foldl_cons, ih]
    by_cases hcurrency : s.currency = "INR"
    · cases hkind : s.kind with
      | asset =>
        simp [addRow, BalanceSnapshot.toRow, sourceBalance, totalOf, hcurrency, hkind,
          SnapshotKind.value, add_assoc]
      | liability =>
        simp [addRow, BalanceSnapshot.toRow, sourceBalance, totalOf, hcurrency, hkind,
          SnapshotKind.value, add_assoc]
    · simp [addRow, BalanceSnapshot.toRow, hcurrency]

/-- **The net worth of the database is that of its rows.** -/
theorem currentNetworth_toRaw [PyText.UnicodeTables] (db : Database) (today : Int) :
    (currentNetworth db today).netWorth = db.toRaw.currentNetworth today := by
  have hrows : db.toRaw.activeRows.filter (·.asOfDate ≤ today) =
      (db.activeSnapshots.filter (·.asOfDate ≤ today)).map BalanceSnapshot.toRow := by
    rw [activeRows_toRaw, List.filter_map]
    rfl
  have hlatest : (latestRows db.toRaw.activeRows today).entries.map (·.2) =
      (latestPerSource db.activeSnapshots today).map BalanceSnapshot.toRow := by
    have hreplaces : ∀ s current : BalanceSnapshot,
        decide (current.toRow.rank < s.toRow.rank) = decide (current.rank < s.rank) := fun _ _ => rfl
    rw [latestRows, hrows, Dict.entries_latest_map toRow_injective sourceKey_toRow hreplaces,
      latestPerSource, List.map_map, List.map_map]
    rfl
  rw [RawDatabase.currentNetworth, netWorth, hlatest, foldl_addRow db _ _ today]
  simp only [zero_add]
  rfl

end

end FinancialDashboard.Networth
