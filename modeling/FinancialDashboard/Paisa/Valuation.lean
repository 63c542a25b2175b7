import FinancialDashboard.Lib.Posting
import FinancialDashboard.Lib.Timeline
import FinancialDashboard.Networth.Current
import FinancialDashboard.Paisa.Accounts
import Mathlib.Algebra.Order.Ring.Unbundled.Rat
import Mathlib.Data.List.Sort
import Mathlib.Data.String.Basic

/-!
# The CAS valuation in the projection

What `services/paisa/projection.py` makes of the CAS snapshots:
`loadPortfolioValuations` reads one series of values per portfolio,
`valuationEntries` turns a series into an opening and revaluations, and
`casEntries` does so for all portfolios.

The report's other fields about them (labels, coverage, the total) are left out, and
so is what the projection makes of transactions: its entries are a parameter, all
of another kind.

* `valuationBalance`: what entries post to the valuation accounts up to a day.
* `valuationBalance_valuationEntries`: for one portfolio it is the value in force.
* `valuationBalance_casEntries`: for all of them it is what the portfolios are worth.
-/

namespace FinancialDashboard.Paisa

open Networth PyText

/-! ### The series -/

/-- `_PortfolioValuation`: the values of a portfolio in order of date. -/
structure PortfolioValuation where
  portfolioKey : Option String
  points : List (Int × Rat)
  deriving DecidableEq

/-- `tuple(sorted(points.items()))`. -/
def sortedPoints (points : AList fun _ : Int => Rat) : List (Int × Rat) :=
  (points.entries.map fun e => (e.1, e.2)).insertionSort fun a b => toLex a ≤ toLex b

/-- The snapshots the projection reads: the investments of the CAS uploads. -/
def casSnapshots (rows : List BalanceSnapshot) : List BalanceSnapshot :=
  (rows.filter fun s => s.category = .investment && s.isCas).insertionSort fun a b =>
    a.rank ≤ b.rank

/-- The authoritative snapshot of each portfolio and date. -/
def winners (rows : List BalanceSnapshot) (asOf : Option Int) :
    AList fun _ : Option String × Int => BalanceSnapshot :=
  Dict.latest (fun s => (s.portfolioKey, s.asOfDate)) (fun s current => current.id ≤ s.id)
    ((casSnapshots rows).filter fun s => asOf.all (s.asOfDate ≤ ·))

def perPortfolio (rows : List BalanceSnapshot) (asOf : Option Int) :
    AList fun _ : Option String => AList fun _ : Int => Rat :=
  Dict.nest ((winners rows asOf).entries.map fun e => (e.1, inrValue e.2))

/-- `_load_portfolio_valuations`, without the covered uploads. -/
def loadPortfolioValuations (rows : List BalanceSnapshot) (asOf : Option Int) :
    List PortfolioValuation :=
  (perPortfolio rows asOf).entries.map fun e => ⟨e.1, sortedPoints e.2⟩

/-! ### The entries of a portfolio -/

/-- The opening value, the date it was observed on, and what came later. -/
def splitPoints (cutover : Int) (points : List (Int × Rat)) :
    Rat × Option Int × List (Int × Rat) :=
  points.foldl (fun (opening, openingAsOf, later) (asOfDate, value) =>
    if asOfDate ≤ cutover then (value, some asOfDate, later)
    else (opening, openingAsOf, later ++ [(asOfDate, value)])) (0, none, [])

variable [UnicodeTables]

/-- An entry of `_valuation_entries`: the amount to the account, and its contra. -/
def valuationEntry (account equityAccount : AccountName) (reason payee valuationKind : String)
    (date asOfDate : Int) (amount : Rat) : ProjectedEntry where
  date := date
  payee := payee
  txnIds := []
  postings := [⟨account, amount, "INR"⟩, ⟨equityAccount, -amount, "INR"⟩]
  note := none
  currency := "INR"
  kind := .valuation
  details := [
    ("dashboard_kind", .text "investment_valuation"),
    ("dashboard_valuation_kind", .text valuationKind),
    ("dashboard_portfolio_token", .text (sanitizeMetaValue (account.segments.getLast?.getD ""))),
    ("dashboard_as_of", .date asOfDate),
    ("dashboard_valuation_reason",
      .text (orElse (some (sanitizeMetaValue reason)) "unknown")),
    ("dashboard_cost_basis_available", .text "false")]

/-- One entry for each change after the cutover. -/
def revaluations (account equityAccount : AccountName) (reason : String) :
    Rat → List (Int × Rat) → List ProjectedEntry
  | _, [] => []
  | running, (asOfDate, value) :: later =>
    let delta := value - running
    if delta = 0 then revaluations account equityAccount reason value later
    else
      valuationEntry account equityAccount reason "CAS Portfolio Revaluation" "revaluation"
        asOfDate asOfDate delta :: revaluations account equityAccount reason value later

/-- `_valuation_entries`. -/
def valuationEntries (valuation : PortfolioValuation) (cutover : Int)
    (account equityAccount : AccountName) (reason : String) : List ProjectedEntry :=
  let (opening, openingAsOf, later) := splitPoints cutover valuation.points
  if opening ≠ 0 then
    valuationEntry account equityAccount reason "CAS Portfolio Valuation" "opening"
      cutover (openingAsOf.getD cutover) opening ::
        revaluations account equityAccount reason opening later
  else revaluations account equityAccount reason 0 later

/-! ### The document -/

/-- What the projection reads of the configuration, and the keyed hash of a
portfolio's identity. -/
structure ValuationConfig where
  projectInvestments : Bool
  backend : Backend
  cutover : Int
  secret : Option String
  digest : String → String → String

def valuationAccount (config : ValuationConfig) (portfolioKey : Option String) :
    Except NameError AccountName :=
  let token :=
    match portfolioKey with
    | none => none
    | some key => if strip key = "" then none else portfolioToken config.digest key config.secret
  normalizePolicyAccount config.backend (investmentValuationAccount token) "investment_valuation"

/-- The loop over the portfolios. -/
def portfolioEntries (config : ValuationConfig) (equityAccount : AccountName) :
    List PortfolioValuation → Except NameError (List ProjectedEntry)
  | [] => .ok []
  | series :: rest =>
    if series.points.isEmpty then portfolioEntries config equityAccount rest
    else do
      let account ← valuationAccount config series.portfolioKey
      let entries := valuationEntries series config.cutover account equityAccount
        "cas_aggregate_valuation"
      let more ← portfolioEntries config equityAccount rest
      return entries ++ more

omit [UnicodeTables] in
/-- The order of the portfolios: the one without a key first. -/
def portfolioLe (a b : PortfolioValuation) : Bool :=
  match a.portfolioKey, b.portfolioKey with
  | none, _ => true
  | some _, none => false
  | some a, some b => a ≤ b

def casEntries (config : ValuationConfig) (db : Database) :
    Except NameError (List ProjectedEntry) :=
  let portfolioValues := loadPortfolioValuations db.snapshots.rows none
  let casSourcesPresent := !db.casUploads.isEmpty || !portfolioValues.isEmpty
  if config.projectInvestments && casSourcesPresent then do
    let equityAccount ←
      normalizePolicyAccount config.backend equityRevaluation "investment_revaluation"
    portfolioEntries config equityAccount (portfolioValues.insertionSort (portfolioLe · ·))
  else .ok []

/-- Entries of the transactions: none of them is a valuation. -/
abbrev TransactionEntries := { entries : List ProjectedEntry // ∀ e ∈ entries, e.kind ≠ .valuation }

omit [UnicodeTables] in
/-- The order of the entries: by date, first transaction, and account of the rest. -/
def entryLe (a b : ProjectedEntry) : Bool :=
  let key (e : ProjectedEntry) : Int ×ₗ Nat ×ₗ String :=
    toLex (e.date, toLex (e.txnIds.head?.getD 0,
      if e.txnIds.isEmpty then (e.postings.head?.map (·.account.name)).getD "" else ""))
  key a ≤ key b

def projectedEntries (config : ValuationConfig) (db : Database) (entries : TransactionEntries) :
    Except NameError (List ProjectedEntry) := do
  let valuationEntries ← casEntries config db
  return if valuationEntries.isEmpty then entries.1
    else (entries.1 ++ valuationEntries).insertionSort (entryLe · ·)

/-! ### What is posted to the valuation accounts -/

omit [UnicodeTables] in
/-- What the postings on valuation accounts add up to. -/
def valuationTotal (postings : List LedgerPosting) : Rat :=
  ((postings.filter (isValuationAccount ·.account)).map (·.amount)).sum

omit [UnicodeTables] in
/-- What the entries up to `d` post to valuation accounts. -/
def valuationBalance (entries : List ProjectedEntry) (d : Int) : Rat :=
  valuationTotal ((entries.filter (·.date ≤ d)).flatMap (·.postings))

section

variable {account equityAccount : AccountName} {reason : String} {points : List (Int × Rat)}
  {cutover d : Int} {entries : List ProjectedEntry}

omit [UnicodeTables] in
theorem valuationTotal_append (postings more : List LedgerPosting) :
    valuationTotal (postings ++ more) = valuationTotal postings + valuationTotal more := by
  simp [valuationTotal]

omit [UnicodeTables] in
theorem valuationTotal_of_none {postings : List LedgerPosting}
    (h : ∀ p ∈ postings, isValuationAccount p.account = false) : valuationTotal postings = 0 := by
  have hnone : postings.filter (isValuationAccount ·.account) = [] := by
    rw [List.filter_eq_nil_iff]
    intro p hp
    rw [h p hp]
    exact Bool.false_ne_true
  unfold valuationTotal
  rw [hnone]
  rfl

omit [UnicodeTables] in
theorem valuationBalance_append (more : List ProjectedEntry) :
    valuationBalance (entries ++ more) d = valuationBalance entries d + valuationBalance more d := by
  unfold valuationBalance
  rw [List.filter_append, List.flatMap_append, valuationTotal_append]

omit [UnicodeTables] in
theorem valuationBalance_perm {more : List ProjectedEntry} (h : entries.Perm more) :
    valuationBalance entries d = valuationBalance more d :=
  (((((h.filter _).flatMap_right _).filter _).map _).sum_eq)

theorem valuationBalance_cons_valuationEntry {payee kind : String} {date asOfDate : Int}
    {amount : Rat} (haccount : isValuationAccount account = true)
    (hequity : isValuationAccount equityAccount = false) :
    valuationBalance
        (valuationEntry account equityAccount reason payee kind date asOfDate amount :: entries) d =
      (if date ≤ d then amount else 0) + valuationBalance entries d := by
  unfold valuationBalance
  by_cases hd : date ≤ d
  · simp [valuationEntry, valuationTotal, haccount, hequity, hd]
  · simp [valuationEntry, hd]

/-- The revaluations are the steps of the series; a step of nothing posts nothing. -/
theorem valuationBalance_revaluations {running : Rat}
    (haccount : isValuationAccount account = true)
    (hequity : isValuationAccount equityAccount = false) :
    valuationBalance (revaluations account equityAccount reason running points) d =
      (((Timeline.steps running points).filter (·.1 ≤ d)).map (·.2)).sum := by
  induction points generalizing running with
  | nil => rfl
  | cons p points ih =>
    obtain ⟨asOfDate, value⟩ := p
    unfold revaluations Timeline.steps
    dsimp only
    split_ifs with hdelta
    · rw [ih]
      by_cases hd : asOfDate ≤ d
      · simp [hd, hdelta]
      · simp [hd]
    · rw [valuationBalance_cons_valuationEntry haccount hequity, ih]
      by_cases hd : asOfDate ≤ d
      · simp [hd]
      · simp [hd]

omit [UnicodeTables] in
theorem splitPoints_eq (cutover : Int) (points : List (Int × Rat)) : ∃ asOf, splitPoints cutover points =
    (Timeline.valueFrom 0 points cutover, asOf, points.filter (cutover < ·.1)) := by
  induction points using List.reverseRecOn with
  | nil => exact ⟨none, rfl⟩
  | append_singleton points p ih =>
    obtain ⟨asOf, ih⟩ := ih
    obtain ⟨asOfDate, value⟩ := p
    have hstep : splitPoints cutover (points ++ [(asOfDate, value)]) =
        if asOfDate ≤ cutover then (value, some asOfDate, points.filter (cutover < ·.1))
        else (Timeline.valueFrom 0 points cutover, asOf,
          points.filter (cutover < ·.1) ++ [(asOfDate, value)]) := by
      unfold splitPoints at ih ⊢
      rw [List.foldl_append, ih]
      rfl
    rw [hstep]
    split_ifs with hdate
    · refine ⟨some asOfDate, ?_⟩
      rw [Timeline.valueFrom_concat_of_le hdate]
      simp [hdate]
    · refine ⟨asOf, ?_⟩
      rw [Timeline.valueFrom_concat_of_lt (lt_of_not_ge hdate)]
      simp [lt_of_not_ge hdate]

/-- **The entries of a portfolio post the value in force.** -/
theorem valuationBalance_valuationEntries {portfolioKey : Option String}
    (hpoints : Timeline.Increasing points) (hd : cutover ≤ d)
    (haccount : isValuationAccount account = true)
    (hequity : isValuationAccount equityAccount = false) :
    valuationBalance (valuationEntries ⟨portfolioKey, points⟩ cutover account equityAccount reason)
      d = Timeline.valueFrom 0 points d := by
  obtain ⟨asOf, hsplit⟩ := splitPoints_eq cutover points
  have hlater : Timeline.Increasing (points.filter (cutover < ·.1)) := hpoints.filter _
  unfold valuationEntries
  simp only [hsplit]
  rw [← Timeline.valueFrom_split hpoints hd]
  split_ifs with hopening
  · rw [valuationBalance_cons_valuationEntry haccount hequity,
      valuationBalance_revaluations haccount hequity, Timeline.sum_steps hlater, if_pos hd]
    exact add_sub_cancel _ _
  · have hzero : Timeline.valueFrom 0 points cutover = 0 := not_not.mp hopening
    rw [valuationBalance_revaluations haccount hequity, Timeline.sum_steps hlater, hzero, sub_zero]

end

/-! ### The series of a portfolio -/

section

variable {rows : List BalanceSnapshot} {portfolio : Option String} {d : Int} {t : Int} {v : Rat}

omit [UnicodeTables] in
theorem mem_casSnapshots {s : BalanceSnapshot} :
    s ∈ casSnapshots rows ↔ s ∈ rows ∧ s.isCas = true := by
  unfold casSnapshots
  rw [List.mem_insertionSort, List.mem_filter]
  have hcategory := s.investmentOfCas
  unfold BalanceSnapshot.isCas
  simp only [Bool.and_eq_true, decide_eq_true_eq]
  tauto

omit [UnicodeTables] in
theorem ids_casSnapshots (h : rows.Pairwise fun a b => a.id ≠ b.id) :
    (casSnapshots rows).Pairwise fun a b => a.id ≠ b.id := by
  unfold casSnapshots
  have hsymm : ∀ {a b : BalanceSnapshot}, a.id ≠ b.id → b.id ≠ a.id := fun h => h.symm
  exact ((List.perm_insertionSort _ _).pairwise_iff hsymm).mpr (h.filter _)

/-- The points of a portfolio, none if it has no snapshot. -/
def pointsOf (rows : List BalanceSnapshot) (portfolio : Option String) : List (Int × Rat) :=
  sortedPoints (((perPortfolio rows none).lookup portfolio).getD ∅)

omit [UnicodeTables] in
theorem mem_sortedPoints {points : AList fun _ : Int => Rat} :
    (t, v) ∈ sortedPoints points ↔ points.lookup t = some v := by
  unfold sortedPoints
  rw [List.mem_insertionSort, ← Option.mem_def, AList.mem_lookup_iff]
  constructor
  · intro h
    obtain ⟨e, he, heq⟩ := List.mem_map.mp h
    obtain ⟨rfl, rfl⟩ := Prod.mk.inj heq
    exact he
  · exact fun h => List.mem_map.mpr ⟨⟨t, v⟩, h, rfl⟩

omit [UnicodeTables] in
theorem increasing_sortedPoints (points : AList fun _ : Int => Rat) :
    Timeline.Increasing (sortedPoints points) := by
  have hdates : ((sortedPoints points).map (·.1)).Nodup := by
    have hperm := (List.perm_insertionSort (fun a b : Int × Rat => toLex a ≤ toLex b)
      (points.entries.map fun e => (e.1, e.2))).map (·.1)
    refine hperm.nodup_iff.mpr ?_
    rw [List.map_map]
    exact points.keys_nodup
  have hsorted : (sortedPoints points).Pairwise fun a b => toLex a ≤ toLex b := by
    have htotal : Std.Total fun a b : Int × Rat => toLex a ≤ toLex b :=
      ⟨fun a b => le_total (toLex a) (toLex b)⟩
    have htrans : IsTrans (Int × Rat) fun a b => toLex a ≤ toLex b :=
      ⟨fun _ _ _ hab hbc => le_trans hab hbc⟩
    exact List.pairwise_insertionSort _ _
  refine (hsorted.and (List.pairwise_map.mp hdates)).imp fun h => ?_
  obtain ⟨hle, hne⟩ := h
  rcases Prod.Lex.toLex_le_toLex.mp hle with hlt | ⟨heq, -⟩
  · exact hlt
  · exact absurd heq hne

omit [UnicodeTables] in
theorem lookup_winners_iff (h : rows.Pairwise fun a b => a.id ≠ b.id)
    {key : Option String × Int} {s : BalanceSnapshot} :
    (winners rows none).lookup key = some s ↔
      Dict.IsLatest (fun s => (s.portfolioKey, s.asOfDate)) BalanceSnapshot.id (casSnapshots rows)
        key s := by
  have hall : ((casSnapshots rows).filter fun s => (none : Option Int).all (s.asOfDate ≤ ·)) =
      casSnapshots rows := by
    simp
  unfold winners
  rw [hall]
  refine Dict.lookup_latest_iff (ids_casSnapshots h) fun a b hne => ?_
  simp only [decide_eq_true_eq]
  omega

omit [UnicodeTables] in
/-- A point is the value of the last snapshot of its date. -/
theorem mem_pointsOf (h : rows.Pairwise fun a b => a.id ≠ b.id) :
    (t, v) ∈ pointsOf rows portfolio ↔
      ∃ s, Dict.IsLatest (fun s => (s.portfolioKey, s.asOfDate)) BalanceSnapshot.id
        (casSnapshots rows) (portfolio, t) s ∧ inrValue s = v := by
  have hkeys : ((((winners rows none).entries.map fun e => (e.1, inrValue e.2))).map
      (·.1)).Nodup := by
    rw [List.map_map]
    exact (winners rows none).keys_nodup
  unfold pointsOf
  rw [mem_sortedPoints]
  refine (Dict.lookup_nest_iff hkeys).trans ?_
  constructor
  · intro hmem
    obtain ⟨e, he, heq⟩ := List.mem_map.mp hmem
    obtain ⟨hkey, hvalue⟩ := Prod.mk.inj heq
    refine ⟨e.2, (lookup_winners_iff h).mp ?_, hvalue⟩
    rw [← hkey]
    exact AList.mem_lookup_iff.mpr he
  · rintro ⟨s, hs, rfl⟩
    have hlookup := (lookup_winners_iff h).mpr hs
    exact List.mem_map.mpr ⟨⟨(portfolio, t), s⟩, AList.mem_lookup_iff.mp hlookup, rfl⟩

omit [UnicodeTables] in
/-- **The series of a portfolio has its value in force.** -/
theorem valueFrom_pointsOf (h : rows.Pairwise fun a b => a.id ≠ b.id) :
    Timeline.valueFrom 0 (pointsOf rows portfolio) d = valueInForce rows portfolio d := by
  by_cases hex : ∃ s, InForce rows portfolio d s
  · obtain ⟨s, hs⟩ := hex
    rw [valueInForce_eq h hs]
    have hpoint : (s.asOfDate, inrValue s) ∈ pointsOf rows portfolio := by
      refine (mem_pointsOf h).mpr ⟨s, ⟨mem_casSnapshots.mpr ⟨hs.mem, hs.cas⟩, ?_, ?_⟩, rfl⟩
      · rw [hs.key]
      · intro r hr hrkey
        obtain ⟨hr, hrcas⟩ := mem_casSnapshots.mp hr
        obtain ⟨hrkey, hrdate⟩ := Prod.mk.inj hrkey
        have hdate : r.asOfDate ≤ d := hrdate ▸ hs.date
        rcases Prod.Lex.toLex_le_toLex.mp (hs.last r hr hrcas hrkey hdate) with hlt | ⟨-, hle⟩
        · exact absurd hlt (by simp [hrdate])
        · exact hle
    refine Timeline.valueFrom_of_last (increasing_sortedPoints _) hpoint hs.date fun p hp hpd => ?_
    obtain ⟨r, hlatest, -⟩ := (mem_pointsOf h).mp hp
    obtain ⟨hr, hrcas⟩ := mem_casSnapshots.mp hlatest.mem
    obtain ⟨hrkey, hrdate⟩ := Prod.mk.inj hlatest.key_eq
    rw [← hrdate] at hpd ⊢
    rcases Prod.Lex.toLex_le_toLex.mp (hs.last r hr hrcas hrkey hpd) with hlt | ⟨heq, -⟩
    · exact hlt.le
    · exact heq.le
  · rw [valueInForce_eq_zero fun s hs => hex ⟨s, hs⟩]
    refine Timeline.valueFrom_of_forall_lt fun p hp => lt_of_not_ge fun hpd => hex ?_
    obtain ⟨r, hlatest, -⟩ := (mem_pointsOf h).mp hp
    obtain ⟨hr, hrcas⟩ := mem_casSnapshots.mp hlatest.mem
    obtain ⟨rfl, hrdate⟩ := Prod.mk.inj hlatest.key_eq
    exact exists_inForce h hr hrcas (hrdate ▸ hpd)

omit [UnicodeTables] in
/-- There is a series for portfolios only. -/
theorem mem_portfolios_of_mem_keys (h : rows.Pairwise fun a b => a.id ≠ b.id)
    (hkey : portfolio ∈ (perPortfolio rows none).keys) : portfolio ∈ portfolios rows := by
  obtain ⟨e, he, rfl⟩ := Dict.mem_nest (AList.mem_keys.mpr hkey)
  obtain ⟨w, hw, rfl⟩ := List.mem_map.mp he
  have hlatest := (lookup_winners_iff h).mp (AList.mem_lookup_iff.mpr hw)
  obtain ⟨hs, hcas⟩ := mem_casSnapshots.mp hlatest.mem
  exact mem_portfolios.mpr ⟨w.2, hs, hcas, congrArg (·.1) hlatest.key_eq⟩

omit [UnicodeTables] in
/-- The series together have what the portfolios are worth. -/
theorem sum_loadPortfolioValuations (h : rows.Pairwise fun a b => a.id ≠ b.id) :
    ((loadPortfolioValuations rows none).map fun series =>
        Timeline.valueFrom 0 series.points d).sum =
      ∑ portfolio ∈ portfolios rows, valueInForce rows portfolio d := by
  have hsum := Dict.sum_entries (perPortfolio rows none)
    (fun points => Timeline.valueFrom 0 (sortedPoints points) d) (portfolios rows)
    fun _ => mem_portfolios_of_mem_keys h
  unfold loadPortfolioValuations
  rw [List.map_map]
  refine hsum.trans (Finset.sum_congr rfl fun portfolio _ => ?_)
  rw [← valueFrom_pointsOf h]
  unfold pointsOf
  cases (perPortfolio rows none).lookup portfolio with
  | none =>
    have hempty : sortedPoints ∅ = [] := by simp [sortedPoints]
    simp [hempty]
  | some points => rfl

omit [UnicodeTables] in
theorem increasing_loadPortfolioValuations {asOf : Option Int} :
    ∀ series ∈ loadPortfolioValuations rows asOf, Timeline.Increasing series.points := by
  intro series hseries
  obtain ⟨e, -, rfl⟩ := List.mem_map.mp hseries
  exact increasing_sortedPoints e.2

end

/-! ### The document -/

section

variable {config : ValuationConfig} {db : Database} {equityAccount : AccountName} {d : Int}

theorem isValuationAccount_valuationAccount {portfolioKey : Option String} {account : AccountName}
    (h : valuationAccount config portfolioKey = .ok account) : isValuationAccount account = true :=
  isValuationAccount_of_normalize h

theorem valuationBalance_portfolioEntries {valuations : List PortfolioValuation}
    {entries : List ProjectedEntry} (hequity : isValuationAccount equityAccount = false)
    (hincreasing : ∀ series ∈ valuations, Timeline.Increasing series.points)
    (hd : config.cutover ≤ d) (h : portfolioEntries config equityAccount valuations = .ok entries) :
    valuationBalance entries d =
      (valuations.map fun series => Timeline.valueFrom 0 series.points d).sum := by
  induction valuations generalizing entries with
  | nil =>
    obtain rfl := Except.ok.inj h
    rfl
  | cons series rest ih =>
    have hrest : ∀ series ∈ rest, Timeline.Increasing series.points := fun other hother =>
      hincreasing other (List.mem_cons_of_mem _ hother)
    rw [List.map_cons, List.sum_cons]
    unfold portfolioEntries at h
    split_ifs at h with hempty
    · have hnone : series.points = [] := by simpa using hempty
      rw [ih hrest h, hnone, Timeline.valueFrom_nil, zero_add]
    · cases haccount : valuationAccount config series.portfolioKey with
      | error e =>
        rw [haccount] at h
        cases h
      | ok account =>
        rw [haccount] at h
        cases hmore : portfolioEntries config equityAccount rest with
        | error e =>
          rw [hmore] at h
          cases h
        | ok more =>
          rw [hmore] at h
          obtain rfl := Except.ok.inj h
          rw [valuationBalance_append, ih hrest hmore]
          refine congrArg (· + _) ?_
          exact valuationBalance_valuationEntries (hincreasing series (by simp)) hd
            (isValuationAccount_valuationAccount haccount) hequity

/-- The entries of all portfolios post what the portfolios are worth. -/
theorem valuationBalance_casEntries {entries : List ProjectedEntry}
    (hconfig : config.projectInvestments = true) (hd : config.cutover ≤ d)
    (h : casEntries config db = .ok entries) :
    valuationBalance entries d =
      ∑ portfolio ∈ portfolios db.snapshots.rows,
        valueInForce db.snapshots.rows portfolio d := by
  have hperm := List.perm_insertionSort (fun a b => portfolioLe a b = true)
    (loadPortfolioValuations db.snapshots.rows none)
  rw [← sum_loadPortfolioValuations db.snapshots.ids, ← (hperm.map _).sum_eq]
  unfold casEntries at h
  dsimp only at h
  split_ifs at h with hpresent
  · cases hequity : normalizePolicyAccount config.backend equityRevaluation
      "investment_revaluation" with
    | error e =>
      rw [hequity] at h
      cases h
    | ok equityAccount =>
      rw [hequity] at h
      refine valuationBalance_portfolioEntries (not_isValuationAccount_of_normalize hequity)
        (fun series hseries => ?_) hd h
      exact increasing_loadPortfolioValuations series (hperm.mem_iff.mp hseries)
  · -- no snapshot at all
    obtain rfl := Except.ok.inj h
    have hnone : loadPortfolioValuations db.snapshots.rows none = [] := by
      simp only [hconfig, Bool.true_and, Bool.or_eq_true, Bool.not_eq_true', not_or] at hpresent
      simpa using hpresent.2
    simp [hnone, valuationBalance, valuationTotal]

/-- What holds of every entry of one kind or the other holds of those of the portfolios. -/
theorem forall_revaluations {P : ProjectedEntry → Prop} {account equityAccount : AccountName}
    {reason : String} {running : Rat} {points : List (Int × Rat)}
    (hP : ∀ payee date amount,
      P (valuationEntry account equityAccount reason payee "revaluation" date date amount)) :
    ∀ e ∈ revaluations account equityAccount reason running points, P e := by
  induction points generalizing running with
  | nil => exact fun e he => absurd he List.not_mem_nil
  | cons p rest ih =>
    obtain ⟨asOfDate, value⟩ := p
    intro e he
    unfold revaluations at he
    dsimp only at he
    split_ifs at he with hdelta
    · exact ih e he
    · rcases List.mem_cons.mp he with rfl | he
      · exact hP _ _ _
      · exact ih e he

theorem forall_valuationEntries {P : ProjectedEntry → Prop} {valuation : PortfolioValuation}
    {cutover : Int} {account equityAccount : AccountName} {reason : String}
    (hP : ∀ kind ∈ ["opening", "revaluation"], ∀ payee date asOfDate amount,
      P (valuationEntry account equityAccount reason payee kind date asOfDate amount)) :
    ∀ e ∈ valuationEntries valuation cutover account equityAccount reason, P e := by
  have hlater : ∀ running points,
      ∀ e ∈ revaluations account equityAccount reason running points, P e := fun _ _ =>
    forall_revaluations fun payee date amount => hP _ (by simp) payee date date amount
  intro e he
  unfold valuationEntries at he
  dsimp only at he
  split_ifs at he with hopening
  · rcases List.mem_cons.mp he with rfl | he
    · exact hP _ (by simp) _ _ _ _
    · exact hlater _ _ e he
  · exact hlater _ _ e he

theorem forall_portfolioEntries {P : ProjectedEntry → Prop} {valuations : List PortfolioValuation}
    {entries : List ProjectedEntry}
    (hP : ∀ kind ∈ ["opening", "revaluation"], ∀ account reason payee date asOfDate amount,
      P (valuationEntry account equityAccount reason payee kind date asOfDate amount))
    (h : portfolioEntries config equityAccount valuations = .ok entries) : ∀ e ∈ entries, P e := by
  induction valuations generalizing entries with
  | nil =>
    obtain rfl := Except.ok.inj h
    exact fun e he => absurd he List.not_mem_nil
  | cons series rest ih =>
    unfold portfolioEntries at h
    split_ifs at h with hempty
    · exact ih h
    · obtain ⟨account, -, h⟩ := Posting.bind_eq_ok.mp h
      obtain ⟨more, hmore, h⟩ := Posting.bind_eq_ok.mp h
      obtain rfl := Except.ok.inj h
      intro e he
      rcases List.mem_append.mp he with he | he
      · exact forall_valuationEntries (fun kind hkind => hP kind hkind account _) e he
      · exact ih hmore e he

/-- **Every entry of a portfolio is an opening or a revaluation.** -/
theorem forall_casEntries {P : ProjectedEntry → Prop} {entries : List ProjectedEntry}
    (hP : ∀ kind ∈ ["opening", "revaluation"],
      ∀ account equityAccount reason payee date asOfDate amount,
        P (valuationEntry account equityAccount reason payee kind date asOfDate amount))
    (h : casEntries config db = .ok entries) : ∀ e ∈ entries, P e := by
  unfold casEntries at h
  dsimp only at h
  split_ifs at h
  · obtain ⟨equityAccount, -, h⟩ := Posting.bind_eq_ok.mp h
    exact forall_portfolioEntries (fun kind hkind account => hP kind hkind account _) h
  · obtain rfl := Except.ok.inj h
    exact fun e he => absurd he List.not_mem_nil

/-- The entry is a portfolio's, of no transaction. -/
structure IsPortfolioEntry (e : ProjectedEntry) : Prop where
  kind : e.kind = .valuation
  txnIds : e.txnIds = []
  opposed : Opposed e.postings

theorem isPortfolioEntry_valuationEntry (account equityAccount : AccountName)
    (reason payee valuationKind : String) (date asOfDate : Int) (amount : Rat) :
    IsPortfolioEntry
      (valuationEntry account equityAccount reason payee valuationKind date asOfDate amount) where
  kind := rfl
  txnIds := rfl
  opposed := ⟨_, _, rfl, rfl, rfl⟩

theorem isPortfolioEntry_of_casEntries {entries : List ProjectedEntry}
    (h : casEntries config db = .ok entries) : ∀ e ∈ entries, IsPortfolioEntry e :=
  forall_casEntries (fun _ _ _ _ _ _ _ _ _ => isPortfolioEntry_valuationEntry _ _ _ _ _ _ _ _) h

/-- **The document's entries are those of the transactions and those of the portfolios.** -/
theorem projectedEntries_eq_ok {entries : TransactionEntries} {projected : List ProjectedEntry}
    (h : projectedEntries config db entries = .ok projected) :
    ∃ portfolios, casEntries config db = .ok portfolios ∧
      projected.Perm (entries.1 ++ portfolios) := by
  obtain ⟨portfolios, hcas, h⟩ := Posting.bind_eq_ok.mp h
  obtain rfl := Except.ok.inj h
  refine ⟨portfolios, hcas, ?_⟩
  split_ifs with hempty
  · have hnone : portfolios = [] := by simpa using hempty
    rw [hnone, List.append_nil]
  · exact List.perm_insertionSort _ _

end

end FinancialDashboard.Paisa
