import FinancialDashboard.Core.Accounts
import FinancialDashboard.Lib.PyText
import FinancialDashboard.Networth.Snapshots

/-!
# The current net worth

`current_networth` of `services/networth.py`: the latest snapshot of each active
source, what of it is in rupees, and its totals by category and kind.

The breakdown by holdings reads another table and is left out.

* `investmentComponent`: the total of the investments.
* `investmentComponent_eq`: it is the sum of what the portfolios are worth.
-/

namespace FinancialDashboard.Networth

open PyText

/-! ### The tables -/

structure CasUpload where
  id : Nat
  portfolioKey : String
  investorName : Option String
  portfolioOk : Bool

structure ManualItem where
  id : Nat
  name : String
  active : Option Bool

structure Database where
  snapshots : SnapshotTable
  accounts : List Account
  casUploads : List CasUpload
  manualItems : List ManualItem

namespace Database

/-- The joined account, if there is one: foreign keys are not enforced. -/
def account (db : Database) (s : BalanceSnapshot) : Option Account :=
  s.accountId.bind fun id => db.accounts.find? (·.id = id)

def casUpload (db : Database) (s : BalanceSnapshot) : Option CasUpload :=
  s.casUploadId.bind fun id => db.casUploads.find? (·.id = id)

def manualItem (db : Database) (s : BalanceSnapshot) : Option ManualItem :=
  s.manualItemId.bind fun id => db.manualItems.find? (·.id = id)

/-- The query: no snapshot of an inactive account or item, in order of date and id. -/
def activeSnapshots (db : Database) : List BalanceSnapshot :=
  (db.snapshots.rows.filter fun s =>
      (s.accountId.isNone || (db.account s).bind (·.active) ≠ some false) &&
        (s.manualItemId.isNone || (db.manualItem s).bind (·.active) ≠ some false)).mergeSort
    fun a b => a.rank ≤ b.rank

end Database

/-! ### The summary -/

structure SourceBalance where
  label : String
  category : SnapshotCategory
  kind : SnapshotKind
  value : Rat
  asOfDate : Int
  stale : Bool
  unreconciled : Bool

structure CategoryGroup where
  category : SnapshotCategory
  kind : SnapshotKind
  total : Rat
  rows : List SourceBalance

structure NetWorthSummary where
  netWorth : Rat
  totalAssets : Rat
  totalLiabilities : Rat
  groups : List CategoryGroup
  hasStale : Bool
  asOf : Int

/-- `STALE_DAYS`. -/
def staleDays : SnapshotCategory → Int
  | .bankBalance => 45
  | .ccOutstanding => 35
  | .investment => 90
  | .manualAsset => 180
  | .manualLiability => 180

/-- `a or b`: an empty text is none. -/
def orElse (a : Option String) (b : String) : String := if a.getD "" = "" then b else a.getD ""

/-- `_label`. -/
def label (db : Database) (s : BalanceSnapshot) : String :=
  match db.account s, db.manualItem s, db.casUpload s with
  | some account, _, _ => account.label
  | none, some item, _ => item.name
  | none, none, some upload => orElse upload.investorName (orElse s.portfolioKey "CAS")
  | none, none, none => orElse s.portfolioKey "Snapshot"

def sourceBalance (db : Database) (asOf : Int) (s : BalanceSnapshot) : SourceBalance where
  label := label db s
  category := s.category
  kind := s.kind
  value := s.value
  asOfDate := s.asOfDate
  stale := staleDays s.category < asOf - s.asOfDate
  unreconciled := (db.casUpload s).any (!·.portfolioOk)

def groupKey (row : SourceBalance) : SnapshotCategory × SnapshotKind := (row.category, row.kind)

/-- The order of `sorted(grouped)`: tuples of texts. -/
def keyLe (a b : SnapshotCategory × SnapshotKind) : Bool :=
  a.1.value < b.1.value || (a.1.value = b.1.value && a.2.value ≤ b.2.value)

variable [UnicodeTables]

def categoryGroup (g : (SnapshotCategory × SnapshotKind) × List SourceBalance) : CategoryGroup where
  category := g.1.1
  kind := g.1.2
  total := (g.2.map (·.value)).sum
  rows := g.2.mergeSort fun a b => lower a.label ≤ lower b.label

def categoryGroups (rows : List SourceBalance) : List CategoryGroup :=
  (Dict.groups groupKey ((rows.map groupKey).dedup.mergeSort keyLe) rows).map categoryGroup

omit [UnicodeTables] in
def totalOf (kind : SnapshotKind) (rows : List SourceBalance) : Rat :=
  ((rows.filter (·.kind = kind)).map (·.value)).sum

def currentNetworth (db : Database) (today : Int) : NetWorthSummary :=
  let current := latestPerSource db.activeSnapshots today
  let rows := (current.filter (·.currency = "INR")).map (sourceBalance db today)
  let groups := categoryGroups rows
  { netWorth := totalOf .asset rows - totalOf .liability rows
    totalAssets := totalOf .asset rows
    totalLiabilities := totalOf .liability rows
    groups
    hasStale := groups.any fun group => group.rows.any (·.stale)
    asOf := today }

omit [UnicodeTables] in
/-- The total of the investments in a summary. -/
def investmentComponent (summary : NetWorthSummary) : Rat :=
  ((summary.groups.filter (·.category = .investment)).map (·.total)).sum

/-! ### The investments -/

/-- The groups of a category have the total of its rows. -/
theorem sum_categoryGroups (rows : List SourceBalance) (category : SnapshotCategory) :
    (((categoryGroups rows).filter (·.category = category)).map (·.total)).sum =
      ((rows.filter (·.category = category)).map (·.value)).sum := by
  have hkeys : ((rows.map groupKey).dedup.mergeSort keyLe).Nodup :=
    (List.mergeSort_perm _ _).nodup_iff.mpr (List.nodup_dedup _)
  unfold categoryGroups
  rw [List.filter_map, List.map_map]
  have hgroups := Dict.filter_groups groupKey ((rows.map groupKey).dedup.mergeSort keyLe) rows
    fun k => decide (k.1 = category)
  show (((Dict.groups groupKey _ rows).filter fun g => decide (g.1.1 = category)).map
    fun g => (g.2.map (·.value)).sum).sum = _
  rw [hgroups]
  refine Dict.sum_groups (hkeys.filter _) (fun row hrow => ?_) SourceBalance.value
  obtain ⟨hrow, hcategory⟩ := List.mem_filter.mp hrow
  refine List.mem_filter.mpr ⟨?_, hcategory⟩
  rw [List.mem_mergeSort, List.mem_dedup]
  exact List.mem_map_of_mem hrow

omit [UnicodeTables] in
theorem mem_activeSnapshots_of_isCas {db : Database} {s : BalanceSnapshot} (h : s.isCas = true) :
    s ∈ db.activeSnapshots ↔ s ∈ db.snapshots.rows := by
  unfold Database.activeSnapshots
  rw [List.mem_mergeSort, List.mem_filter]
  simp [BalanceSnapshot.accountId_of_isCas h, BalanceSnapshot.manualItemId_of_isCas h]

omit [UnicodeTables] in
theorem ids_activeSnapshots (db : Database) :
    db.activeSnapshots.Pairwise fun a b => a.id ≠ b.id := by
  unfold Database.activeSnapshots
  have hsymm : ∀ {a b : BalanceSnapshot}, a.id ≠ b.id → b.id ≠ a.id := fun h => h.symm
  exact ((List.mergeSort_perm _ _).pairwise_iff hsymm).mpr (db.snapshots.ids.filter _)

/-- What a snapshot adds to the investments. -/
def investmentValue (s : BalanceSnapshot) : Rat :=
  if s.category = .investment then inrValue s else 0

/-- The component is the sum over the latest snapshots of all sources. -/
theorem investmentComponent_eq_sum (db : Database) (today : Int) :
    investmentComponent (currentNetworth db today) =
      ((latestPerSource db.activeSnapshots today).map investmentValue).sum := by
  unfold investmentComponent currentNetworth
  dsimp only
  rw [sum_categoryGroups]
  generalize latestPerSource db.activeSnapshots today = current
  induction current with
  | nil => rfl
  | cons s current ih =>
    rw [List.map_cons, List.sum_cons, ← ih]
    unfold investmentValue inrValue
    by_cases hcurrency : s.currency = "INR"
    · by_cases hcategory : s.category = .investment
      · simp [hcurrency, hcategory, sourceBalance]
      · simp [hcurrency, hcategory, sourceBalance]
    · simp [hcurrency]

omit [UnicodeTables] in
/-- The latest snapshot of a source is of the query. -/
theorem lookup_latest_iff (db : Database) (today : Int) (key : SourceKey) (s : BalanceSnapshot) :
    (Dict.latest sourceKey (fun s current => current.rank < s.rank)
      (db.activeSnapshots.filter (·.asOfDate ≤ today))).lookup key = some s ↔
      Dict.IsLatest sourceKey BalanceSnapshot.rank
        (db.activeSnapshots.filter (·.asOfDate ≤ today)) key s :=
  Dict.lookup_latest_iff (ranked_of_ids ((ids_activeSnapshots db).filter _)) (by simp)

omit [UnicodeTables] in
/-- The latest snapshot of a portfolio is the one in force. -/
theorem isLatest_casSource_iff {db : Database} {today : Int} {portfolio : Option String}
    {s : BalanceSnapshot} :
    Dict.IsLatest sourceKey BalanceSnapshot.rank (db.activeSnapshots.filter (·.asOfDate ≤ today))
      (casSource portfolio) s ↔ InForce db.snapshots.rows portfolio today s := by
  constructor
  · intro h
    obtain ⟨hcas, hkey⟩ := sourceKey_eq_casSource_iff.mp h.key_eq
    obtain ⟨hmem, hdate⟩ := List.mem_filter.mp h.mem
    refine ⟨(mem_activeSnapshots_of_isCas hcas).mp hmem, hcas, hkey, by simpa using hdate, ?_⟩
    intro r hr hrcas hrkey hrdate
    refine h.last r (List.mem_filter.mpr ⟨?_, by simpa using hrdate⟩)
      (sourceKey_eq_casSource_iff.mpr ⟨hrcas, hrkey⟩)
    exact (mem_activeSnapshots_of_isCas hrcas).mpr hr
  · intro h
    refine ⟨List.mem_filter.mpr ⟨(mem_activeSnapshots_of_isCas h.cas).mpr h.mem, ?_⟩,
      sourceKey_eq_casSource_iff.mpr ⟨h.cas, h.key⟩, ?_⟩
    · simpa using h.date
    · intro r hr hrkey
      obtain ⟨hrcas, hrkey⟩ := sourceKey_eq_casSource_iff.mp hrkey
      obtain ⟨hr, hrdate⟩ := List.mem_filter.mp hr
      exact h.last r ((mem_activeSnapshots_of_isCas hrcas).mp hr) hrcas hrkey (by simpa using hrdate)

omit [UnicodeTables] in
theorem investmentValue_of_isCas {s : BalanceSnapshot} (h : s.isCas = true) :
    investmentValue s = inrValue s :=
  if_pos (s.investmentOfCas.mpr h)

omit [UnicodeTables] in
theorem investmentValue_of_not_isCas {s : BalanceSnapshot} (h : ¬ s.isCas = true) :
    investmentValue s = 0 :=
  if_neg fun hcategory => h (s.investmentOfCas.mp hcategory)

/-- **The investments are what the portfolios are worth.** -/
theorem investmentComponent_eq (db : Database) (today : Int) :
    investmentComponent (currentNetworth db today) =
      ∑ portfolio ∈ portfolios db.snapshots.rows,
        valueInForce db.snapshots.rows portfolio today := by
  rw [investmentComponent_eq_sum]
  unfold latestPerSource
  rw [List.map_map]
  have hlookup := lookup_latest_iff db today
  generalize Dict.latest sourceKey _ _ = best at hlookup ⊢
  have hsum := Dict.sum_entries best investmentValue
    (best.keys.toFinset ∪ (portfolios db.snapshots.rows).image casSource)
    fun k hk => Finset.mem_union_left _ (by simpa using hk)
  refine hsum.trans (Eq.symm ?_)
  refine Finset.sum_of_injOn casSource casSource_injective.injOn ?_ ?_ ?_
  · intro portfolio hportfolio
    exact Finset.mem_union_right _ (Finset.mem_image_of_mem _ hportfolio)
  · -- a source that is no portfolio has no investment
    intro key _ hkey
    cases hs : best.lookup key with
    | none => rfl
    | some s =>
      have hlatest := (hlookup key s).mp hs
      by_cases hcas : s.isCas = true
      · refine absurd ⟨s.portfolioKey, ?_, ?_⟩ hkey
        · have hmem := (List.mem_filter.mp hlatest.mem).1
          exact mem_portfolios.mpr ⟨s, (mem_activeSnapshots_of_isCas hcas).mp hmem, hcas, rfl⟩
        · rw [← hlatest.key_eq]
          exact (sourceKey_eq_casSource_iff.mpr ⟨hcas, rfl⟩).symm
      · exact investmentValue_of_not_isCas hcas
  · intro portfolio _
    cases hs : best.lookup (casSource portfolio) with
    | none =>
      refine valueInForce_eq_zero fun s hforce => ?_
      rw [(hlookup _ s).mpr (isLatest_casSource_iff.mpr hforce)] at hs
      cases hs
    | some s =>
      have hforce := isLatest_casSource_iff.mp ((hlookup _ s).mp hs)
      rw [valueInForce_eq db.snapshots.ids hforce]
      exact (investmentValue_of_isCas hforce.cas).symm

end FinancialDashboard.Networth
