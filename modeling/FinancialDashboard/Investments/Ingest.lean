import FinancialDashboard.Investments.Lots
import FinancialDashboard.Lib.OrderedDict
import FinancialDashboard.Lib.Table
import FinancialDashboard.Networth.Snapshots

/-!
# Ingesting a statement

`ingest_cas_payload` of `services/cas_ingestion.py`, the upserts of `services/snapshots.py`
and the tables they write.

A statement replaces what is stored for its portfolio and date: the uploads with their
snapshots, holdings and lots are deleted, and its own are inserted.  Whatever makes it refuse
the statement is looked at before the first row is deleted.  What goes wrong after that leaves
some of the writes in the session, which the caller rolls back.

* `ingest_refused`, `ingest_refusable`: a refusal has written nothing.
* `replace_spec`: what an ingest that is not refused leaves.
-/

namespace FinancialDashboard.Investments

open PyText Rounding Posting Networth

/-! ### The tables -/

/-- An upload, with the columns that only the ingest writes. -/
structure UploadRow extends CasUpload where
  investorName : Option String
  grandTotal : ℚ
  portfolioOk : Bool
  portfolioDelta : Option ℚ

/-- The portfolio and the statement date. -/
def UploadRow.key (upload : UploadRow) : String × Int :=
  (upload.portfolioKey, upload.statementDate)

structure SnapshotHolding where
  id : Nat
  snapshotId : Nat
  assetClass : String
  label : String
  value : ℚ

/-- `cas_uploads`, with `uq_cas_portfolio_date`. -/
def uploads : Schema UploadRow where
  id upload := upload.id
  Clashes a b := a.key = b.key
  decidable _ _ := inferInstanceAs (Decidable (_ = _))

/-- `balance_snapshots`, with `uq_snap_account`, `uq_snap_investment` and `uq_snap_manual`. -/
def snapshots : Schema BalanceSnapshot where
  id s := s.id
  Clashes a b :=
    (a.accountId ≠ none ∧ a.accountId = b.accountId ∧ a.category = b.category ∧
      a.asOfDate = b.asOfDate) ∨
    (a.portfolioKey ≠ none ∧ a.portfolioKey = b.portfolioKey ∧ a.category = b.category ∧
      a.asOfDate = b.asOfDate) ∨
    (a.manualItemId ≠ none ∧ a.manualItemId = b.manualItemId ∧ a.asOfDate = b.asOfDate)
  decidable _ _ := inferInstanceAs (Decidable (_ ∨ _ ∨ _))

/-- `snapshot_holdings`. -/
def holdings : Schema SnapshotHolding where
  id holding := holding.id
  Clashes _ _ := False
  decidable _ _ := inferInstanceAs (Decidable False)

structure IngestTables where
  uploads : Table uploads
  snapshots : Table snapshots
  holdings : Table holdings
  lots : LotTable

def IngestTables.empty : IngestTables := ⟨.empty, .empty, .empty, .empty⟩

/-- The numeric columns of the tables. -/
structure IngestColumns extends LotColumns where
  /-- `Numeric(16, 2)`. -/
  money : Column

/-- `delete(InvestmentLot).where(InvestmentLot.cas_upload_id == upload.id)` -/
def LotTable.deleteUpload (table : LotTable) (casUploadId : Nat) : LotTable where
  rows := table.rows.filter (·.casUploadId ≠ casUploadId)
  unique := table.unique.sublist List.filter_sublist

/-! ### The document -/

structure RawHolding where
  value : Json
  assetClass : Json

/-- A parsed statement.  A missing value is `null`, and a missing list is empty. -/
structure CasDocument where
  pan : Option String
  source : Json
  investorName : Option String
  statementPeriodEnd : Json
  grandTotal : Json
  portfolioOk : Bool
  portfolioDelta : Json
  accounts : List (List RawHolding)
  folioTotals : List Json
  payload : Payload

/-- What the values are read and written with, beside `CasReaders`. -/
class StatementReaders extends TitleTables where
  /-- `dateutil.parser.parse(s, dayfirst=True).date()`, on a day. -/
  date : Int → String → Except Raised Int

/-- `CasIngestError`. -/
inductive Refusal where
  | noGrandTotal
  | noPeriodEnd
  | unparsedPeriodEnd
  | nsdlExists (statementDate : Int)
  deriving DecidableEq, Repr

def Refusal.message : Refusal → String
  | noGrandTotal => "CAS has no portfolio grand_total; refusing to import."
  | noPeriodEnd => "CAS has no statement period end; refusing to import."
  | unparsedPeriodEnd => "CAS statement period end could not be parsed."
  | nsdlExists statementDate =>
    "An NSDL CAS already exists for this PAN on " ++ PyTime.isoformat statementDate ++
      ". NSDL embeds CDSL, so the incoming CDSL statement would lose data. Re-upload with " ++
      "the override option if you really want to replace it."

inductive IngestError where
  | refused (refusal : Refusal)
  | raised (raised : Raised)
  deriving DecidableEq, Repr

section

variable [UnicodeTables] [CasReaders]

/-- `_decimal`, of a finite number. -/
def decimalOf (value : Json) : Except Raised ℚ :=
  match Decimal.ofText value.str with
  | some number => .ok number.value
  | none => .error .invalidOperation

/-- `str(value or default)` -/
def Json.orElse (value : Json) (default : String) : String :=
  if value.orEmpty = "" then default else value.orEmpty

namespace CasDocument

variable (doc : CasDocument)

/-- `(meta.get("pan") or "primary").upper()` -/
def portfolioKey : String :=
  upper (match doc.pan with
    | none | some "" => "primary"
    | some pan => pan)

/-- `str(meta.get("source") or "unknown").lower()` -/
def depositorySource : String := lower (doc.source.orElse "unknown")

/-- `by_class[asset_class] += value` -/
def addTo (byClass : OrderedDict String ℚ) (assetClass : String) (value : ℚ) :
    OrderedDict String ℚ :=
  byClass.set assetClass (inContext ((byClass.get? assetClass).getD 0 + value))

/-- The values of the holdings and of the folios, by class. -/
def byClass : Except Raised (OrderedDict String ℚ) := do
  let ofHoldings ← doc.accounts.flatten.foldlM (fun byClass holding =>
    if holding.value = .null then .ok byClass
    else (decimalOf holding.value).map (addTo byClass (holding.assetClass.orElse "other"))) ∅
  doc.folioTotals.foldlM (fun byClass total =>
    if total = .null then .ok byClass
    else (decimalOf total).map (addTo byClass "mutual_fund")) ofHoldings

/-- The classes of the snapshot, with what is left of the total. -/
def holdingClasses (grandTotal : ℚ) : Except Raised (OrderedDict String ℚ) := do
  let byClass ← doc.byClass
  let classified := byClass.items.foldl (fun sum item => inContext (sum + item.2)) 0
  let remainder := inContext (grandTotal - classified)
  .ok (if 0 < remainder then addTo byClass "other" remainder else byClass)

end CasDocument

/-! ### The ingest -/

/-- Reading and writing in a session: an error leaves what was written before it. -/
abbrev Session := EStateM IngestError IngestTables

/-- What is known of a statement that is not refused. -/
structure Admitted where
  statementDate : Int
  grandTotal : ℚ
  prior : List UploadRow

/-- The uploads of the portfolio and date. -/
def priorUploads (t : IngestTables) (key : String × Int) : List UploadRow :=
  t.uploads.rows.filter (·.key = key)

variable [StatementReaders] (columns : IngestColumns) (today : Int)

/-- `parse_date(meta["statement_period_end"], dayfirst=True)` -/
def CasDocument.periodEnd (doc : CasDocument) : Except Raised (Option Int) :=
  if strip doc.statementPeriodEnd.str = "" then .ok none
  else (StatementReaders.date today (strip doc.statementPeriodEnd.str)).map some

/-- What the ingest looks at before it writes. -/
def admission (forceReplace : Bool) (doc : CasDocument) (t : IngestTables) :
    Except IngestError Admitted :=
  if doc.grandTotal = .null then .error (.refused .noGrandTotal)
  else if doc.statementPeriodEnd.orEmpty = "" then .error (.refused .noPeriodEnd)
  else match doc.periodEnd today with
    | .error raised => .error (.raised raised)
    | .ok none => .error (.refused .unparsedPeriodEnd)
    | .ok (some statementDate) =>
      match decimalOf doc.grandTotal with
      | .error raised => .error (.raised raised)
      | .ok grandTotal =>
        let prior := priorUploads t (doc.portfolioKey, statementDate)
        if forceReplace = false ∧
            prior.any (fun u => u.depositorySource = "nsdl" ∧ doc.depositorySource = "cdsl") then
          .error (.refused (.nsdlExists statementDate))
        else .ok ⟨statementDate, grandTotal, prior⟩

/-- An upload with its snapshots, their holdings and its lots is deleted. -/
def removeUpload (t : IngestTables) (upload : UploadRow) : IngestTables :=
  let snapshotIds :=
    (t.snapshots.rows.filter (·.casUploadId = some upload.id)).map (·.id)
  { uploads := t.uploads.delete (·.id = upload.id)
    snapshots := t.snapshots.delete (·.casUploadId = some upload.id)
    holdings := t.holdings.delete (·.snapshotId ∈ snapshotIds)
    lots := t.lots.deleteUpload upload.id }

def uploadRow (doc : CasDocument) (a : Admitted) (portfolioDelta : Option ℚ) :
    Table.NewRow uploads where
  make id :=
    { id
      portfolioKey := doc.portfolioKey
      statementDate := a.statementDate
      depositorySource := doc.depositorySource
      payload := some doc.payload
      investorName := doc.investorName
      grandTotal := columns.money.stored a.grandTotal
      portfolioOk := doc.portfolioOk
      portfolioDelta := portfolioDelta.map columns.money.stored }
  id_make _ := rfl

def snapshotRow (doc : CasDocument) (a : Admitted) (casUploadId : Nat) :
    Table.NewRow snapshots where
  make id :=
    { id
      accountId := none
      casUploadId := some casUploadId
      manualItemId := none
      portfolioKey := some doc.portfolioKey
      kind := .asset
      category := .investment
      asOfDate := a.statementDate
      value := columns.money.stored a.grandTotal
      currency := "INR"
      oneSource := BalanceSnapshot.oneSource_cas casUploadId
      keyOfCas := fun _ => rfl
      investmentOfCas := BalanceSnapshot.investmentOfCas_cas casUploadId
      assetOfCas := fun _ => rfl }
  id_make _ := rfl

/-- The row of a class. -/
def holdingRow (snapshotId : Nat) (item : String × ℚ) : Table.NewRow holdings where
  make id :=
    { id
      snapshotId
      assetClass := item.1
      label := title (String.ofList (item.1.toList.map fun c => if c = '_' then ' ' else c))
      value := columns.money.stored item.2 }
  id_make _ := rfl

/-- What is raised in the middle of the writes. -/
def lift {α : Type} (x : Except Raised α) : Session α := fun t =>
  match x with
  | .ok a => .ok a t
  | .error raised => .error (.raised raised) t

/-- `session.add` and the flush of a row of one of the tables. -/
def insertRow {α : Type} {schema : Schema α} (table : IngestTables → Table schema)
    (put : IngestTables → Table schema → IngestTables) (row : Table.NewRow schema) : Session α :=
  fun t =>
    match (table t).insert row with
    | some inserted => .ok ((table t).next row) (put t inserted)
    | none => .error (.raised .integrityError) t

def insertUpload (row : Table.NewRow uploads) : Session UploadRow :=
  insertRow (·.uploads) (fun t uploads => { t with uploads }) row

def insertSnapshot (row : Table.NewRow snapshots) : Session BalanceSnapshot :=
  insertRow (·.snapshots) (fun t snapshots => { t with snapshots }) row

def insertHolding (row : Table.NewRow holdings) : Session SnapshotHolding :=
  insertRow (·.holdings) (fun t holdings => { t with holdings }) row

def insertHoldings (snapshotId : Nat) (items : List (String × ℚ)) : Session Unit :=
  items.forM fun item => discard (insertHolding (holdingRow columns snapshotId item))

/-- `create_investment_lots` -/
def insertLots (casUploadId : Nat) (payload : Payload) : Session Unit := fun t =>
  match createInvestmentLots columns.toLotColumns today t.lots casUploadId payload with
  | .ok creation => .ok () { t with lots := creation.table }
  | .error raised => .error (.raised raised) t

/-- What the ingest writes for a statement that is not refused. -/
def replaceUpload (doc : CasDocument) (a : Admitted) : Session UploadRow := do
  modify fun t => a.prior.foldl removeUpload t
  let portfolioDelta ← lift (
    if doc.portfolioDelta = .null then .ok none else (decimalOf doc.portfolioDelta).map some)
  let upload ← insertUpload (uploadRow columns doc a portfolioDelta)
  let snapshot ← insertSnapshot (snapshotRow columns doc a upload.id)
  let classes ← lift (doc.holdingClasses a.grandTotal)
  insertHoldings columns snapshot.id classes.items
  insertLots columns today upload.id doc.payload
  return upload

/-- `ingest_cas_payload` -/
def ingestCasPayload (forceReplace : Bool) (doc : CasDocument) : Session UploadRow := fun t =>
  match admission today forceReplace doc t with
  | .error e => .error e t
  | .ok a => replaceUpload columns today doc a t

/-- The callers commit what an ingest wrote, or roll it back if it raised. -/
def casUpload (forceReplace : Bool) (doc : CasDocument) (t : IngestTables) : IngestTables :=
  match ingestCasPayload columns today forceReplace doc t with
  | .ok _ t' => t'
  | .error _ _ => t

end

/-! ### The upserts -/

/-- The category of a snapshot that is not a statement's. -/
abbrev OtherCategory := { category : SnapshotCategory // category ≠ .investment }

section

variable (columns : IngestColumns) (source : Nat) (kind : SnapshotKind)
  (category : OtherCategory) (asOfDate : Int) (value : ℚ) (currency : String)

def accountRow : Table.NewRow snapshots where
  make id :=
    { id
      accountId := some source
      casUploadId := none
      manualItemId := none
      portfolioKey := none
      kind
      category := category.1
      asOfDate
      value := columns.money.stored value
      currency
      oneSource := rfl
      keyOfCas := fun h => h
      investmentOfCas := iff_of_false category.2 Bool.false_ne_true
      assetOfCas := fun h => absurd h Bool.false_ne_true }
  id_make _ := rfl

/-- What an account's snapshot is updated to. -/
def accountChange : Table.Change snapshots where
  set a :=
    if h : a.accountId = some source then
      { a with
        kind
        value := columns.money.stored value
        currency
        assetOfCas := fun hcas => by
          rw [BalanceSnapshot.accountId_of_isCas hcas] at h
          cases h }
    else a
  id_set a := by split_ifs <;> rfl
  left a b := by split_ifs <;> rfl
  right a b := by split_ifs <;> rfl

/-- `upsert_account_snapshot` -/
def upsertAccountSnapshot (t : IngestTables) : IngestTables :=
  { t with
    snapshots := t.snapshots.upsert
      (accountRow columns source kind category asOfDate value currency)
      (accountChange columns source kind value currency) }

def manualRow : Table.NewRow snapshots where
  make id :=
    { id
      accountId := none
      casUploadId := none
      manualItemId := some source
      portfolioKey := none
      kind
      category := category.1
      asOfDate
      value := columns.money.stored value
      currency
      oneSource := rfl
      keyOfCas := fun h => h
      investmentOfCas := iff_of_false category.2 Bool.false_ne_true
      assetOfCas := fun h => absurd h Bool.false_ne_true }
  id_make _ := rfl

theorem casUploadId_of_manual {a : BalanceSnapshot} (h : a.manualItemId = some source) :
    a.casUploadId.isSome = false := by
  by_contra hcas
  rw [BalanceSnapshot.manualItemId_of_isCas ((Bool.not_eq_false _).mp hcas)] at h
  cases h

/-- A manual item's snapshot has no account and no portfolio, so its category is free. -/
theorem manual_clashes {a b : BalanceSnapshot} (h : a.manualItemId = some source) :
    snapshots.Clashes a b ↔ a.manualItemId = b.manualItemId ∧ a.asOfDate = b.asOfDate := by
  have hone := a.oneSource
  have hcas := casUploadId_of_manual source h
  rw [h, hcas] at hone
  have haccount : a.accountId = none := by
    cases ha : a.accountId with
    | none => rfl
    | some account =>
      rw [ha] at hone
      simp at hone
  have hkey : a.portfolioKey = none := by
    by_contra hne
    have := a.keyOfCas (Option.isSome_iff_ne_none.mpr hne)
    rw [hcas] at this
    cases this
  simp [snapshots, haccount, hkey, h]

theorem clashes_comm {a b : BalanceSnapshot} : snapshots.Clashes a b ↔ snapshots.Clashes b a := by
  simp only [snapshots]
  constructor <;>
  · rintro (⟨h, he, h'⟩ | ⟨h, he, h'⟩ | ⟨h, he, h'⟩)
    · exact .inl ⟨he ▸ h, he.symm, h'.1.symm, h'.2.symm⟩
    · exact .inr (.inl ⟨he ▸ h, he.symm, h'.1.symm, h'.2.symm⟩)
    · exact .inr (.inr ⟨he ▸ h, he.symm, h'.symm⟩)

/-- What a manual item's snapshot is updated to. -/
def manualSet (a : BalanceSnapshot) : BalanceSnapshot :=
  if h : a.manualItemId = some source then
    { a with
      kind
      category := category.1
      value := columns.money.stored value
      currency
      investmentOfCas := iff_of_false category.2 (by simp [casUploadId_of_manual source h])
      assetOfCas := fun hcas => by
        rw [casUploadId_of_manual source h] at hcas
        cases hcas }
  else a

theorem manualSet_clashes (a b : BalanceSnapshot) :
    snapshots.Clashes (manualSet columns source kind category value currency a) b ↔
      snapshots.Clashes a b := by
  unfold manualSet
  split_ifs with h
  · rw [manual_clashes source h, manual_clashes source (by exact h)]
  · rfl

def manualChange : Table.Change snapshots where
  set := manualSet columns source kind category value currency
  id_set a := by
    unfold manualSet
    split_ifs <;> rfl
  left := manualSet_clashes columns source kind category value currency
  right a b := by
    rw [clashes_comm, manualSet_clashes, clashes_comm]

/-- `upsert_manual_snapshot` -/
def upsertManualSnapshot (t : IngestTables) : IngestTables :=
  { t with
    snapshots := t.snapshots.upsert
      (manualRow columns source kind category asOfDate value currency)
      (manualChange columns source kind category value currency) }

end

end FinancialDashboard.Investments
