import FinancialDashboard.Lib.Decimal
import FinancialDashboard.Lib.Numbering
import FinancialDashboard.Lib.Posting
import FinancialDashboard.Statements.Contention

/-!
# Investment transactions

The acquisition lots of a statement's transactions (`services/investment_transactions.py`).

A transaction is a lot when it says everything a lot needs and its amount agrees with its
units and price; otherwise it is excluded, for one reason.

* `complete_spec`: what is known of a lot.
* `nodup_sourceKeys`: repeated rows are numbered, so that no two lots have one identity.
-/

namespace FinancialDashboard.Investments

open PyText Rounding Numbering Posting

/-- What the functions may raise. -/
inductive Raised
  | invalidOperation | valueError | overflowError | typeError | integrityError
  deriving DecidableEq, Repr

/-- A value of a decoded document: a text, or what `str` and truth tell of another value. -/
inductive Json
  | null
  | text (s : String)
  | other (shown : String) (truthy : Bool)
  deriving DecidableEq, Repr

namespace Json

/-- `str(value)`. -/
def str : Json → String
  | null => "None"
  | text s => s
  | other shown _ => shown

/-- `str(value or "")`. -/
def orEmpty : Json → String
  | null => ""
  | text s => s
  | other shown truthy => if truthy then shown else ""

/-- The stripped text, if the value is a text that is not blank. -/
def stripped [UnicodeTables] : Json → Option String
  | text s => if strip s = "" then none else some (strip s)
  | _ => none

end Json

/-- A transaction of a statement, as the document has it; a missing field is `null`. -/
structure RawTransaction where
  scope : Json
  sourceRef : Json
  isin : Json
  transactionType : Json
  reference : Json
  units : Json
  nav : Json
  amount : Json
  date : Json
  description : Json
  deriving DecidableEq, Repr

/-- A decoded document.  The transactions are `none` where they cannot be gone through, and
one of them is `none` where it is no object. -/
structure Payload where
  transactions : Option (List (Option RawTransaction))
  deriving DecidableEq, Repr

/-- What the values are read with. -/
class CasReaders [UnicodeTables] extends DecimalTables where
  /-- `dateutil.parser.parse(s).date()` on a day, from which it takes what the text leaves out. -/
  date : Int → String → Except Raised Int

structure CompleteLot where
  instrumentId : String
  instrumentName : String
  quantity : ℚ
  unitCost : ℚ
  costBasis : ℚ
  currency : String
  acquiredOn : Int
  sourceRef : String
  transactionType : Option String
  reference : Option String
  sourceOccurrence : Nat
  deriving DecidableEq, Repr

inductive Reason
  | notMutualFund | disposalTransaction | ambiguousTransactionType
  | missingLotFacts (missing : List String)
  | costBasisInconsistent
  deriving DecidableEq, Repr

structure LotExclusion where
  reason : Reason
  instrumentId : Option String
  sourceRef : Option String
  deriving DecidableEq, Repr

/-- `LotClassificationResult`: a lot or an exclusion. -/
inductive Classification
  | complete (lot : CompleteLot)
  | excluded (exclusion : LotExclusion)
  deriving DecidableEq, Repr

namespace Classification

def lot : Classification → Option CompleteLot
  | complete lot => some lot
  | excluded _ => none

def exclusion : Classification → Option LotExclusion
  | complete _ => none
  | excluded exclusion => some exclusion

end Classification

/-- `CAS_CURRENCY`. -/
def casCurrency : String := "INR"

/-- `_LOT_AGREEMENT_TOLERANCE`. -/
def lotAgreementTolerance : ℚ := 1 / 100

/-- `_ACQUISITION_TYPES`. -/
def acquisitionTypes : List String := ["purchase", "switch_in", "switch-in", "buy", "allotment"]

/-- `_DISPOSAL_TYPES`. -/
def disposalTypes : List String := ["redemption", "switch_out", "switch-out", "sell", "sold"]

/-- `product.quantize(Decimal("0.01"))`. -/
def costBasisOf (product : ℚ) : Except Raised ℚ :=
  (quantizeTo 100 product).elim (.error .invalidOperation) fun q => .ok (q / 100)

section

variable [UnicodeTables] [CasReaders]

/-! ### Reading a transaction -/

/-- `_to_decimal`. -/
def toDecimal (value : Json) : Option Decimal :=
  if value = .null ∨ value = .text "" then none else Decimal.ofText value.str

/-- `parse_date(str(value)) if value is not None else None`. -/
def parseDate (today : Int) (value : Json) : Except Raised (Option Int) :=
  if value = .null ∨ strip value.str = "" then .ok none
  else (CasReaders.date today (strip value.str)).map some

namespace RawTransaction

variable (raw : RawTransaction)

/-- `_txn_isin`. -/
def txnIsin : Option String := raw.isin.stripped.map upper

/-- The transaction type, in lower case; empty if there is none. -/
def ttype : String := (raw.transactionType.stripped.map lower).getD ""

/-- `_txn_is_disposal`. -/
def isDisposal : Bool := raw.ttype ≠ "" ∧ disposalTypes.any (contains · raw.ttype)

/-- `_txn_is_acquisition`. -/
def isAcquisition : Bool := raw.ttype ≠ "" ∧ acquisitionTypes.any (contains · raw.ttype)

def excluded (reason : Reason) : Classification :=
  .excluded
    { reason := reason
      instrumentId := raw.txnIsin
      sourceRef := if raw.sourceRef = .null then none else some raw.sourceRef.str }

end RawTransaction

/-- `_normalized_ref`. -/
def normalizedRef (value : Json) : String := if value = .null then "" else strip value.str

/-- A value that is a positive number. -/
def positive (value : Json) : Option ℚ := ((toDecimal value).map (·.value)).filter (0 < ·)

/-- `_classify_transaction`. -/
def classifyTransaction (today : Int) (raw : RawTransaction) : Except Raised Classification :=
  if lower raw.scope.orEmpty ≠ "mf" then .ok (raw.excluded .notMutualFund)
  else if raw.isDisposal then .ok (raw.excluded .disposalTransaction)
  else if ¬ raw.isAcquisition then .ok (raw.excluded .ambiguousTransactionType)
  else do
    let acquiredOn ← parseDate today raw.date
    match positive raw.units, positive raw.nav, positive raw.amount, acquiredOn, raw.txnIsin with
    | some units, some nav, some amount, some acquiredOn, some isin =>
      let product := inContext (units * nav)
      if lotAgreementTolerance ≤ |inContext (product - amount)| then
        .ok (raw.excluded .costBasisInconsistent)
      else do
        let costBasis ← costBasisOf product
        .ok (.complete
          { instrumentId := isin
            instrumentName := raw.description.stripped.getD isin
            quantity := units
            unitCost := nav
            costBasis := costBasis
            currency := casCurrency
            acquiredOn := acquiredOn
            sourceRef := raw.sourceRef.str
            transactionType := some raw.ttype
            reference := raw.reference.stripped
            sourceOccurrence := 0 })
    | units, nav, amount, acquiredOn, isin =>
      .ok (raw.excluded (.missingLotFacts
        ((if units.isNone then ["units"] else []) ++ (if nav.isNone then ["nav"] else []) ++
          (if amount.isNone then ["amount"] else []) ++
          (if acquiredOn.isNone then ["date"] else []) ++
          (if isin.isNone then ["isin"] else []))))

/-- The source identity within which repeated lots are numbered. -/
def CompleteLot.sourceIdentity (lot : CompleteLot) : String × String × Int × Option String :=
  (lot.sourceRef, lot.instrumentId, lot.acquiredOn, lot.reference)

structure LotExtractionResult where
  lots : List CompleteLot
  exclusions : List LotExclusion

/-- `extract_lots_from_payload`. -/
def extractLotsFromPayload (today : Int) (payload : Payload) : Except Raised LotExtractionResult :=
  match payload.transactions with
  | none => .error .typeError
  | some items => do
    let results ← (items.filterMap id).mapM (classifyTransaction today)
    .ok
      { lots := (number CompleteLot.sourceIdentity (results.filterMap Classification.lot)).map
          fun p => { p.1 with sourceOccurrence := p.2 }
        exclusions := results.filterMap Classification.exclusion }

/-! ### What is known of a lot -/

variable {today : Int} {raw : RawTransaction} {lot : CompleteLot} {payload : Payload}
  {result : LotExtractionResult}

/-- The facts a transaction has to state for a lot. -/
structure States (today : Int) (raw : RawTransaction) (lot : CompleteLot) : Prop where
  acquisition : raw.isAcquisition = true
  not_disposal : raw.isDisposal = false
  isin : raw.txnIsin = some lot.instrumentId
  quantity_pos : 0 < lot.quantity
  acquiredOn : parseDate today raw.date = .ok (some lot.acquiredOn)
  currency : lot.currency = casCurrency
  sourceRef : lot.sourceRef = raw.sourceRef.str
  transactionType : lot.transactionType = some raw.ttype
  reference : lot.reference = raw.reference.stripped
  occurrence : lot.sourceOccurrence = 0

theorem positive_pos {value : Json} {x : ℚ} (h : positive value = some x) : 0 < x :=
  of_decide_eq_true (Option.filter_eq_some_iff.mp h).2

/-- **A lot states all its facts.** -/
theorem complete_spec (h : classifyTransaction today raw = .ok (.complete lot)) :
    States today raw lot := by
  unfold classifyTransaction at h
  have hscope : ¬ lower raw.scope.orEmpty ≠ "mf" := fun hne => by
    rw [if_pos hne] at h
    cases h
  rw [if_neg hscope] at h
  have hdisposal : ¬ raw.isDisposal = true := fun hdisposal => by
    rw [if_pos hdisposal] at h
    cases h
  rw [if_neg hdisposal] at h
  have hacquisition : raw.isAcquisition = true := by_contra fun hnot => by
    rw [if_pos hnot] at h
    cases h
  rw [if_neg (not_not.mpr hacquisition)] at h
  obtain ⟨acquiredOn, hdate, h⟩ := bind_eq_ok.mp h
  split at h
  · rename_i units nav amount day isin hunits hnav hamount hisin
    have hagree : ¬ lotAgreementTolerance ≤ |inContext (inContext (units * nav) - amount)| :=
      fun hdiffer => by
        rw [if_pos hdiffer] at h
        cases h
    rw [if_neg hagree] at h
    obtain ⟨costBasis, -, h⟩ := bind_eq_ok.mp h
    cases h
    exact ⟨hacquisition, by simpa using hdisposal, hisin, positive_pos hunits, hdate, rfl, rfl, rfl,
      rfl, rfl⟩
  · cases h

/-- The lot, as the occurrence of that number. -/
def CompleteLot.withOccurrence (lot : CompleteLot) (n : Nat) : CompleteLot :=
  { lot with sourceOccurrence := n }

/-- What an extraction returns, in terms of the transactions of the document. -/
theorem extract_spec (h : extractLotsFromPayload today payload = .ok result) :
    ∃ items results, payload.transactions = some items ∧
      (items.filterMap id).mapM (classifyTransaction today) = .ok results ∧
      result.lots = (number CompleteLot.sourceIdentity (results.filterMap Classification.lot)).map
        fun p => p.1.withOccurrence p.2 := by
  unfold extractLotsFromPayload at h
  cases hitems : payload.transactions with
  | none =>
    rw [hitems] at h
    cases h
  | some items =>
    rw [hitems] at h
    obtain ⟨results, hresults, h⟩ := bind_eq_ok.mp h
    cases h
    exact ⟨items, results, rfl, hresults, rfl⟩

/-- **No two lots of a document have one identity and number.** -/
theorem nodup_sourceKeys (h : extractLotsFromPayload today payload = .ok result) :
    (result.lots.map fun lot => (lot.sourceIdentity, lot.sourceOccurrence)).Nodup := by
  obtain ⟨items, results, -, -, hlots⟩ := extract_spec h
  rw [hlots, List.map_map]
  exact nodup_number CompleteLot.sourceIdentity _

/-- The transaction is one of the document. -/
def Payload.Has (payload : Payload) (raw : RawTransaction) : Prop :=
  ∃ items ∈ payload.transactions, some raw ∈ items

theorem of_mem_lots (h : extractLotsFromPayload today payload = .ok result)
    (hlot : lot ∈ result.lots) : ∃ raw, payload.Has raw ∧
      classifyTransaction today raw = .ok (.complete (lot.withOccurrence 0)) := by
  obtain ⟨items, results, hitems, hresults, hlots⟩ := extract_spec h
  rw [hlots] at hlot
  obtain ⟨p, hp, rfl⟩ := List.mem_map.mp hlot
  obtain ⟨c, hc, hcomplete⟩ := List.mem_filterMap.mp (mem_of_mem_number hp)
  obtain ⟨raw, hraw, hclass⟩ := exists_left (forall₂_of_mapM hresults) hc
  obtain ⟨item, hitem, rfl⟩ := List.mem_filterMap.mp hraw
  cases c with
  | excluded exclusion => cases hcomplete
  | complete base =>
    obtain rfl : base = p.1 := Option.some.inj hcomplete
    have hzero : p.1 = (p.1.withOccurrence p.2).withOccurrence 0 := by
      simp only [CompleteLot.withOccurrence, ← (complete_spec hclass).occurrence]
    exact ⟨raw, ⟨items, hitems, hitem⟩, hzero ▸ hclass⟩

theorem exists_mem_lots (h : extractLotsFromPayload today payload = .ok result)
    (hraw : payload.Has raw) (hclass : classifyTransaction today raw = .ok (.complete lot)) :
    ∃ n, lot.withOccurrence n ∈ result.lots := by
  obtain ⟨items, results, hitems, hresults, hlots⟩ := extract_spec h
  obtain ⟨items', hitems', hitem⟩ := hraw
  obtain rfl := Option.some.inj (hitems.symm.trans hitems')
  have hmem : raw ∈ items.filterMap id := List.mem_filterMap.mpr ⟨_, hitem, rfl⟩
  obtain ⟨c, hc, hclass'⟩ := exists_right (forall₂_of_mapM hresults) hmem
  obtain rfl := Except.ok.inj (hclass'.symm.trans hclass)
  have hlot : lot ∈ results.filterMap Classification.lot := List.mem_filterMap.mpr ⟨_, hc, rfl⟩
  rw [← map_fst_number CompleteLot.sourceIdentity (results.filterMap Classification.lot)] at hlot
  obtain ⟨p, hp, rfl⟩ := List.mem_map.mp hlot
  exact ⟨p.2, hlots ▸ List.mem_map_of_mem (f := fun p => p.1.withOccurrence p.2) hp⟩

end

/-! ### Plain texts -/

/-- `YYYY-MM-DD`. -/
def plainIsoDate (s : String) : Except Raised Int :=
  match s.toList.splitOnP (· = '-') with
  | [year, month, day] =>
    match Statements.natOf year, Statements.natOf month, Statements.natOf day with
    | some year, some month, some day => .ok (Statements.ordinal year month day)
    | _, _, _ => .error .valueError
  | _ => .error .valueError

/-- The readers of plain digits and whole dates, which read nothing else. -/
@[reducible] def plainCasReaders : @CasReaders asciiTables :=
  let _ := asciiTables
  { toDecimalTables := asciiDecimals
    date := fun _ => plainIsoDate }

/-- A purchase of a mutual fund. -/
def purchase (units nav amount : String) : RawTransaction where
  scope := .text "mf"
  sourceRef := .text "lot/ref"
  isin := .text "INE000A01018"
  transactionType := .text "purchase"
  reference := .text "BUY-1"
  units := .text units
  nav := .text nav
  amount := .text amount
  date := .text "2026-01-15"
  description := .text "Example Fund"

end FinancialDashboard.Investments
