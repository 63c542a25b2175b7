import FinancialDashboard.Cashflow.Buckets
import Mathlib.Data.List.Sort
import Mathlib.Data.Prod.Lex
import Mathlib.Data.String.Basic
import Mathlib.Algebra.Order.Ring.Rat

/-!
# The cashflow report

`cashflow_summary` and its parts (`services/cashflow/report.py`).  The headline buckets are
filled in Python from one query by category and direction; transfers-in, the uncategorized
rows, the expense detail and each footnote have queries of their own.

Amounts are rationals, and so are the sums of a query: `SUM` is exact, where SQLite adds
doubles and the column reads the sum back with two decimals.  The lines of a group that ties are
in the order SQL gives them, which nothing below depends on.
-/

namespace FinancialDashboard.Cashflow

open Sql Transactions

/-! ### Clauses -/

def inRange (dateFrom dateTo : Int) (t : BookedTransaction) : Truth :=
  between t.transactionDate dateFrom dateTo

/-- `INR_OR_NULL`. -/
def inrOrNull (t : BookedTransaction) : Truth := (isNull t.currency).or (eq t.currency "INR")

/-- `NON_INR`. -/
def nonInr (t : BookedTransaction) : Truth :=
  (isNull t.currency).not.and (eq t.currency "INR").not

/-- `INCLUDED`. -/
def included (t : BookedTransaction) : Truth := (isTrue t.excludeFromCashflow).not

/-- `EXCLUDED`. -/
def excluded (t : BookedTransaction) : Truth := isTrue t.excludeFromCashflow

def blankChars : List Char := [' ', '\t', '\n', '\r', '\x0b', '\x0c']

/-- `BLANK_COUNTERPARTY`, `BLANK_CATEGORY`: no value, or one of blanks only. -/
def blank (value : Option String) : Truth :=
  (isNull value).or (eq (value.map (trim blankChars)) "")

/-- `NORMALIZED_COUNTERPARTY`, `NORMALIZED_CATEGORY`: the blank ones are one group. -/
def normalized (value : Option String) : Option String := if (blank value).holds then none else value

/-- `UNCATEGORIZED`. -/
def uncategorized (t : BookedTransaction) : Truth :=
  ((blank t.category).or (eq t.category unknownSlug)).or (isIn t.category bucketBySlug.keys).not

/-- `Transaction.category == slug`. -/
def ofCategory (slug : String) (t : BookedTransaction) : Truth := eq t.category slug

def bankScope (session : Session) : BookedTransaction → Truth := scopePredicate session .bank

/-- What `SIGNED_FLOW` sums. -/
def signedFlow (t : BookedTransaction) : Rat := if t.direction = "credit" then t.amount else -t.amount

/-- `_decimal`. -/
def decimal (value : Option Rat) : Rat := value.getD 0

/-! ### Lines -/

inductive InvestmentKind
  | contribution | redemption
  deriving DecidableEq, Repr

structure CategoryLine where
  slug : Option String
  label : String
  total : Rat
  count : Nat
  kind : Option InvestmentKind
  deriving DecidableEq, Repr

structure CounterpartyLine where
  counterparty : Option String
  label : String
  total : Rat
  count : Nat
  deriving DecidableEq, Repr

/-- `sorted(lines, key=_by_magnitude)`. -/
def byMagnitude {α : Type} (total : α → Rat) (label : α → String) (lines : List α) : List α :=
  lines.insertionSort fun a b =>
    (toLex (-|total a|, label a) : Rat ×ₗ String) ≤ toLex (-|total b|, label b)

def sortCategories (lines : List CategoryLine) : List CategoryLine :=
  byMagnitude (·.total) (·.label) lines

/-- `_merge`: a slug has one line, at the place it came first. -/
def merge (slug : Option String) (total : Rat) (count : Nat) : List CategoryLine → List CategoryLine
  | [] => [⟨slug, labelForSlug slug, total, count, none⟩]
  | line :: rest =>
    if line.slug = slug then
      { line with total := line.total + total, count := line.count + count } :: rest
    else line :: merge slug total count rest

structure BucketSummary where
  total : Rat
  count : Nat
  lines : List CategoryLine
  deriving DecidableEq, Repr

/-- `_bucket`. -/
def bucket (lines : List CategoryLine) : BucketSummary :=
  ⟨(lines.map (·.total)).sum, (lines.map (·.count)).sum, lines⟩

/-! ### The headline buckets -/

/-- The dictionaries and the list that the groups are placed in. -/
structure Placed where
  income : List CategoryLine
  expense : List CategoryLine
  investment : List CategoryLine

/-- The line of a group in the investment bucket; spending counts as positive. -/
def investmentLine (group : Group (Option String × String) Rat) : CategoryLine where
  slug := group.key.1
  label := labelForSlug group.key.1
  total := -decimal group.sum
  count := group.count
  kind := some (if group.key.2 = "debit" then .contribution else .redemption)

/-- The loop over the groups: what is in none of the three buckets is not placed. -/
def place (placed : Placed) (group : Group (Option String × String) Rat) : Placed :=
  match bucketForSlug group.key.1 (some .bank) with
  | .income =>
    { placed with income := merge group.key.1 (decimal group.sum) group.count placed.income }
  | .expense =>
    { placed with expense := merge group.key.1 (-decimal group.sum) group.count placed.expense }
  | .investment => { placed with investment := placed.investment ++ [investmentLine group] }
  | _ => placed

structure InvestmentSummary where
  contributions : Rat
  redemptions : Rat
  net : Rat
  count : Nat
  lines : List CategoryLine
  deriving DecidableEq, Repr

def totalOfKind (kind : InvestmentKind) (lines : List CategoryLine) : Rat :=
  ((lines.filter (·.kind = some kind)).map (·.total)).sum

def investmentSummary (lines : List CategoryLine) : InvestmentSummary :=
  let contributions := totalOfKind .contribution lines
  let redemptions := -totalOfKind .redemption lines
  ⟨contributions, redemptions, contributions - redemptions, (lines.map (·.count)).sum, lines⟩

section

variable (session : Session) (dateFrom dateTo : Int)

/-- The scan that the headline buckets share. -/
def headlineRows : List BookedTransaction :=
  select [inRange dateFrom dateTo, inrOrNull, bankScope session, included] session.transactions.rows

def placedGroups : Placed :=
  (groupBy (fun t => (t.category, t.direction)) signedFlow
    (headlineRows session dateFrom dateTo)).foldl place ⟨[], [], []⟩

/-! ### The other parts -/

structure TransfersInSummary where
  total : Rat
  count : Nat
  lines : List CounterpartyLine
  deriving DecidableEq, Repr

def transfersInRows : List BookedTransaction :=
  select [inRange dateFrom dateTo, inrOrNull, bankScope session, included,
    ofCategory transfersInSlug] session.transactions.rows

/-- A line of `_transfers_in`. -/
def counterpartyLine (group : Group (Option String) Rat) : CounterpartyLine where
  counterparty := group.key
  label := if group.key.getD "" = "" then "(no counterparty)" else group.key.getD ""
  total := decimal group.sum
  count := group.count

/-- `_transfers_in`. -/
def transfersIn : TransfersInSummary :=
  let lines := byMagnitude (·.total) (·.label) ((groupBy (fun t => normalized t.counterparty)
    signedFlow (transfersInRows session dateFrom dateTo)).map counterpartyLine)
  ⟨(lines.map (·.total)).sum, (lines.map (·.count)).sum, lines⟩

def uncategorizedRows : List BookedTransaction :=
  select [inRange dateFrom dateTo, bankScope session, included, uncategorized]
    session.transactions.rows

/-- A line of `_uncategorized`. -/
def categoryLine (group : Group (Option String) Rat) : CategoryLine where
  slug := group.key
  label := labelForSlug group.key
  total := decimal group.sum
  count := group.count
  kind := none

/-- `_uncategorized`. -/
def uncategorizedSummary : BucketSummary :=
  bucket (sortCategories ((groupBy (fun t => normalized t.category) signedFlow
    (uncategorizedRows session dateFrom dateTo)).map categoryLine))

/-- What `_expense_detail` aggregates, over every account. -/
def detailRows : List BookedTransaction :=
  select [inRange dateFrom dateTo, inrOrNull, included] session.transactions.rows

def mergeExpense (lines : List CategoryLine) (group : Group (Option String) Rat) :
    List CategoryLine :=
  if bucketForSlug group.key none = .expense then
    merge group.key (-decimal group.sum) group.count lines
  else lines

/-- `_expense_detail`. -/
def expenseDetail : BucketSummary :=
  bucket (sortCategories ((groupBy (·.category) signedFlow
    (detailRows session dateFrom dateTo)).foldl mergeExpense []))

/-! ### Footnotes -/

structure Footnotes where
  internalCount : Nat
  internalGross : Rat
  internalNet : Rat
  nonInrCount : Nat
  undatedCount : Nat
  undatedNet : Rat
  unaccountedCount : Nat
  unaccountedNet : Rat
  familyCount : Nat
  familyNet : Rat
  excludedCount : Nat
  excludedGross : Rat
  excludedNet : Rat
  deriving DecidableEq, Repr

def internalRows : List BookedTransaction :=
  select [inRange dateFrom dateTo, bankScope session, included,
    fun t => isIn t.category (internalSlugsForScope (some .bank))] session.transactions.rows

def nonInrRows : List BookedTransaction :=
  select [inRange dateFrom dateTo, bankScope session, included, nonInr] session.transactions.rows

/-- The rows without a date, of whatever account and flag. -/
def undatedRows : List BookedTransaction :=
  select [fun t => isNull t.transactionDate] session.transactions.rows

def unaccountedRows : List BookedTransaction :=
  select [inRange dateFrom dateTo, included, scopePredicate session .unaccounted]
    session.transactions.rows

/-- The family rows, of whatever account. -/
def familyRows : List BookedTransaction :=
  select [inRange dateFrom dateTo, included, ofCategory familySlug] session.transactions.rows

def excludedRows : List BookedTransaction :=
  select [inRange dateFrom dateTo, excluded] session.transactions.rows

def net (rows : List BookedTransaction) : Rat := decimal (Sql.sum signedFlow rows)

def gross (rows : List BookedTransaction) : Rat := decimal (Sql.sum (·.amount) rows)

/-- `_footnotes`. -/
def footnotes : Footnotes where
  internalCount := (internalRows session dateFrom dateTo).length
  internalGross := gross (internalRows session dateFrom dateTo)
  internalNet := net (internalRows session dateFrom dateTo)
  nonInrCount := (nonInrRows session dateFrom dateTo).length
  undatedCount := (undatedRows session).length
  undatedNet := net (undatedRows session)
  unaccountedCount := (unaccountedRows session dateFrom dateTo).length
  unaccountedNet := net (unaccountedRows session dateFrom dateTo)
  familyCount := (familyRows session dateFrom dateTo).length
  familyNet := net (familyRows session dateFrom dateTo)
  excludedCount := (excludedRows session dateFrom dateTo).length
  excludedGross := gross (excludedRows session dateFrom dateTo)
  excludedNet := net (excludedRows session dateFrom dateTo)

/-! ### The summary -/

structure CashflowSummary where
  dateFrom : Int
  dateTo : Int
  income : BucketSummary
  expense : BucketSummary
  expenseDetail : BucketSummary
  investment : InvestmentSummary
  transfersIn : TransfersInSummary
  uncategorized : BucketSummary
  netCashRetained : Rat
  footnotes : Footnotes
  deriving DecidableEq, Repr

/-- `cashflow_summary`. -/
def cashflowSummary : CashflowSummary :=
  let placed := placedGroups session dateFrom dateTo
  let income := bucket (sortCategories placed.income)
  let expense := bucket (sortCategories placed.expense)
  let investment := investmentSummary (sortCategories placed.investment)
  let transfers := transfersIn session dateFrom dateTo
  { dateFrom, dateTo, income, expense, investment
    expenseDetail := expenseDetail session dateFrom dateTo
    transfersIn := transfers
    uncategorized := uncategorizedSummary session dateFrom dateTo
    netCashRetained := income.total + transfers.total - expense.total - investment.net
    footnotes := footnotes session dateFrom dateTo }

end

end FinancialDashboard.Cashflow
