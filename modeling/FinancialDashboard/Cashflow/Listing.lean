import FinancialDashboard.Cashflow.Report
import FinancialDashboard.Core.Dates

/-!
# The transaction listing

The rows that `/transactions` lists (`web/transactions.py`): its query parameters, each with
the clause it stands for.  Sorting and paging are left out, they choose no rows.

* `matchDate_isoformat`, `normalizeQueryDate_isoformat`: a date as the report writes it is
  read back, and is not corrected.
* `transactionList_range`, `transactionList_undated`: what is listed with such dates.
* `select_congr`: two spellings of one condition list the same rows.
-/

namespace FinancialDashboard.Cashflow

open Sql Sql.Truth Transactions PyTime FinancialDashboard.Core

/-! ### Dates of a query -/

structure NormalizedQueryDate where
  parsedDate : Option Int
  queryValue : Option String
  deriving DecidableEq, Repr

/-- `re.fullmatch(r"(\d{4})-(\d{2})-(\d{2})", value)`, of ASCII digits; the `\d` of the source
takes those of every script. -/
def matchDate (value : String) : Option (Nat × Nat × Nat) :=
  let year := value.toList.take 4
  let month := (value.toList.drop 5).take 2
  let day := value.toList.drop 8
  if value.toList = year ++ '-' :: (month ++ '-' :: day) ∧ year.length = 4 ∧ month.length = 2 ∧
      day.length = 2 ∧ (year ++ month ++ day).all Char.isDigit = true then
    some (Nat.ofDigitChars 10 year 0, Nat.ofDigitChars 10 month 0, Nat.ofDigitChars 10 day 0)
  else none

/-- The `UnprocessableEntityException` of every date that is none. -/
def invalidDate (field : String) : String :=
  field ++ " must use YYYY-MM-DD and be a valid calendar date"

/-- The date of a year, a month and a day, the last of the month if it has not so many. -/
def clampedDate (year month day : Nat) : Int :=
  let month : Int := 12 * year + month - 1
  firstOf month + min (day : Int) (daysInMonth month) - 1

/-- `_normalize_query_date`. -/
def normalizeQueryDate (field : String) (value : Option String) :
    Except String NormalizedQueryDate :=
  match value with
  | none => .ok ⟨none, none⟩
  | some text =>
    if text = "" then .ok ⟨none, some ""⟩
    else match matchDate text with
      | none => .error (invalidDate field)
      | some (year, month, day) =>
        if 1 ≤ year ∧ 1 ≤ month ∧ month ≤ 12 ∧ 1 ≤ day then
          .ok ⟨some (clampedDate year month day), some (isoformat (clampedDate year month day))⟩
        else .error (invalidDate field)

/-! ### The clauses -/

structure TransactionQuery where
  bank : Option String := none
  accountId : Option String := none
  cardId : Option String := none
  direction : Option String := none
  dateFrom : Option String := none
  dateTo : Option String := none
  category : Option String := none
  counterparty : Option String := none
  uncategorized : Option String := none
  categoryNull : Option String := none
  internal : Option String := none
  nonInr : Option String := none
  undated : Option String := none
  excluded : Option String := none
  scope : Option Scope := none
  deriving DecidableEq, Repr

/-- A parameter that is there and not empty. -/
def given (value : Option String) : Option String := value.filter (· ≠ "")

/-- `is_blank_counterparty` of a parameter that is there. -/
def isBlankCounterparty (value : String) : Bool := trim blankChars value = ""

/-- The clause of a parameter, if the parameter asks for one. -/
def clauseOf {α : Type} (value : Option α) (clause : α → BookedTransaction → Truth) :
    List (BookedTransaction → Truth) := (value.map clause).toList

/-- The clause of a parameter that is the text `1`. -/
def clauseIf (value : Option String) (clause : BookedTransaction → Truth) :
    List (BookedTransaction → Truth) := if value = some "1" then [clause] else []

/-- The clause of a parameter that is `1`, or else the one if it is `0`. -/
def clauseOneZero (value : Option String) (one zero : BookedTransaction → Truth) :
    List (BookedTransaction → Truth) :=
  if value = some "1" then [one] else if value = some "0" then [zero] else []

def counterpartyClause (value : String) (t : BookedTransaction) : Truth :=
  if isBlankCounterparty value then blank t.counterparty else eq t.counterparty value

section

variable {α : Type} {clause one zero : BookedTransaction → Truth}

@[simp] theorem given_none : given none = none := rfl

@[simp] theorem given_some {text : String} (h : text ≠ "") : given (some text) = some text := by
  simp [given, h]

@[simp] theorem clauseOf_none (clause : α → BookedTransaction → Truth) : clauseOf none clause = [] :=
  rfl

@[simp] theorem clauseOf_some (a : α) (clause : α → BookedTransaction → Truth) :
    clauseOf (some a) clause = [clause a] := rfl

@[simp] theorem clauseIf_none : clauseIf none clause = [] := rfl

@[simp] theorem clauseIf_one : clauseIf (some "1") clause = [clause] := rfl

@[simp] theorem clauseOneZero_none : clauseOneZero none one zero = [] := rfl

@[simp] theorem clauseOneZero_one : clauseOneZero (some "1") one zero = [one] := rfl

@[simp] theorem clauseOneZero_zero : clauseOneZero (some "0") one zero = [zero] := rfl

end

section

variable (session : Session) (readInt : String → Option Int)

/-- The conditions of the listing; `readInt` is Python's `int` of a text. -/
def filters (query : TransactionQuery) (dateFrom dateTo : Option Int) :
    List (BookedTransaction → Truth) :=
  clauseOf (given query.bank) (fun bank t => some (t.bank = bank)) ++
  clauseOf ((given query.accountId).bind readInt)
    (fun id t => t.accountId.map fun account => (account : Int) = id) ++
  clauseOf ((given query.cardId).bind readInt)
    (fun id t => t.cardId.map fun card => (card : Int) = id) ++
  clauseOf (given query.direction) (fun direction t => some (t.direction = direction)) ++
  clauseOf dateFrom (fun date t => t.transactionDate.map fun d => date ≤ d) ++
  clauseOf dateTo (fun date t => t.transactionDate.map fun d => d ≤ date) ++
  clauseOf (given query.category) ofCategory ++
  clauseOf query.counterparty counterpartyClause ++
  clauseIf query.uncategorized uncategorized ++
  clauseIf query.categoryNull (fun t => blank t.category) ++
  clauseIf query.internal (fun t => isIn t.category (internalSlugsForScope query.scope)) ++
  clauseOneZero query.nonInr nonInr inrOrNull ++
  clauseIf query.undated (fun t => isNull t.transactionDate) ++
  clauseOneZero query.excluded excluded included ++
  clauseOf query.scope (scopePredicate session)

/-- A redirect to the corrected query, or the rows that are listed. -/
inductive ListingResponse
  | redirect (query : TransactionQuery)
  | page (rows : List BookedTransaction)

/-- The text of a date that is to be corrected. -/
def correction (original normalized : Option String) : Option String :=
  if original ≠ none ∧ original ≠ some "" ∧ normalized ≠ none ∧ normalized ≠ original then normalized
  else none

/-- The listing of dates that are normalized. -/
def listing (query : TransactionQuery) (dateFrom dateTo : NormalizedQueryDate) : ListingResponse :=
  let corrected := correction query.dateFrom dateFrom.queryValue
  let corrected' := correction query.dateTo dateTo.queryValue
  if corrected ≠ none ∨ corrected' ≠ none then
    .redirect { query with
      dateFrom := corrected.or query.dateFrom
      dateTo := corrected'.or query.dateTo }
  else
    .page (select (filters session readInt query dateFrom.parsedDate dateTo.parsedDate)
      session.transactions.rows)

/-- `transaction_list`, as far as the rows; `total_count` is their number. -/
def transactionList (query : TransactionQuery) : Except String ListingResponse := do
  let dateFrom ← normalizeQueryDate "date_from" query.dateFrom
  let dateTo ← normalizeQueryDate "date_to" query.dateTo
  return listing session readInt query dateFrom dateTo

end

/-! ### Dates read back -/

section

variable {date : Int}

/-- Four digits, two and two, with dashes between them. -/
theorem matchDate_eq {value : String} (year month day : List Char)
    (hvalue : value.toList = year ++ '-' :: (month ++ '-' :: day)) (hyear : year.length = 4)
    (hmonth : month.length = 2) (hday : day.length = 2)
    (hdigits : ∀ c ∈ year ++ month ++ day, c.isDigit = true) : matchDate value =
      some (Nat.ofDigitChars 10 year 0, Nat.ofDigitChars 10 month 0, Nat.ofDigitChars 10 day 0) := by
  have htake : value.toList.take 4 = year := by rw [hvalue, List.take_left' hyear]
  have hrest : value.toList.drop 5 = month ++ '-' :: day := by
    rw [hvalue, List.drop_append, hyear, List.drop_eq_nil_of_le (by omega)]
    rfl
  have hlast : value.toList.drop 8 = day := by
    have hdrop : value.toList.drop 8 = (value.toList.drop 5).drop 3 := by rw [List.drop_drop]
    rw [hdrop, hrest, List.drop_append, hmonth, List.drop_eq_nil_of_le (by omega)]
    rfl
  unfold matchDate
  rw [htake, hrest, hlast, List.take_left' hmonth]
  exact if_pos ⟨hvalue, hyear, hmonth, hday, List.all_eq_true.mpr hdigits⟩

theorem matchDate_isoformat (h : IsDate date) : matchDate (isoformat date) =
    some ((civil date).year.toNat, (civil date).month, (civil date).day) := by
  have hyear : (civil date).year.toNat < 10 ^ 4 := by
    have hbounds := isDate_iff.mp h
    have hcivil := civil_year date
    omega
  have hmonth : (civil date).month < 10 ^ 2 := by
    have hcivil := civil_month date
    omega
  have hday : (civil date).day < 10 ^ 2 := by
    have hle := civil_day_le date
    have hbounds := daysInMonth_bounds (monthOf date)
    omega
  rw [matchDate_eq (zeroPad 4 (civil date).year.toNat).toList (zeroPad 2 (civil date).month).toList
    (zeroPad 2 (civil date).day).toList
    (by simp [isoformat]) (length_zeroPad (length_toString_le (by decide) hyear))
    (length_zeroPad (length_toString_le (by decide) hmonth))
    (length_zeroPad (length_toString_le (by decide) hday)), ofDigitChars_zeroPad,
    ofDigitChars_zeroPad, ofDigitChars_zeroPad]
  intro c hc
  rcases List.mem_append.mp hc with hc | hc
  · rcases List.mem_append.mp hc with hc | hc
    · exact isDigit_of_mem_zeroPad hc
    · exact isDigit_of_mem_zeroPad hc
  · exact isDigit_of_mem_zeroPad hc

theorem clampedDate_civil (h : IsDate date) :
    clampedDate (civil date).year.toNat (civil date).month (civil date).day = date := by
  have hday := civil_day date
  have hle := civil_day_le date
  have hmonth : 12 * ((civil date).year.toNat : Int) + (civil date).month - 1 = monthOf date := by
    have hyear := civil_year date
    have hbounds := isDate_iff.mp h
    unfold monthOf at *
    omega
  unfold clampedDate
  dsimp only
  rw [hmonth, min_eq_left hle]
  omega

/-- **A date as the report writes it is read back** as it is. -/
theorem normalizeQueryDate_isoformat (h : IsDate date) (field : String) :
    normalizeQueryDate field (some (isoformat date)) = .ok ⟨some date, some (isoformat date)⟩ := by
  have hmatch := matchDate_isoformat h
  have hne : isoformat date ≠ "" := by
    intro hempty
    rw [hempty] at hmatch
    exact absurd hmatch (by simp [matchDate])
  have hvalid : 1 ≤ (civil date).year.toNat ∧ 1 ≤ (civil date).month ∧ (civil date).month ≤ 12 ∧
      1 ≤ (civil date).day := by
    have hbounds := isDate_iff.mp h
    have hyear := civil_year date
    have hmonth := civil_month date
    have hday := (firstOf_monthOf date).2.1
    omega
  unfold normalizeQueryDate
  dsimp only
  rw [if_neg hne, hmatch]
  dsimp only
  rw [if_pos hvalid, clampedDate_civil h]

end

/-! ### What is listed -/

section

variable {session : Session} {readInt : String → Option Int} {query : TransactionQuery}
  {dateFrom dateTo : Int} {rows : List BookedTransaction}

/-- Two spellings of one condition. -/
theorem select_congr {clauses more : List (BookedTransaction → Truth)}
    (h : ∀ t ∈ rows, (∀ clause ∈ clauses, (clause t).holds = true) ↔
      ∀ clause ∈ more, (clause t).holds = true) : select clauses rows = select more rows := by
  refine List.filter_congr fun t ht => ?_
  rw [Bool.eq_iff_iff, holds_all, holds_all]
  exact h t ht

theorem transactionList_range (hfrom : IsDate dateFrom) (hto : IsDate dateTo)
    (hqueryFrom : query.dateFrom = some (isoformat dateFrom))
    (hqueryTo : query.dateTo = some (isoformat dateTo)) :
    transactionList session readInt query = .ok (.page (select
      (filters session readInt query (some dateFrom) (some dateTo)) session.transactions.rows)) := by
  unfold transactionList
  rw [hqueryFrom, hqueryTo, normalizeQueryDate_isoformat hfrom, normalizeQueryDate_isoformat hto]
  refine congrArg Except.ok ?_
  unfold listing
  rw [hqueryFrom, hqueryTo]
  simp [correction]

theorem transactionList_undated (hqueryFrom : query.dateFrom = none)
    (hqueryTo : query.dateTo = none) : transactionList session readInt query =
      .ok (.page (select (filters session readInt query none none) session.transactions.rows)) := by
  unfold transactionList
  rw [hqueryFrom, hqueryTo]
  refine congrArg Except.ok ?_
  unfold listing
  rw [hqueryFrom, hqueryTo]
  simp [correction]

end

end FinancialDashboard.Cashflow
