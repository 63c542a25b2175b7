import FinancialDashboard.Transactions.Record
import Mathlib.Algebra.Group.Nat.Defs
import Mathlib.Data.List.Sort
import Mathlib.Data.List.Dedup
import Mathlib.Data.List.Nodup

/-!
# What the two reconcilers share

A statement row is paired with a transaction of the account by amount, direction and a
window of one day, and `services/statements/contention.py` says what becomes of the
rows left over: a row some transaction could still be is held back, and only a row with
no candidate at all is imported.

The third-party date reader and `Decimal(s)` are parameters, `Readers`.  Sets of row
ids are lists, read through membership.

* `AccountRows.eq_of_id`: an id is one transaction of the account.
* `AccountRows.byId_of_mem`, `AccountRows.mem_of_byId`: the lookup by id.
* `inWindow_iff`: the window as the walk over its three days.
-/

namespace FinancialDashboard.Statements

open PyText Transactions

/-- A value of `Decimal`.  A NaN or an infinity equals no stored amount. -/
inductive Amount
  | finite (value : Rat)
  | nonFinite
  deriving DecidableEq

/-- What a statement's texts are read with: `none` where the reader raises. -/
class Readers where
  /-- `Decimal(s)`. -/
  decimal : String → Option Amount
  /-- `dateutil.parser.parse(s, dayfirst=True).date()`. -/
  dateutil : String → Option Int
  /-- If `Decimal(s)` is an infinity, whether it is the positive one. -/
  infinity : String → Option Bool := fun _ => none

inductive Direction
  | debit | credit
  deriving DecidableEq, Repr

namespace Direction

/-- Its value in the `direction` column. -/
def value : Direction → String
  | debit => "debit"
  | credit => "credit"

end Direction

/-! ### Reading a row -/

/-- `Decimal(amount_str.replace(",", ""))`. -/
def parseAmount [Readers] (amountStr : String) : Option Amount :=
  Readers.decimal (String.ofList (amountStr.toList.filter (· ≠ ',')))

/-- `parse_date(date_str, dayfirst=True)`; a blank is no date. -/
def parseDate [UnicodeTables] [Readers] (dateStr : String) : Option Int :=
  if strip dateStr = "" then none else Readers.dateutil (strip dateStr)

/-- The amount and date of a row, when both can be read. -/
def textIdentity [UnicodeTables] [Readers] (amountStr dateStr : String) : Option (Amount × Int) :=
  match parseAmount amountStr, parseDate dateStr with
  | some amount, some date => some (amount, date)
  | _, _ => none

theorem textIdentity_eq_some [UnicodeTables] [Readers] {amountStr dateStr : String}
    {amount : Amount} {date : Int} : textIdentity amountStr dateStr = some (amount, date) ↔
      parseAmount amountStr = some amount ∧ parseDate dateStr = some date := by
  unfold textIdentity
  cases parseAmount amountStr with
  | none => simp
  | some a => cases parseDate dateStr <;> simp

/-! ### Plain texts -/

def natOf (digits : List Char) : Option Nat :=
  if digits ≠ [] ∧ digits.all Char.isDigit then
    some (digits.foldl (fun n ch => 10 * n + (ch.toNat - '0'.toNat)) 0)
  else none

/-- Digits, or digits on both sides of a point. -/
def plainDecimal (s : String) : Option Amount :=
  match s.toList.splitOnP (· = '.') with
  | [whole] => (natOf whole).map fun n => .finite n
  | [whole, cents] =>
    (natOf (whole ++ cents)).map fun n => .finite (n / (10 ^ cents.length : Nat))
  | _ => none

/-- `date(year, month, day).toordinal()`. -/
def ordinal (year month day : Nat) : Int :=
  let past := year - 1
  let leap := year % 4 = 0 ∧ (year % 100 ≠ 0 ∨ year % 400 = 0)
  let before := [0, 31, 59, 90, 120, 151, 181, 212, 243, 273, 304, 334].getD (month - 1) 0
  365 * past + past / 4 - past / 100 + past / 400 + before +
    (if leap ∧ 2 < month then 1 else 0) + day

/-- `DD/MM/YYYY`. -/
def plainDate (s : String) : Option Int :=
  match s.toList.splitOnP (· = '/') with
  | [day, month, year] => do return ordinal (← natOf year) (← natOf month) (← natOf day)
  | _ => none

/-- The readers of `1234.56` and `DD/MM/YYYY`, which read nothing else. -/
@[reducible] def plainReaders : Readers where
  decimal := plainDecimal
  dateutil := plainDate

/-- A transaction as an alert stores it. -/
def alertRow (id : Nat) (day : Int) (amount : Rat) (direction : Direction)
    (counterparty : String) : Transaction where
  bank := "hdfc"
  emailType := "sms"
  direction := direction.value
  amount := amount
  currency := some "INR"
  transactionDate := some day
  transactionTime := none
  counterparty := some counterparty
  cardMask := none
  accountMask := none
  referenceNumber := none
  channel := none
  balance := none
  rawDescription := none
  transactionTimeIsReceivedTime := false
  identifiesBy := .counterparty
  id := id
  smsMessageId := some id
  emailId := none
  source := some Channel.sms.value

/-! ### The account's transactions -/

/-- The transactions of one account, in the order they are read. -/
structure AccountRows where
  rows : List Transaction
  nodup_ids : (rows.map (·.id)).Nodup

namespace AccountRows

variable {db : AccountRows} {row other : Transaction} {id : Nat}

/-- `db_by_id`. -/
def byId (db : AccountRows) (id : Nat) : Option Transaction := db.rows.find? (·.id = id)

theorem eq_of_id (hr : row ∈ db.rows) (ho : other ∈ db.rows) (h : row.id = other.id) :
    row = other :=
  List.inj_on_of_nodup_map db.nodup_ids hr ho h

theorem mem_of_byId (h : db.byId id = some row) : row ∈ db.rows ∧ row.id = id :=
  ⟨List.mem_of_find?_eq_some h, by simpa using List.find?_some h⟩

theorem byId_of_mem (h : row ∈ db.rows) : db.byId row.id = some row := by
  cases hf : db.byId row.id with
  | none => simpa using List.find?_eq_none.mp hf row h
  | some found =>
    obtain ⟨hm, hid⟩ := mem_of_byId hf
    rw [eq_of_id hm h hid]

end AccountRows

/-! ### The window -/

/-- The order of the walk: the day itself, then the day before and the day after. -/
def dateOffsets : List Int := [0, -1, 1]

/-- At most a day apart. -/
def WithinADay (a b : Int) : Prop := -1 ≤ a - b ∧ a - b ≤ 1

instance (a b : Int) : Decidable (WithinADay a b) := inferInstanceAs (Decidable (_ ∧ _))

theorem withinADay_iff {a b : Int} : WithinADay a b ↔ ∃ offset ∈ dateOffsets, a = b + offset := by
  simp only [WithinADay, dateOffsets, List.mem_cons, List.not_mem_nil, or_false]
  constructor
  · rintro ⟨hl, hu⟩
    exact ⟨a - b, by omega, by omega⟩
  · rintro ⟨offset, ho, rfl⟩
    omega

/-- `_match_key(row.transaction_date, row.amount, row.direction)` is this key. -/
def HasKey (row : Transaction) (date : Int) (amount : Amount) (direction : Direction) : Prop :=
  row.transactionDate = some date ∧ Amount.finite row.amount = amount ∧
    row.direction = direction.value

instance (row : Transaction) (date : Int) (amount : Amount) (direction : Direction) :
    Decidable (HasKey row date amount direction) :=
  inferInstanceAs (Decidable (_ ∧ _ ∧ _))

/-- One list of the pool: the rows under a key, in their order. -/
def bucket (rows : List Transaction) (date : Int) (amount : Amount) (direction : Direction) :
    List Transaction :=
  rows.filter fun row => HasKey row date amount direction

theorem mem_bucket {rows : List Transaction} {date : Int} {amount : Amount}
    {direction : Direction} {row : Transaction} :
    row ∈ bucket rows date amount direction ↔
      row ∈ rows ∧ HasKey row date amount direction := by simp [bucket]

/-- What pairing asks of a transaction whatever else is known of it: the amount, the
direction, and a date in the window. -/
def InWindow (row : Transaction) (date : Int) (amount : Amount) (direction : Direction) : Prop :=
  ∃ day, WithinADay day date ∧ HasKey row day amount direction

theorem inWindow_iff {row : Transaction} {date : Int} {amount : Amount} {direction : Direction} :
    InWindow row date amount direction ↔
      ∃ offset ∈ dateOffsets, HasKey row (date + offset) amount direction := by
  constructor
  · rintro ⟨day, hw, hk⟩
    obtain ⟨offset, ho, rfl⟩ := withinADay_iff.mp hw
    exact ⟨offset, ho, hk⟩
  · rintro ⟨offset, ho, hk⟩
    exact ⟨date + offset, withinADay_iff.mpr ⟨offset, ho, rfl⟩, hk⟩

/-! ### Evidence -/

def candidateEvidenceLimit : Nat := 20

/-- Why a statement row came out as it did. -/
inductive DecisionReason
  | matchedExactDate | matchedDateOffset | matchedReference | matchedDateAmount
  | noCandidate | candidateRefusedOrConsumed | contestedMatchDemoted
  | unparseableStatementIdentity
  deriving DecidableEq, Repr

structure CandidateEvidence where
  candidateTransactionIds : List Nat
  candidateCount : Nat
  candidateIdsTruncated : Bool
  decisionReason : DecisionReason
  gates : List String
  deriving DecidableEq

def candidateEvidence (candidates : List Nat) (reason : DecisionReason) (gates : List String) :
    CandidateEvidence :=
  let ordered := candidates.dedup.insertionSort (· ≤ ·)
  { candidateTransactionIds := ordered.take candidateEvidenceLimit
    candidateCount := ordered.length
    candidateIdsTruncated := candidateEvidenceLimit < ordered.length
    decisionReason := reason
    gates := gates }

/-- `bool(candidates)`: a row with any candidate is unresolved, not new. -/
def contendedMiss (candidates : List Nat) : Bool := candidates ≠ []

/-- The gates of a row that could not be read. -/
def parseGates : List String := ["parse_amount", "parse_date"]

end FinancialDashboard.Statements
