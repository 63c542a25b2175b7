import FinancialDashboard.Lib.FirstCome
import FinancialDashboard.Statements.Contention
import FinancialDashboard.Statements.Narration

/-!
# Reconciling a bank statement

`reconcile_bank_statement` of `services/statements/bank.py`.  Two passes claim
transactions, first by reference number and then by date, amount and direction; then
the claims another row could also have made are looked at again, and those whose rivals
would write something else are given up.

Where the source keeps the id of a transaction and looks it up again, the transaction
itself is kept; what it files under `stmt_idx` goes with the row.  Left out are the
`OverflowError` of a row dated 31/12/9999, which has no next day, and the `TypeError` of an
amount that is a signalling `NaN`, which cannot be hashed.
-/

namespace FinancialDashboard.Statements

open PyText Transactions FirstCome

/-! ### The statement -/

structure BankTransaction where
  date : String
  amount : String
  direction : Direction
  narration : Option String
  counterparty : Option String
  referenceNumber : Option String
  channel : Option String
  balance : Option String
  deriving DecidableEq

structure ParsedBankStatement where
  bank : Option String
  accountNumber : Option String
  accountHolderName : Option String
  transactions : List BankTransaction

structure BankLine where
  txn : BankTransaction
  stmtIdx : Nat
  deriving DecidableEq

/-- A line whose amount and date could be read. -/
structure BankRow extends BankLine where
  amount : Amount
  txnDate : Int
  deriving DecidableEq

def bankLines (parsed : ParsedBankStatement) : List BankLine :=
  parsed.transactions.zipIdx.map fun (txn, stmtIdx) => ⟨txn, stmtIdx⟩

section

variable [UnicodeTables] [Readers]

def readRow (line : BankLine) : Option BankRow :=
  match parseAmount line.txn.amount, parseDate line.txn.date with
  | some amount, some txnDate => some ⟨line, amount, txnDate⟩
  | _, _ => none

def parsedRows (parsed : ParsedBankStatement) : List BankRow :=
  (bankLines parsed).filterMap readRow

end

/-! ### Compatibility -/

def overlapStopwords : List String :=
  ["PAYMENT", "PAYMENTS", "PAID", "CREDIT", "CREDITS", "CREDITED", "CRED", "DEBIT", "DEBITS",
    "DEBITED", "TRANSFER", "TRANSFERS", "TRANSFERRED", "SELFTRANSFER", "SELF", "BANK", "ACCOUNT",
    "BENEFICIARY", "REMITTER", "SENDER", "FROM", "VIA", "FOR", "WITH", "RECEIVED", "RECEIPT",
    "SENT", "AMOUNT", "BALANCE", "AVAILABLE", "INDIA", "INTERNATIONAL", "TRANSACTION",
    "TXNRECONCILE", "TXN", "REFUND", "REFUNDS", "REVERSAL", "REVERSED", "UPI", "IMPS", "NEFT",
    "RTGS", "ACH", "NACH", "SLICE", "ICICI", "HDFC", "AXIS", "KOTAK", "IDFC", "INDUSIND", "SBI",
    "YESBANK", "EQUITAS", "JUPITER", "ONECARD", "HSBC", "OKAXIS", "OKICICI", "OKHDFCBANK",
    "OKSBI", "YBL", "PAYTM"]

/-- `a or b`. -/
def orElse (a b : Option String) : Option String := if a.getD "" ≠ "" then a else b

/-- The text a stored row is compared by. -/
def candidateNarration (dbTxn : Transaction) : Option String :=
  orElse dbTxn.rawDescription dbTxn.counterparty

/-- Only two known balances can contradict; one that cannot be read is unknown. -/
def knownBalanceCompatible [Readers] (candidateBalance : Option Rat)
    (statementBalance : Option String) : Bool :=
  match candidateBalance, statementBalance with
  | some balance, some text =>
    match parseAmount text with
    | some stated => Amount.finite balance = stated
    | none => true
  | _, _ => true

/-- A reference of the one side stands in the text of the other. -/
def hasReferenceEvidence (txn : BankTransaction) (dbTxn : Transaction) : Bool :=
  refAppearsIn dbTxn.referenceNumber txn.narration ||
    refAppearsIn txn.referenceNumber (candidateNarration dbTxn)

/-- UPI on both sides, and a token of the narrations in common. -/
def sharesUpiToken (holder : List String) (txn : BankTransaction) (dbTxn : Transaction) : Bool :=
  txn.channel = some "upi" && dbTxn.channel = some "upi" &&
    (significantTokens (candidateNarration dbTxn) (overlapStopwords ++ holder)).any
      (· ∈ significantTokens txn.narration (overlapStopwords ++ holder))

def isStatementCandidateCompatible [Readers] (holder : List String) (txn : BankTransaction)
    (dbTxn : Transaction) (hasDateOffset : Bool) : Bool :=
  let statementReference := txn.referenceNumber.getD ""
  let candidateReference := dbTxn.referenceNumber.getD ""
  if statementReference ≠ "" ∧ candidateReference ≠ "" ∧
      statementReference = candidateReference then true
  else if !knownBalanceCompatible dbTxn.balance txn.balance then false
  else if statementReference = "" ∨ candidateReference = "" then true
  else if hasDateOffset then false
  else hasReferenceEvidence txn dbTxn || sharesUpiToken holder txn dbTxn

/-! ### Candidates by reference -/

/-- The row and the transaction carry one reference in one direction. -/
def SharesReference (txn : BankTransaction) (dbTxn : Transaction) : Prop :=
  txn.referenceNumber.getD "" ≠ "" ∧ dbTxn.referenceNumber = txn.referenceNumber ∧
    dbTxn.direction = txn.direction.value

instance (txn : BankTransaction) (dbTxn : Transaction) : Decidable (SharesReference txn dbTxn) :=
  inferInstanceAs (Decidable (_ ∧ _ ∧ _))

/-- `ref_pool.get((txn.reference_number, direction))`, evidence whatever the amount. -/
def referenceEvidence (db : AccountRows) (row : BankRow) : List Transaction :=
  db.rows.filter fun dbTxn => SharesReference row.txn dbTxn

/-- Those a reference may claim: amount alone decides, balance has no veto. -/
def compatibleByReference (db : AccountRows) (row : BankRow) : List Transaction :=
  (referenceEvidence db row).filter fun dbTxn => Amount.finite dbTxn.amount = row.amount

/-- A reference decides only when it decides alone. -/
def takeSoleUnconsumed (candidates consumed : List Transaction) : Option Transaction :=
  match candidates.filter (· ∉ consumed) with
  | [only] => some only
  | _ => none

/-! ### Candidates by date -/

/-- What one day offers a row; `strong` has a reference in a text. -/
structure CompatibleCandidates where
  strong : List Transaction
  compatible : List Transaction

section

variable [Readers]

def compatibleCandidates (db : AccountRows) (holder : List String) (consumed : List Transaction)
    (row : BankRow) (offset : Int) : CompatibleCandidates :=
  let compatible := (bucket db.rows (row.txnDate + offset) row.amount row.txn.direction).filter
    fun dbTxn =>
      dbTxn ∉ consumed && isStatementCandidateCompatible holder row.txn dbTxn (offset ≠ 0)
  { strong := compatible.filter (hasReferenceEvidence row.txn)
    compatible := compatible }

/-- The strong ones decide where there are any; and only one of them may. -/
def selectUniqueCompatible (candidates : CompatibleCandidates) : Option Transaction :=
  match if candidates.strong ≠ [] then candidates.strong else candidates.compatible with
  | [only] => some only
  | _ => none

/-- Everything in the window that a row could be, whoever claimed it. -/
def fuzzySet (db : AccountRows) (holder : List String) (row : BankRow) : List Transaction :=
  dateOffsets.flatMap fun offset => (compatibleCandidates db holder [] row offset).compatible

/-- What keeps a row from being new. -/
def bankCandidateSet (db : AccountRows) (holder : List String) (row : BankRow) : List Nat :=
  (referenceEvidence db row ++ fuzzySet db holder row).map (·.id)

/-- What a row could claim. -/
def contentionSet (db : AccountRows) (holder : List String) (row : BankRow) : List Nat :=
  (compatibleByReference db row ++ fuzzySet db holder row).map (·.id)

/-! ### The two passes -/

def pickByReference (db : AccountRows) (consumed : List Transaction) (row : BankRow) :
    Option Transaction :=
  takeSoleUnconsumed (compatibleByReference db row) consumed

def pickByDate (db : AccountRows) (holder : List String) (consumed : List Transaction)
    (row : BankRow) : Option Transaction :=
  dateOffsets.findSome? fun offset =>
    selectUniqueCompatible (compatibleCandidates db holder consumed row offset)

def referencePass (db : AccountRows) (rows : List BankRow) : Outcome BankRow Transaction :=
  serve (pickByReference db) [] rows

/-- The rows the references left over, with what they left. -/
def datePass (db : AccountRows) (holder : List String) (rows : List BankRow) :
    Outcome BankRow Transaction :=
  secondRound (pickByDate db holder) (referencePass db rows)

/-- `claimed_ids`. -/
def claims (db : AccountRows) (holder : List String) (rows : List BankRow) :
    List (BankRow × Transaction) :=
  (referencePass db rows).served ++ (datePass db holder rows).served

end

/-! ### Contested claims -/

/-- What a claim would write, and the channel. -/
structure RefreshIdentity where
  counterparty : String
  channel : Option String
  deriving DecidableEq

section

variable [UnicodeTables]

/-- `(a or "").strip()`. -/
def stripped (text : Option String) : String := strip (text.getD "")

def bankRefreshIdentity (txn : BankTransaction) : RefreshIdentity where
  counterparty :=
    if stripped txn.counterparty ≠ "" then stripped txn.counterparty else stripped txn.narration
  channel := txn.channel

/-- Another row could claim the transaction and would write something else. -/
def isContestedClaim [Readers] (db : AccountRows) (holder : List String) (rows : List BankRow)
    (claim : BankRow × Transaction) : Bool :=
  rows.any fun other =>
    other.stmtIdx ≠ claim.1.stmtIdx && claim.2.id ∈ contentionSet db holder other &&
      bankRefreshIdentity other.txn ≠ bankRefreshIdentity claim.1.txn

end

/-! ### Entries -/

structure BankMatchedEntry where
  row : BankRow
  dbTxnId : Nat
  dbCounterparty : Option String
  dbReference : Option String
  dbDate : Option Int
  evidence : CandidateEvidence

structure BankMissingEntry where
  line : BankLine
  ambiguous : Bool
  evidence : CandidateEvidence

structure BankReconciliation where
  matched : List BankMatchedEntry
  missing : List BankMissingEntry

def bankReconciliationGates : List String :=
  ["account_scope", "reference_direction", "reference_amount_compatibility",
    "known_balance_compatibility", "direction_amount", "date_window_plus_minus_one_day",
    "reference_or_narration_compatibility", "unique_unconsumed_candidate", "contention"]

section

variable [UnicodeTables] [Readers]

/-- The claim of a row, before anything is given up. -/
def claimOf (db : AccountRows) (holder : List String) (rows : List BankRow) (row : BankRow) :
    Option (BankRow × Transaction) :=
  (claims db holder rows).find? (·.1.stmtIdx = row.stmtIdx)

/-- `matched_db_ids.get(stmt_idx)` once the contested claims are given up. -/
def standingClaim (db : AccountRows) (holder : List String) (rows : List BankRow)
    (row : BankRow) : Option (BankRow × Transaction) :=
  (claimOf db holder rows row).filter fun claim => !isContestedClaim db holder rows claim

def bankMatchedEntry (db : AccountRows) (holder : List String) (rows : List BankRow)
    (row : BankRow) (dbTxn : Transaction) : BankMatchedEntry where
  row := row
  dbTxnId := dbTxn.id
  dbCounterparty := dbTxn.counterparty
  dbReference := dbTxn.referenceNumber
  dbDate := dbTxn.transactionDate
  evidence :=
    candidateEvidence (bankCandidateSet db holder row)
      (if (referencePass db rows).served.any (·.1.stmtIdx = row.stmtIdx) then .matchedReference
      else .matchedDateAmount)
      bankReconciliationGates

def bankMissedEntry (db : AccountRows) (holder : List String) (rows : List BankRow)
    (row : BankRow) : BankMissingEntry where
  line := row.toBankLine
  ambiguous := contendedMiss (bankCandidateSet db holder row)
  evidence :=
    candidateEvidence (bankCandidateSet db holder row)
      (if (claimOf db holder rows row).isSome then .contestedMatchDemoted
      else if bankCandidateSet db holder row ≠ [] then .candidateRefusedOrConsumed
      else .noCandidate)
      bankReconciliationGates

/-- A line that could not be read is missing, and not ambiguous. -/
def unreadEntry (line : BankLine) : BankMissingEntry where
  line := line
  ambiguous := false
  evidence := candidateEvidence [] .unparseableStatementIdentity parseGates

/-- The entries `import_missing_bank_txns` inserts. -/
def BankMissingEntry.importable (entry : BankMissingEntry) : Bool :=
  !entry.ambiguous && (readRow entry.line).isSome

def reconcileBankStatement (db : AccountRows) (parsed : ParsedBankStatement) :
    BankReconciliation :=
  let rows := parsedRows parsed
  let holder := holderNameTokens parsed.accountHolderName
  { matched := rows.filterMap fun row =>
      (standingClaim db holder rows row).map fun claim =>
        bankMatchedEntry db holder rows row claim.2
    missing :=
      ((bankLines parsed).filter fun line => (readRow line).isNone).map unreadEntry ++
        (rows.filter fun row => (standingClaim db holder rows row).isNone).map
          (bankMissedEntry db holder rows) }

end

end FinancialDashboard.Statements
