import FinancialDashboard.Lib.FirstCome
import FinancialDashboard.Statements.Contention
import FinancialDashboard.Statements.Narration

/-!
# Reconciling a card statement

`reconcile_statement` of `services/statements/cc.py`.  The rows of the statement take
transactions of the account first come, first served; then the winners whose
transaction another row could also have taken are looked at again: what their
narrations tell apart is reassigned, the others are demoted to missing.

The pool of `reconcile_statement` is kept as the transactions not yet taken, and what
it files under `stmt_idx` goes with the row itself, a `Line`.  An entry's copies of its
row's fields are the `line` it has.  Left out are the `OverflowError` of a row dated
31/12/9999, which has no next day, and the `TypeError` of an amount that is a signalling
`NaN`, which cannot be hashed.
-/

namespace FinancialDashboard.Statements

open PyText Transactions FirstCome

variable [UnicodeTables] [NarrationTables] [Readers]

/-! ### The statement -/

/-- A row as the card parser reads it. -/
structure CcTransaction where
  date : String
  amount : String
  narration : String
  cardNumber : Option String
  person : Option String
  creditReasons : Option String
  deriving DecidableEq

structure ParsedCcStatement where
  bank : String
  transactions : List CcTransaction
  paymentsRefunds : List CcTransaction

/-- The list of the parsed statement a row is from. -/
inductive StmtList
  | transactions | paymentsRefunds
  deriving DecidableEq, Repr

structure StmtTxn where
  stmtList : StmtList
  direction : Direction
  txn : CcTransaction
  deriving DecidableEq

/-- A row and its `stmt_idx`. -/
structure Line extends StmtTxn where
  stmtIdx : Nat
  deriving DecidableEq

/-! ### Cards -/

/-- `account_card_masks` is every card the account answers to, normalized. -/
def ccCardCompatible (dbCardMask : Option String) (accountCardMasks : List String) : Bool :=
  normalizeMask dbCardMask = "" || accountCardMasks.isEmpty ||
    accountCardMasks.any (maskMatches (normalizeMask dbCardMask))

/-- Every pair of the list, the earlier one first. -/
def allPairs (p : String → String → Bool) : List String → Bool
  | [] => true
  | a :: rest => rest.all (p a) && allPairs p rest

def identifiesOneCard (mask : String) (accountCardMasks : List String) : Bool :=
  let matched := accountCardMasks.filter (maskMatches mask)
  matched ≠ [] && allPairs maskMatches matched

def confirmedSameCard (stmtCard dbCardMask : Option String) (accountCardMasks : List String) :
    Bool :=
  maskMatches (normalizeMask stmtCard) (normalizeMask dbCardMask) &&
    identifiesOneCard (normalizeMask stmtCard) accountCardMasks &&
    identifiesOneCard (normalizeMask dbCardMask) accountCardMasks

def confirmedDifferentCard (stmtCard dbCardMask : Option String) : Bool :=
  normalizeMask stmtCard ≠ "" && normalizeMask dbCardMask ≠ "" &&
    !maskMatches (normalizeMask stmtCard) (normalizeMask dbCardMask)

/-- The narration is all a refresh writes. -/
def refreshIdentity (txn : CcTransaction) : String := strip txn.narration

/-! ### Ledger twins -/

def internalTransferCreditReasons : List String := ["emi_installment_transfer"]

/-- The card, date, amount and upper-cased narration. -/
abbrev TwinKey := Option String × String × String × String

def ledgerTwinKey (txn : CcTransaction) : TwinKey :=
  (txn.cardNumber, txn.date, txn.amount, upper txn.narration)

/-- The tag alone; it takes a twin to drop the row. -/
def isInternalTransferCredit (txn : CcTransaction) : Bool :=
  match txn.creditReasons with
  | some reasons => reasons ∈ internalTransferCreditReasons
  | none => false

/-- The credits left when the tagged ones have claimed their debit twins; `twins` are
the keys not yet claimed, each as often as it counts. -/
def dropClaimedTwins : List TwinKey → List CcTransaction → List CcTransaction
  | _, [] => []
  | twins, txn :: rest =>
    if isInternalTransferCredit txn && ledgerTwinKey txn ∈ twins then
      dropClaimedTwins (twins.erase (ledgerTwinKey txn)) rest
    else txn :: dropClaimedTwins twins rest

def stmtTxns (parsed : ParsedCcStatement) : List StmtTxn :=
  parsed.transactions.map (⟨.transactions, .debit, ·⟩) ++
    (dropClaimedTwins (parsed.transactions.map ledgerTwinKey) parsed.paymentsRefunds).map
      (⟨.paymentsRefunds, .credit, ·⟩)

def stmtLines (parsed : ParsedCcStatement) : List Line :=
  (stmtTxns parsed).zipIdx.map fun (row, stmtIdx) => ⟨row, stmtIdx⟩

/-! ### Candidates -/

def identity (txn : CcTransaction) : Option (Amount × Int) := textIdentity txn.amount txn.date

/-- The transactions in the window, whoever took them and whatever their card. -/
def reachable (db : AccountRows) (amount : Amount) (direction : Direction) (txnDate : Int) :
    List Nat :=
  dateOffsets.flatMap fun offset =>
    (bucket db.rows (txnDate + offset) amount direction).map (·.id)

/-- `candidate_sets.get(stmt_idx, set())`. -/
def candidateSet (db : AccountRows) (row : StmtTxn) : List Nat :=
  match identity row.txn with
  | some (amount, txnDate) => reachable db amount row.direction txnDate
  | none => []

/-! ### Entries -/

structure MatchedEntry where
  line : Line
  dbTxnId : Nat
  dbCounterparty : Option String
  dbReference : Option String
  dbDate : Option Int
  evidence : CandidateEvidence

/-- An entry whose row cannot be read has no `ambiguous` key, which `get` reads as false. -/
structure MissingEntry where
  line : Line
  ambiguous : Bool
  evidence : CandidateEvidence

structure Reconciliation where
  matched : List MatchedEntry
  missing : List MissingEntry

def ccReconciliationGates : List String :=
  ["account_scope", "direction_amount", "date_window_plus_minus_one_day",
    "registered_card_compatibility", "unique_unconsumed_candidate", "contention"]

/-- Exact or off by a day, as the date of the transaction tells. -/
def matchReason (row : Transaction) (txn : CcTransaction) : DecisionReason :=
  if row.transactionDate = parseDate txn.date then .matchedExactDate else .matchedDateOffset

def matchedEntry (db : AccountRows) (line : Line) (row : Transaction) : MatchedEntry where
  line := line
  dbTxnId := row.id
  dbCounterparty := row.counterparty
  dbReference := row.referenceNumber
  dbDate := row.transactionDate
  evidence :=
    candidateEvidence (candidateSet db line.toStmtTxn) (matchReason row line.txn)
      ccReconciliationGates

/-- A row that was refused: held back unless nothing could hold it. -/
def missedEntry (db : AccountRows) (line : Line) : MissingEntry :=
  let candidates := candidateSet db line.toStmtTxn
  if (identity line.txn).isSome then
    { line := line
      ambiguous := contendedMiss candidates
      evidence :=
        candidateEvidence candidates
          (if candidates ≠ [] then .candidateRefusedOrConsumed else .noCandidate)
          ccReconciliationGates }
  else
    { line := line
      ambiguous := false
      evidence := candidateEvidence [] .unparseableStatementIdentity parseGates }

/-- The entries `import_missing_cc_txns` inserts. -/
def MissingEntry.importable (entry : MissingEntry) : Bool :=
  !entry.ambiguous && (identity entry.line.txn).isSome

def demotedEntry (db : AccountRows) (entry : MatchedEntry) : MissingEntry where
  line := entry.line
  ambiguous := true
  evidence :=
    candidateEvidence (candidateSet db entry.line.toStmtTxn) .contestedMatchDemoted
      ccReconciliationGates

/-! ### The greedy pass -/

/-- The first transaction left under a key that the account's cards allow. -/
def pickFrom (db : AccountRows) (masks : List String) (taken : List Transaction) (date : Int)
    (amount : Amount) (direction : Direction) : Option Transaction :=
  (bucket (db.rows.filter (· ∉ taken)) date amount direction).find? fun cand =>
    ccCardCompatible cand.cardMask masks

/-- Exact date, then a day before and a day after. -/
def pick (db : AccountRows) (masks : List String) (taken : List Transaction) (line : Line) :
    Option Transaction :=
  match identity line.txn with
  | some (amount, txnDate) =>
    dateOffsets.findSome? fun offset =>
      pickFrom db masks taken (txnDate + offset) amount line.direction
  | none => none

/-- What each row won before anything is contested. -/
def greedy (db : AccountRows) (masks : List String) (lines : List Line) :
    Outcome Line Transaction :=
  serve (pick db masks) [] lines

def greedyMatched (db : AccountRows) (masks : List String) (lines : List Line) :
    List MatchedEntry :=
  (greedy db masks lines).served.map fun (line, row) => matchedEntry db line row

/-! ### Contested winners -/

/-- The card of a row, as stored. -/
def cardMaskOf (db : AccountRows) (id : Nat) : Option String := (db.byId id).bind (·.cardMask)

/-- The other rows that reach the transaction of an entry. -/
def reachingRivals (db : AccountRows) (lines : List Line) (entry : MatchedEntry) : List Line :=
  lines.filter fun other =>
    other.stmtIdx ≠ entry.line.stmtIdx && entry.dbTxnId ∈ candidateSet db other.toStmtTxn

/-- A rival on another card is no rival of an entry whose own card is confirmed. -/
def rivals (db : AccountRows) (masks : List String) (lines : List Line) (entry : MatchedEntry) :
    List Line :=
  let wonMask := cardMaskOf db entry.dbTxnId
  if confirmedSameCard entry.line.txn.cardNumber wonMask masks then
    (reachingRivals db lines entry).filter fun other =>
      !confirmedDifferentCard other.txn.cardNumber wonMask
  else reachingRivals db lines entry

/-- Some rival would write something else. -/
def isContested (db : AccountRows) (masks : List String) (lines : List Line)
    (entry : MatchedEntry) : Bool :=
  (rivals db masks lines entry).any fun other =>
    refreshIdentity other.txn ≠ refreshIdentity entry.line.txn

/-! ### Reassigning by counterparty -/

def counterpartySinglesOut (rowNarration : Option String) (dbTxn : Transaction) : Bool :=
  let narration := normalizeNarration rowNarration
  let counterparty := normalizeNarration dbTxn.counterparty
  let dbNarration := normalizeNarration dbTxn.rawDescription
  narration ≠ "" &&
    ((counterparty ≠ "" && containsWholeToken narration counterparty) ||
      (dbNarration ≠ "" && dbNarration = narration))

def rowNamesCandidate (db : AccountRows) (row : StmtTxn) (cid : Nat) : Bool :=
  match db.byId cid with
  | some dbTxn =>
    !confirmedDifferentCard row.txn.cardNumber dbTxn.cardMask &&
      counterpartySinglesOut (some row.txn.narration) dbTxn
  | none => false

/-- Two entries whose windows overlap are of one tie. -/
def sameTie (db : AccountRows) (a b : MatchedEntry) : Bool :=
  (candidateSet db a.line.toStmtTxn).any (· ∈ candidateSet db b.line.toStmtTxn)

/-- `parent[find(a)] = find(b)`: what had the root of `a` now has the root of `b`.
`roots` is `find` of every index. -/
def union (roots : List Nat) (a b : Nat) : List Nat :=
  match roots[a]?, roots[b]? with
  | some rootA, some rootB => roots.map fun root => if root = rootA then rootB else root
  | _, _ => roots

/-- The pairs `i < j`, in the order of the two loops. -/
def indexPairs (n : Nat) : List (Nat × Nat) :=
  (List.range n).flatMap fun i => ((List.range n).filter (i < ·)).map fun j => (i, j)

def tieRoots (db : AccountRows) (contested : List MatchedEntry) : List Nat :=
  (indexPairs contested.length).foldl
    (fun roots (i, j) =>
      match contested[i]?, contested[j]? with
      | some a, some b => if sameTie db a b then union roots i j else roots
      | _, _ => roots)
    (List.range contested.length)

/-- The contested entries by their ties. -/
def tieGroups (db : AccountRows) (contested : List MatchedEntry) : List (List MatchedEntry) :=
  let roots := tieRoots db contested
  roots.dedup.map fun root => ((contested.zip roots).filter (·.2 = root)).map (·.1)

/-- The one candidate an entry's row names, when it is one the group won. -/
def assigned (db : AccountRows) (groupCandidateIds : List Nat) (entry : MatchedEntry) :
    Option Nat :=
  match (candidateSet db entry.line.toStmtTxn).filter
      (rowNamesCandidate db entry.line.toStmtTxn) with
  | [cid] => if cid ∈ groupCandidateIds then some cid else none
  | _ => none

/-- The rows that reach a candidate of the group. -/
def contestingRows (db : AccountRows) (lines : List Line) (groupCandidateIds : List Nat) :
    List Line :=
  lines.filter fun other => groupCandidateIds.any (· ∈ candidateSet db other.toStmtTxn)

/-- The rows among them that reach and name one candidate. -/
def namingRows (db : AccountRows) (lines : List Line) (groupCandidateIds : List Nat) (cid : Nat) :
    List Line :=
  (contestingRows db lines groupCandidateIds).filter fun other =>
    cid ∈ candidateSet db other.toStmtTxn && rowNamesCandidate db other.toStmtTxn cid

/-- The group tells its candidates apart, on the side of the rows and on theirs. -/
def groupResolves (db : AccountRows) (lines : List Line) (entries : List MatchedEntry) : Bool :=
  let groupCandidateIds := entries.map (·.dbTxnId)
  2 ≤ entries.length &&
    entries.all (fun entry => (assigned db groupCandidateIds entry).isSome) &&
    groupCandidateIds.all (fun cid =>
      entries.any fun entry => assigned db groupCandidateIds entry = some cid) &&
    groupCandidateIds.all fun cid => (namingRows db lines groupCandidateIds cid).length = 1

/-- An entry with the transaction it names. -/
def reassign (db : AccountRows) (groupCandidateIds : List Nat) (entry : MatchedEntry) :
    Option MatchedEntry := do
  let cid ← assigned db groupCandidateIds entry
  let dbTxn ← db.byId cid
  return { entry with
    dbTxnId := dbTxn.id
    dbCounterparty := dbTxn.counterparty
    dbReference := dbTxn.referenceNumber
    dbDate := dbTxn.transactionDate
    evidence := { entry.evidence with decisionReason := matchReason dbTxn entry.line.txn } }

/-- The entries that resolve, as they are rewritten. -/
def resolveContestedByCounterparty (db : AccountRows) (lines : List Line)
    (contested : List MatchedEntry) : List MatchedEntry :=
  (tieGroups db contested).flatMap fun entries =>
    if groupResolves db lines entries then
      entries.filterMap (reassign db (entries.map (·.dbTxnId)))
    else []

/-! ### The whole pass -/

def contestedEntries (db : AccountRows) (masks : List String) (lines : List Line) :
    List MatchedEntry :=
  (greedyMatched db masks lines).filter (isContested db masks lines)

/-- A contested entry as it was rewritten, if it resolved. -/
def resolvedEntry (db : AccountRows) (masks : List String) (lines : List Line)
    (entry : MatchedEntry) : Option MatchedEntry :=
  (resolveContestedByCounterparty db lines (contestedEntries db masks lines)).find?
    (·.line.stmtIdx = entry.line.stmtIdx)

/-- What becomes of a match of the greedy pass. -/
def keptEntry (db : AccountRows) (masks : List String) (lines : List Line)
    (entry : MatchedEntry) : Option MatchedEntry :=
  if isContested db masks lines entry then resolvedEntry db masks lines entry else some entry

def demotedEntries (db : AccountRows) (masks : List String) (lines : List Line) :
    List MatchedEntry :=
  (contestedEntries db masks lines).filter fun entry => (resolvedEntry db masks lines entry).isNone

def reconcileStatement (db : AccountRows) (masks : List String) (parsed : ParsedCcStatement) :
    Reconciliation :=
  let lines := stmtLines parsed
  { matched := (greedyMatched db masks lines).filterMap (keptEntry db masks lines)
    missing :=
      ((greedy db masks lines).refused.map (missedEntry db) ++
          (demotedEntries db masks lines).map (demotedEntry db)).insertionSort
        fun a b => a.line.stmtIdx ≤ b.line.stmtIdx }

/-! ### Enrichment -/

def genericCounterparties : List String :=
  ["payment received", "payment successful", "payment done"]

/-- `enrich_matched_transactions` on the transaction of one entry. -/
def enrichCard (txn : CcTransaction) (dbTxn : Transaction) : Transaction :=
  let narration := strip txn.narration
  let existing := strip (dbTxn.counterparty.getD "")
  if narration = "" then dbTxn
  else if existing ≠ "" ∧ lower existing ∉ genericCounterparties then dbTxn
  else { dbTxn with counterparty := some narration }

end FinancialDashboard.Statements
