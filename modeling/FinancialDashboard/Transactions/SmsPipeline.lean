import FinancialDashboard.Transactions.Resolution
import FinancialDashboard.Transactions.Reingest

/-!
# From a stored SMS to a transaction

`process_sms_row` of `services/sms_pipeline.py` and the explicit resolution of
`services/sms_duplicate_resolution.py`, over the table and the stored messages.
The parser is a package of its own and stands as a function of what is stored of a
message.  What an outcome carries for notifications and payment hooks is left
out, and so are the account and card links.

* `processSms`: parse, the gates before the merge, the merge, the link.
* `resolveMerge`, `resolveCreateNew`: the two answers to a deferred message.
* `smsSystem`: messages arriving, reparsed and resolved, one request at a time.
-/

namespace FinancialDashboard.Transactions

open PyTime PyText Transition

/-! ### What the parser gives -/

/-- `ParsedSms.ledger_role`; the roles the pipeline asks for by name, and the rest. -/
inductive LedgerRole
  | provisional | restatement | completion | other
  deriving DecidableEq, Repr

/-- The `transaction` of a `ParsedSms`. -/
structure ParsedTransaction where
  direction : String
  amount : Rat
  currency : Option String
  transactionDate : Option Int
  transactionTime : Option TimeOfDay
  counterparty : Option String
  cardMask : Option String
  accountMask : Option String
  referenceNumber : Option String
  channel : Option String
  balance : Option Rat
  rawDescription : Option String
  deriving DecidableEq

structure ParsedSms where
  bank : String
  emailType : String
  ledgerRole : LedgerRole
  /-- `event_time_source == "message_arrival"`. -/
  timeOfArrival : Bool
  identifiesBy : IdentifiesBy
  transaction : Option ParsedTransaction

inductive SmsParse
  /-- `UnsupportedSmsTypeError` -/
  | unsupported (message : String)
  /-- `ParseError` -/
  | failed (message : String)
  | parsed (sms : ParsedSms)

/-! ### The stored message -/

structure SmsPayload where
  bank : String
  sender : String
  body : String
  /-- UTC. -/
  receivedAt : Int
  deriving DecidableEq

inductive SmsStatus
  | pending | parsed | enriched | error | skipped
  deriving DecidableEq, Repr

structure SmsRow extends SmsPayload where
  id : Nat
  status : SmsStatus
  transactionId : Option Nat
  parseError : Option String
  deriving DecidableEq

structure ProcessSmsOutcome where
  status : SmsStatus
  transactionId : Option Nat
  deriving DecidableEq

/-- A UTC instant in `Asia/Kolkata`. -/
def ist (instant : Int) : Int := instant + minutes 330

/-- `.time().replace(microsecond=0)`. -/
def wholeSecond (point : Int) : TimeOfDay where
  micros := (point % days 1 / seconds 1 * seconds 1).toNat
  lt := by
    unfold days hours minutes seconds
    omega

/-- `parsed_sms_to_txn_data`: the date and the time fall back to those of the receipt. -/
def parsedSmsToTxnData (parsed : ParsedSms) (receivedAt : Int) : Option TxnData :=
  parsed.transaction.map fun txn =>
    { bank := parsed.bank
      emailType := parsed.emailType
      direction := txn.direction
      amount := txn.amount
      currency := txn.currency
      transactionDate := txn.transactionDate.getD (dateOf (ist receivedAt))
      transactionTime := txn.transactionTime.getD (wholeSecond (ist receivedAt))
      counterparty := txn.counterparty
      cardMask := txn.cardMask
      accountMask := txn.accountMask
      referenceNumber := txn.referenceNumber
      channel := txn.channel
      balance := txn.balance
      rawDescription := txn.rawDescription
      transactionTimeIsReceivedTime := parsed.timeOfArrival
      identifiesBy := parsed.identifiesBy }

def declinedDirection : String := "declined"

def notifyOnlyRoles : List LedgerRole := [.provisional, .restatement]

def dupDeferPrefix : String := "[dup-defer]"

def dupDeferNote : String :=
  dupDeferPrefix ++ " possible duplicate (no balance to confirm) — " ++
    "click Parse if this is a real separate transaction"

variable [UnicodeTables]

/-! ### A completion leg -/

def completionCoarseCap : Nat := 25

omit [UnicodeTables] in
/-- The query for the row a completion leg completes. -/
def completionQuery (txn : TxnData) (channel : String) (c : Transaction) : Bool :=
  c.bank = txn.bank && c.direction = txn.direction && c.channel = some channel &&
    c.amount = txn.amount && coalesceCurrency c.currency = currencyOrInr txn.currency &&
    c.transactionDate = txn.transactionDate && c.accountMask.isSome

/-- `_find_completion_primary`: the one eligible row, or how many there were. -/
def findCompletionPrimary (rows : List Transaction) (txn : TxnData) : Except Nat Transaction :=
  let reference := strippedReference txn.referenceNumber
  let channel := txn.channel.getD ""
  if reference = "" || channel = "" then .error 0
  else
    let coarse := (rows.filter (completionQuery txn channel)).take (completionCoarseCap + 1)
    if completionCoarseCap < coarse.length then .error coarse.length
    else
      match coarse.filter fun c => strippedReference c.referenceNumber = "" ||
          shortenedReferenceMatch c.referenceNumber (some reference) with
      | [c] => .ok c
      | candidates => .error candidates.length

omit [UnicodeTables] in
/-- What a completion leg writes on its row. -/
def completedRow (primary : Transaction) (txn : TxnData) (reference : String) : Transaction :=
  { primary with
    referenceNumber := some reference
    counterparty :=
      if primary.counterparty = none ∧ txn.counterparty.getD "" ≠ "" then txn.counterparty
      else primary.counterparty }

def completeReference (t : TxnTable) (sms : SmsRow) (txn : TxnData) :
    Except MergeError (TxnTable × SmsRow × ProcessSmsOutcome) :=
  let reference := strippedReference txn.referenceNumber
  if reference = "" || txn.channel.getD "" = "" then
    .ok (t, { sms with
      status := .skipped
      parseError := some "completion leg: no reference or channel to complete" }, ⟨.skipped, none⟩)
  else
    match (sms.transactionId.bind fun id => t.rows.find? (·.id = id)).filter
        (strippedReference ·.referenceNumber = reference) with
    | some existing =>
      -- a reparse must not act twice
      .ok (t, { sms with status := .parsed, parseError := none }, ⟨.parsed, some existing.id⟩)
    | none =>
      match findCompletionPrimary t.rows txn with
      | .error count =>
        .ok (t, { sms with
          status := .skipped
          transactionId := none
          parseError := some (s!"completion leg: no unique primary row to complete (found {count})"
            ++ "; left unpaired") }, ⟨.skipped, none⟩)
      | .ok primary => do
        let t' ← t.updateRow (completedRow primary txn reference)
        return (t', { sms with
          status := .parsed
          transactionId := some primary.id
          parseError := none }, ⟨.parsed, some primary.id⟩)

/-! ### The pipeline -/

/-- The merge and what it leaves on the message. -/
def mergeSms (t : TxnTable) (sms : SmsRow) (txn : TxnData) (forceNew : Bool) :
    Except MergeError (TxnTable × SmsRow × ProcessSmsOutcome) := do
  let (t', result) ← mergeTransaction t .sms txn (some sms.id) none forceNew
  return match result with
    | .deferred _ _ => (t', { sms with
        status := .skipped
        transactionId := none
        parseError := some dupDeferNote }, ⟨.skipped, none⟩)
    | .created row =>
      (t', { sms with transactionId := some row.id, status := .parsed }, ⟨.parsed, some row.id⟩)
    | .enriched row =>
      (t', { sms with transactionId := some row.id, status := .enriched },
        ⟨.enriched, some row.id⟩)

omit [UnicodeTables] in
/-- The notify-only gate before the merge. -/
def notifyOnly (role : LedgerRole) (direction : String) (settleProvisional : Bool) : Bool :=
  !(settleProvisional && role = .provisional) && role ∈ notifyOnlyRoles && direction = "credit"

variable (parseSms : SmsPayload → SmsParse)

def processSms (t : TxnTable) (sms : SmsRow) (forceNew settleProvisional : Bool) :
    Except MergeError (TxnTable × SmsRow × ProcessSmsOutcome) :=
  match parseSms sms.toSmsPayload with
  | .unsupported message =>
    .ok (t, { sms with status := .skipped, parseError := some message }, ⟨.skipped, none⟩)
  | .failed message =>
    let status := if contains "_stub" (lower message) then SmsStatus.skipped else .error
    .ok (t, { sms with status, parseError := some message }, ⟨status, none⟩)
  | .parsed parsed =>
    match parsedSmsToTxnData parsed sms.receivedAt with
    | none =>
      .ok (t, { sms with status := .skipped, parseError := some "non-transaction SMS shape" },
        ⟨.skipped, none⟩)
    | some txn =>
      let sms := { sms with parseError := none }
      if notifyOnly parsed.ledgerRole txn.direction settleProvisional then
        -- the link a message has is kept
        .ok (t, { sms with status := .parsed }, ⟨.parsed, sms.transactionId⟩)
      else if txn.direction = declinedDirection then
        .ok (t, { sms with status := .parsed }, ⟨.parsed, none⟩)
      else if parsed.ledgerRole = .completion then completeReference t sms txn
      else mergeSms t sms txn forceNew

/-! ### The explicit resolution -/

inductive ResolutionError
  | refused (message : String)
  | failed (e : MergeError)
  deriving DecidableEq

omit [UnicodeTables] in
/-- `_linked_transaction_id`. -/
def linkedTransactionId (t : TxnTable) (sms : SmsRow) : Option Nat :=
  sms.transactionId <|> (existingForSource t (some sms.id) none).map (·.id)

omit [UnicodeTables] in
/-- The message waits for a decision. -/
def isDuplicateDeferred (sms : SmsRow) : Bool :=
  sms.status = .skipped && sms.parseError.any (startsWith · dupDeferPrefix)

omit [UnicodeTables] in
/-- `_parse_stored_sms`. -/
def parseStoredSms (sms : SmsRow) : Except ResolutionError (ParsedSms × TxnData) :=
  match parseSms sms.toSmsPayload with
  | .parsed parsed =>
    match parsedSmsToTxnData parsed sms.receivedAt with
    | some txn => .ok (parsed, txn)
    | none => .error (.refused "Stored SMS no longer parses as a transaction")
  | _ => .error (.refused "Stored SMS no longer parses as a transaction")

/-- The rows the matcher would offer now. -/
def currentCandidateIds : MatchDecision → List Nat
  | .insert => []
  | .matched row _ => [row.id]
  | .deferred _ _ ids => ids

/-- The checks `_resolve_merge` makes of the chosen row. -/
def mergeTarget (t : TxnTable) (txn : TxnData) (transactionId : Option Nat) :
    Except ResolutionError Transaction :=
  match transactionId with
  | none => .error (.refused "Merge target is required")
  | some id =>
    match t.rows.find? (·.id = id) with
    | none => .error (.refused "Merge target no longer exists")
    | some target =>
      if id ∈ currentCandidateIds (findMatch t.rows txn .sms none) &&
          qualifiesAsExplicitMatch t.rows target txn then .ok target
      else .error (.refused "Selected transaction is no longer a compatible duplicate")

/-- `_resolve_merge` hands the enrichment no id of the message. -/
def resolveMerge (t : TxnTable) (sms : SmsRow) (txn : TxnData) (transactionId : Option Nat) :
    Except ResolutionError (TxnTable × SmsRow) := do
  let target ← mergeTarget t txn transactionId
  let (t', _) ← (applyTransactionEnrichment t target txn .sms none .standard).mapError .failed
  return (t', { sms with
    transactionId := some target.id
    status := .enriched
    parseError := none })

/-- A reference that points elsewhere forbids a second row. -/
def refusesCreateNew : DeferralReason → Bool
  | .referenceAmountMismatch | .referenceBalanceMismatch | .multipleReferenceCandidates => true
  | _ => false

def resolveCreateNew (t : TxnTable) (sms : SmsRow) (parsed : ParsedSms) (txn : TxnData) :
    Except ResolutionError (TxnTable × SmsRow) :=
  match findMatch t.rows txn .sms none with
  | .deferred _ reason _ =>
    if refusesCreateNew reason then
      .error (.refused "A reference mismatch cannot create a second transaction")
    else do
      let (t', sms', outcome) ←
        (processSms parseSms t sms true (parsed.ledgerRole = .provisional)).mapError .failed
      if outcome.transactionId = none then .error (.refused "Could not create a transaction")
      else .ok (t', sms')
  | _ => .error (.refused "Duplicate decision is no longer deferred")

inductive SmsDuplicateAction
  | merge (transactionId : Option Nat)
  | createNew
  deriving DecidableEq

/-- `resolve_sms_duplicate`; a message that has a row is left alone. -/
def resolveSmsDuplicate (t : TxnTable) (sms : SmsRow) (action : SmsDuplicateAction) :
    Except ResolutionError (TxnTable × SmsRow) :=
  if (linkedTransactionId t sms).isSome then .ok (t, sms)
  else if !isDuplicateDeferred sms then
    .error (.refused "SMS is not a deferred possible duplicate")
  else do
    let (parsed, txn) ← parseStoredSms parseSms sms
    match action with
    | .merge transactionId => resolveMerge t sms txn transactionId
    | .createNew => resolveCreateNew parseSms t sms parsed txn

/-! ### One request at a time -/

structure SmsStore where
  table : TxnTable
  sms : List SmsRow

namespace SmsStore

omit [UnicodeTables]

def empty : SmsStore := ⟨.empty, []⟩

/-- The commit of a request about one message. -/
def save (w : SmsStore) (t : TxnTable) (sms : SmsRow) : SmsStore :=
  ⟨t, w.sms.map fun s => if s.id = sms.id then sms else s⟩

def find (w : SmsStore) (id : Nat) : Option SmsRow := w.sms.find? (·.id = id)

/-- A payload as it is first stored. -/
def arrive (w : SmsStore) (payload : SmsPayload) : SmsRow :=
  { payload with id := w.sms.length + 1, status := .pending, transactionId := none, parseError := none }

/-- `uq_sms_sender_received_body`. -/
def has (w : SmsStore) (payload : SmsPayload) : Bool :=
  w.sms.any fun s => s.sender = payload.sender && s.receivedAt = payload.receivedAt &&
    s.body = payload.body

end SmsStore

inductive SmsRequest
  /-- `POST /api/sms` -/
  | ingest (payload : SmsPayload)
  /-- Reparse; with `forceNew` the Parse button. -/
  | reparse (id : Nat) (forceNew : Bool)
  | resolve (id : Nat) (action : SmsDuplicateAction)

/-- A request that raises is rolled back and is not a step. -/
def smsStep (w : SmsStore) : SmsRequest → Option SmsStore
  | .ingest payload =>
    if w.has payload then some w
    else
      match processSms parseSms w.table (w.arrive payload) false false with
      | .ok (t, sms, _) => some ⟨t, w.sms ++ [sms]⟩
      | .error _ => none
  | .reparse id forceNew =>
    (w.find id).bind fun sms =>
      match processSms parseSms w.table sms forceNew false with
      | .ok (t, sms', _) => some (w.save t sms')
      | .error _ => none
  | .resolve id action =>
    (w.find id).bind fun sms =>
      match resolveSmsDuplicate parseSms w.table sms action with
      | .ok (t, sms') => some (w.save t sms')
      | .error _ => none

def smsSystem : System SmsStore SmsRequest := ⟨smsStep parseSms⟩

end FinancialDashboard.Transactions
