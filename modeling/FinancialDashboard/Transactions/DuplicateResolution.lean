import FinancialDashboard.Categorization.Engine
import FinancialDashboard.Lib.Posting
import FinancialDashboard.Lib.PyJson
import FinancialDashboard.Lib.UnitOfWork
import FinancialDashboard.Transactions.Linker
import FinancialDashboard.Transactions.SmsPipeline

/-!
# Resolving a deferred duplicate

`resolve_email_duplicate` of `services/duplicate_resolution.py`: a deferred email is
previewed against a row that a person has chosen, and applied to it with the token of the
preview.

A session works on a database of its own until it commits, and an exception gives up its
writes.  The token is the digest of all that the evaluation has read.

* `evaluate` is what the preview and the apply compute alike.
* `after_of_payload`: the payload of the token says what the row is to become.
* `resolve_applied`: what is applied is what was previewed, unless the digests of two
  different payloads are one.
* `resolve_refused`: a refusal leaves the database as it was.
-/

namespace FinancialDashboard.Transactions

open PyTime PyText PyJson
open Categorization (CategorizedTransaction CategoryColumns Env applyReferenceSelfTransferRule
  setCategorization transactions)

/-! ### The database -/

/-- A row of `emails`. -/
structure DeferredEmail where
  id : Nat
  messageId : String
  sourceId : Option Nat
  remoteId : Option String
  ruleId : Option Nat
  status : Option String
  error : Option String

/-- `emails`, with `message_id` and `uq_email_source_remote`. -/
def emails : Schema DeferredEmail where
  id row := row.id
  Clashes a b := a.messageId = b.messageId ∨
    (a.sourceId = b.sourceId ∧ b.sourceId ≠ none ∧ a.remoteId = b.remoteId ∧ b.remoteId ≠ none)
  decidable _ _ := inferInstanceAs (Decidable (_ ∨ _))

/-- The email is parsed. -/
def setParsed : Table.Change emails where
  set row := { row with status := some "parsed", error := none }
  id_set _ := rfl
  left _ _ := Iff.rfl
  right _ _ := Iff.rfl

/-- A row of `fetch_rules`. -/
structure EmailRule where
  id : Nat
  bank : String
  emailKind : Option String

structure ResolutionDb where
  emails : Table emails
  rules : List EmailRule
  transactions : Table transactions
  links : LinkContext

/-- The claim of the email's slot. -/
def setEmailId (emailId : Nat) : Table.Change transactions where
  set row := { row with emailId := some emailId }
  id_set _ := rfl
  left _ _ := Iff.rfl
  right _ _ := Iff.rfl

/-- The account and the card that the linker finds. -/
def setLink (link : Nat × Option Nat) : Table.Change transactions where
  set row := { row with accountId := some link.1, cardId := link.2 <|> row.cardId }
  id_set _ := rfl
  left _ _ := Iff.rfl
  right _ _ := Iff.rfl

/-! ### What is shown -/

/-- `TransactionEnrichmentState` -/
structure EnrichmentState where
  transactionDate : Option Int
  transactionTime : Option TimeOfDay
  counterparty : Option String
  cardMask : Option String
  accountMask : Option String
  referenceNumber : Option String
  channel : Option String
  balance : Option Rat
  rawDescription : Option String
  emailId : Option Nat
  source : Option String
  deriving DecidableEq

/-- `_state` -/
def stateOf (row : Transaction) : EnrichmentState where
  transactionDate := row.transactionDate
  transactionTime := row.transactionTime
  counterparty := row.counterparty
  cardMask := row.cardMask
  accountMask := row.accountMask
  referenceNumber := row.referenceNumber
  channel := row.channel
  balance := row.balance
  rawDescription := row.rawDescription
  emailId := row.emailId
  source := row.source

/-- `_projected_state` -/
def projectedState (row : Transaction) (diff : EnrichmentDiff) (emailId : Nat) :
    EnrichmentState where
  transactionDate := diff.transactionDate.apply row.transactionDate
  transactionTime := diff.transactionTime.apply row.transactionTime
  counterparty := diff.counterparty.apply row.counterparty
  cardMask := diff.cardMask.apply row.cardMask
  accountMask := diff.accountMask.apply row.accountMask
  referenceNumber := diff.referenceNumber.apply row.referenceNumber
  channel := diff.channel.apply row.channel
  balance := diff.balance.apply row.balance
  rawDescription := diff.rawDescription.apply row.rawDescription
  emailId := if row.emailId = none then some emailId else row.emailId
  source :=
    if row.source ≠ some Channel.email.value ∧ row.source ≠ none then some "sms+email"
    else row.source

/-- A value of a field that an enrichment changes. -/
inductive EnrichmentValue
  | text (s : String)
  | date (ordinal : Int)
  | time (t : TimeOfDay)
  | decimal (x : Rat)
  deriving DecidableEq

structure EnrichmentFieldChange where
  field : String
  before : Option EnrichmentValue
  after : EnrichmentValue
  deriving DecidableEq

namespace FieldChange

variable {α : Type} (field : String) (value : α → EnrichmentValue)

/-- The entry of `filled`. -/
def filledEntry : FieldChange α → Option EnrichmentFieldChange
  | fill new => some ⟨field, none, value new⟩
  | _ => none

/-- The entry of `overwritten`. -/
def overwrittenEntry : FieldChange α → Option EnrichmentFieldChange
  | overwrite old new => some ⟨field, some (value old), value new⟩
  | _ => none

end FieldChange

namespace EnrichmentDiff

/-- The fields that change in one way, in the order of `_ENRICHMENT_FIELDS`. -/
def entries (diff : EnrichmentDiff)
    (entry : ∀ {α : Type}, String → (α → EnrichmentValue) → FieldChange α →
      Option EnrichmentFieldChange) : List EnrichmentFieldChange :=
  [entry "transaction_date" .date diff.transactionDate,
    entry "transaction_time" .time diff.transactionTime,
    entry "counterparty" .text diff.counterparty, entry "card_mask" .text diff.cardMask,
    entry "account_mask" .text diff.accountMask,
    entry "reference_number" .text diff.referenceNumber, entry "channel" .text diff.channel,
    entry "balance" .decimal diff.balance,
    entry "raw_description" .text diff.rawDescription].filterMap id

def filled (diff : EnrichmentDiff) : List EnrichmentFieldChange :=
  diff.entries FieldChange.filledEntry

def overwritten (diff : EnrichmentDiff) : List EnrichmentFieldChange :=
  diff.entries FieldChange.overwrittenEntry

/-- `changed_fields` -/
def changedFields (diff : EnrichmentDiff) : List String :=
  (diff.filled ++ diff.overwritten).map (·.field)

end EnrichmentDiff

/-! ### The token -/

section

variable [DecimalText]

def EnrichmentValue.json : EnrichmentValue → Json
  | text s => .str s
  | date ordinal => .str (isoformat ordinal)
  | time t => .str (isoTime t)
  | decimal x => .str (DecimalText.text x)

def idJson (id : Nat) : Json := .int id

/-- The values of `_STATE_FIELDS`. -/
def stateFields (data : TxnData) : List (String × Json) :=
  [("transaction_date", .optional (.str ∘ isoformat) data.transactionDate),
    ("transaction_time", .optional (.str ∘ isoTime) data.transactionTime),
    ("counterparty", .optional .str data.counterparty),
    ("card_mask", .optional .str data.cardMask),
    ("account_mask", .optional .str data.accountMask),
    ("reference_number", .optional .str data.referenceNumber),
    ("channel", .optional .str data.channel),
    ("balance", .optional (.str ∘ DecimalText.text) data.balance),
    ("raw_description", .optional .str data.rawDescription)]

/-- The values of the key of a match. -/
def keyFields (data : TxnData) : List (String × Json) :=
  [("bank", .str data.bank), ("email_type", .str data.emailType),
    ("direction", .str data.direction), ("amount", .str (DecimalText.text data.amount)),
    ("currency", .optional .str data.currency)]

/-- The values of `_TOKEN_TARGET_FIELDS`. -/
def targetFields (row : CategorizedTransaction) : List (String × Json) :=
  [("id", idJson row.id), ("email_id", .optional idJson row.emailId),
    ("source", .optional .str row.source), ("sms_message_id", .optional idJson row.smsMessageId),
    ("account_id", .optional idJson row.accountId), ("card_id", .optional idJson row.cardId)] ++
  stateFields row.toTxnData ++ keyFields row.toTxnData ++
  [("enriched_at", .optional (.str ∘ isoPoint) row.enrichedAt),
    ("category", .optional .str row.category),
    ("category_method", .optional (.str ∘ Categorization.Method.value) row.categoryMethod),
    ("category_confidence", .optional .float row.categoryConfidence),
    ("category_model", .optional .str row.categoryModel),
    ("category_input_hash", .optional .str row.categoryInputHash),
    ("category_vocab_version", .optional .int row.categoryVocabVersion),
    ("categorized_at", .optional (.str ∘ isoPoint) row.categorizedAt),
    ("review_status", .optional .str row.reviewStatus),
    ("review_reason", .optional .str row.reviewReason)]

/-- The value of `identifies_by`. -/
def identifiesByJson : IdentifiesBy → Json
  | .counterparty => .str "counterparty"
  | .cardMask => .str "card_mask"
  | .noField => .str "none"

/-- The values of `txn_data`. -/
def parsedFields (data : TxnData) : List (String × Json) :=
  stateFields data ++ keyFields data ++
  [("transaction_time_is_received_time", .bool data.transactionTimeIsReceivedTime),
    ("identifies_by", identifiesByJson data.identifiesBy)]

/-- The payload of `_preview_token`; `json.dumps` sorts the keys. -/
def tokenPayload (email : DeferredEmail) (rule : EmailRule) (target : CategorizedTransaction)
    (txn : TxnData) (diff : EnrichmentDiff) (rawSha : String) : Json :=
  .dict
    [("version", .int 1), ("raw_sha256", .str rawSha),
      ("email", .dict
        [("id", idJson email.id), ("status", .optional .str email.status),
          ("error", .optional .str email.error), ("rule_id", .optional idJson email.ruleId),
          ("source_id", .optional idJson email.sourceId),
          ("remote_id", .optional .str email.remoteId), ("message_id", .str email.messageId)]),
      ("rule", .dict
        [("id", idJson rule.id), ("bank", .str rule.bank),
          ("email_kind", .optional .str rule.emailKind)]),
      ("target", .dict (targetFields target)), ("parsed", .dict (parsedFields txn)),
      ("diff", .dict
        [("filled", .dict (diff.filled.map fun change => (change.field, change.after.json))),
          ("overwritten", .dict (diff.overwritten.map fun change =>
            (change.field, .list [.optional EnrichmentValue.json change.before,
              change.after.json])))])]

end

/-! ### The evaluation -/

/-- What a session may raise. -/
inductive ResolutionFailure
  /-- `DuplicateResolutionError` -/
  | refused (statusCode : Nat) (message : String)
  | transactionSlotConflict
  | integrityError
  /-- An exception of the parser. -/
  | raised (message : String)
  deriving DecidableEq

/-- What is outside the database: the parser, the hashes, the settings and the clock. -/
structure ResolutionServices where
  /-- `_process_email_full`: the `txn_data`, if there is any. -/
  processEmailFull : String → List UInt8 → Except String (Option TxnData)
  /-- `sha256(raw).hexdigest()` -/
  rawSha256 : List UInt8 → String
  /-- `"v1." + sha256(json.dumps(payload, sort_keys=True, ...)).hexdigest()` -/
  digest : Json → String
  env : Env

/-- `EligibleResolutionRows` -/
structure EligibleResolutionRows where
  email : DeferredEmail
  target : CategorizedTransaction
  rule : EmailRule

/-- `_load_eligible_rows` -/
def loadEligibleRows (db : ResolutionDb) (emailId transactionId : Nat) :
    Except ResolutionFailure EligibleResolutionRows :=
  match db.emails.rows.find? (·.id = emailId), db.transactions.rows.find? (·.id = transactionId) with
  | none, _ => .error (.refused 404 "Email not found")
  | some _, none => .error (.refused 404 "Transaction not found")
  | some email, some target =>
    if email.status ≠ some "skipped" ∨ email.error.getD "" = "" ∨
        startsWith (email.error.getD "") dupDeferPrefix = false then
      .error (.refused 409 "Email is not a deferred possible duplicate")
    else if db.transactions.rows.any (·.emailId = some emailId) then
      .error (.refused 409 "Email already has an attached transaction")
    else if target.emailId ≠ none then
      .error (.refused 409 "Selected transaction already has an email attached")
    else
      match email.ruleId.bind fun id => db.rules.find? (·.id = id) with
      | none => .error (.refused 404 "Email fetch rule not found")
      | some rule =>
        if rule.emailKind ≠ none ∧ rule.emailKind ≠ some "transaction" then
          .error (.refused 422 "Current parser routing does not produce a transaction")
        else .ok ⟨email, target, rule⟩

/-- `ResolutionEvaluation`, with the payload of its token. -/
structure ResolutionEvaluation where
  target : CategorizedTransaction
  txn : TxnData
  diff : EnrichmentDiff
  payload : Json
  token : String
  before : EnrichmentState
  after : EnrichmentState

section

variable [UnicodeTables] [DecimalText] (services : ResolutionServices)

/-- What is evaluated of the rows and the parsed email. -/
def evaluationOf (rows : EligibleResolutionRows) (txn : TxnData) (raw : List UInt8) :
    ResolutionEvaluation :=
  let diff := computeEnrichmentDiff rows.target.toTransaction txn .email
  let payload := tokenPayload rows.email rows.rule rows.target txn diff (services.rawSha256 raw)
  { target := rows.target
    txn := txn
    diff := diff
    payload := payload
    token := services.digest payload
    before := stateOf rows.target.toTransaction
    after := projectedState rows.target.toTransaction diff rows.email.id }

/-- `_load_rows_and_evaluate` -/
def evaluate (db : ResolutionDb) (emailId transactionId : Nat) (raw : List UInt8) :
    Except ResolutionFailure ResolutionEvaluation :=
  match loadEligibleRows db emailId transactionId with
  | .error failure => .error failure
  | .ok rows =>
    match services.processEmailFull rows.rule.bank raw with
    | .error message => .error (.raised message)
    | .ok none => .error (.refused 422 "Current parser did not produce a transaction")
    | .ok (some txn) =>
      if qualifiesAsExplicitMatch (db.transactions.rows.map (·.toTransaction))
          rows.target.toTransaction txn then
        .ok (evaluationOf services rows txn raw)
      else
        .error (.refused 409 "Selected transaction is not a compatible duplicate candidate")

/-! ### The apply -/

/-- A session; an exception keeps what it has written. -/
abbrev ResolutionSession := EStateM ResolutionFailure ResolutionDb

/-- The evaluation in the session. -/
def evaluateIn (emailId transactionId : Nat) (raw : List UInt8) :
    ResolutionSession ResolutionEvaluation := fun db =>
  match evaluate services db emailId transactionId raw with
  | .ok evaluation => .ok evaluation db
  | .error failure => .error failure db

/-- The row of `target`, where its slot is open or has the email already. -/
def claimable (target : CategorizedTransaction) (emailId : Nat) (row : CategorizedTransaction) :
    Bool :=
  row.id = target.id && (row.emailId = none || row.emailId = some emailId)

/-- `claim_transaction_source_slot`, for an email. -/
def claimEmailSlot (target : CategorizedTransaction) (emailId : Nat) :
    ResolutionSession CategorizedTransaction := fun db =>
  if target.emailId ≠ none then .ok target db
  else if db.transactions.rows.any (claimable target emailId) then
    .ok { target with emailId := some emailId }
      { db with
        transactions :=
          db.transactions.update (claimable target emailId) (setEmailId emailId) }
  else .error .transactionSlotConflict db

/-- The row after the diff, with the time of the change. -/
def enrich (row : CategorizedTransaction) (txn : TxnData) (diff : EnrichmentDiff) :
    CategorizedTransaction :=
  { row with
    toTransaction := applyDiff row.toTransaction txn .email diff
    enrichedAt := if diff.changedFields = [] then row.enrichedAt else some services.env.now }

def flushRow (row : CategorizedTransaction) : ResolutionSession Unit := fun db =>
  match db.transactions.replace row with
  | some table => .ok () { db with transactions := table }
  | none => .error .integrityError db

/-- `apply_reference_self_transfer_rule` -/
def markSelfTransfers (row : CategorizedTransaction) : ResolutionSession Unit := fun db =>
  .ok () { db with transactions := applyReferenceSelfTransferRule services.env row db.transactions }

/-- `apply_transaction_enrichment`, for an email. -/
def applyEnrichment (target : CategorizedTransaction) (txn : TxnData) (emailId : Nat) :
    ResolutionSession (CategorizedTransaction × EnrichmentDiff) := do
  let claimed ← claimEmailSlot target emailId
  let diff := computeAppliedEnrichmentDiff claimed.toTransaction txn .email .standard
  let row := enrich services claimed txn diff
  flushRow row
  markSelfTransfers services row
  return (row, diff)

/-- `link_transaction` and its flush, where the row has no account and a mask is new. -/
def linkRow (row : CategorizedTransaction) (diff : EnrichmentDiff) : ResolutionSession Unit :=
  fun db =>
    let maskChanged := diff.cardMask.isChange || diff.accountMask.isChange
    let found := linkTransaction db.links row.bank row.emailType row.cardMask row.accountMask
    match found with
    | some link =>
      if row.accountId = none ∧ maskChanged = true then
        .ok () { db with transactions := db.transactions.update (·.id = row.id) (setLink link) }
      else .ok () db
    | none => .ok () db

/-- The email is parsed, and its error is gone. -/
def markParsed (emailId : Nat) : ResolutionSession Unit := fun db =>
  .ok () { db with emails := db.emails.update (·.id = emailId) setParsed }

/-- The refusal of a token, or of a diff, that is not what it is to be. -/
def refuseStale (stale : Bool) : ResolutionSession Unit := fun db =>
  if stale then .error (.refused 409 "Preview is stale; request a new preview") db
  else .ok () db

/-- What `resolve_email_duplicate` returns. -/
structure DuplicateResolutionResponse where
  applied : Bool
  emailStatus : String
  previewToken : String
  before : EnrichmentState
  after : EnrichmentState
  diff : EnrichmentDiff

/-- The transaction of an apply. -/
def applyResolution (emailId transactionId : Nat) (token : String) (raw : List UInt8) :
    ResolutionSession DuplicateResolutionResponse := do
  let evaluation ← evaluateIn services emailId transactionId raw
  refuseStale (token ≠ evaluation.token)
  let (row, applied) ← applyEnrichment services evaluation.target evaluation.txn emailId
  refuseStale (applied ≠ evaluation.diff)
  linkRow row applied
  markParsed emailId
  return {
    applied := true
    emailStatus := "parsed"
    previewToken := evaluation.token
    before := evaluation.before
    after := stateOf row.toTransaction
    diff := applied }

/-- A failure as the caller gets it. -/
def ResolutionFailure.reported : ResolutionFailure → ResolutionFailure
  | transactionSlotConflict => refused 409 "Selected transaction already has an email attached"
  | integrityError =>
    refused 409 "Duplicate resolution conflicts with current transaction state"
  | failure => failure

/-- `DuplicateResolutionRequest`: an apply has a token, and a preview has none. -/
inductive DuplicateResolutionRequest
  | preview
  | apply (token : String)

/-- `resolve_email_duplicate`.  The rows are looked at, in the database of that time, before
the raw email is loaded; the preview and the apply look again. -/
def resolveEmailDuplicate (earlier : ResolutionDb) (raw : Option (List UInt8)) (db : ResolutionDb)
    (emailId transactionId : Nat) (request : DuplicateResolutionRequest) :
    Except ResolutionFailure DuplicateResolutionResponse × ResolutionDb :=
  match loadEligibleRows earlier emailId transactionId, raw with
  | .error failure, _ => (.error failure, db)
  | .ok _, none => (.error (.refused 404 "Raw email source is unavailable"), db)
  | .ok _, some raw =>
    match request with
    | .preview =>
      ((evaluate services db emailId transactionId raw).map fun evaluation =>
        { applied := false
          emailStatus := "skipped"
          previewToken := evaluation.token
          before := evaluation.before
          after := evaluation.after
          diff := evaluation.diff }, db)
    | .apply token =>
      let (result, db') :=
        UnitOfWork.atomically (applyResolution services emailId transactionId token raw) db
      (result.mapError ResolutionFailure.reported, db')

end

/-! ### What an evaluation says -/

section

variable [UnicodeTables] [DecimalText] {services : ResolutionServices} {db db' : ResolutionDb}
  {emailId transactionId : Nat} {raw : List UInt8}

omit [UnicodeTables] [DecimalText] in
/-- The rows are the ones that are asked for, and the target has no email. -/
theorem loadEligibleRows_eq_ok {rows : EligibleResolutionRows}
    (h : loadEligibleRows db emailId transactionId = .ok rows) :
    rows.email.id = emailId ∧ rows.target ∈ db.transactions ∧ rows.target.id = transactionId ∧
      rows.target.emailId = none := by
  unfold loadEligibleRows at h
  cases hemail : db.emails.rows.find? (·.id = emailId) with
  | none =>
    rw [hemail] at h
    cases h
  | some email =>
    cases htarget : db.transactions.rows.find? (·.id = transactionId) with
    | none =>
      rw [hemail, htarget] at h
      cases h
    | some target =>
      rw [hemail, htarget] at h
      dsimp only at h
      split_ifs at h with hdeferred hattached hslot
      split at h
      · cases h
      · split_ifs at h with hkind
        obtain rfl := Except.ok.inj h
        have hemailId := List.find?_some hemail
        have htargetId := List.find?_some htarget
        exact ⟨of_decide_eq_true hemailId, List.mem_of_find?_eq_some htarget,
          of_decide_eq_true htargetId, not_not.mp hslot⟩

/-- An evaluation is of the rows and of what the parser says. -/
theorem evaluate_eq_ok {evaluation : ResolutionEvaluation}
    (h : evaluate services db emailId transactionId raw = .ok evaluation) :
    ∃ rows txn, loadEligibleRows db emailId transactionId = .ok rows ∧
      services.processEmailFull rows.rule.bank raw = .ok (some txn) ∧
      evaluation = evaluationOf services rows txn raw := by
  unfold evaluate at h
  split at h
  · cases h
  · rename_i rows hrows
    split at h
    · cases h
    · cases h
    · rename_i txn htxn
      split_ifs at h
      exact ⟨rows, txn, hrows, htxn, (Except.ok.inj h).symm⟩

/-! ### The payload says what the row becomes -/

/-- Every row stays, but for its links and its category. -/
def Keeps (db db' : ResolutionDb) : Prop :=
  ∀ row ∈ db.transactions, ∃ r ∈ db'.transactions, r.toTransaction = row.toTransaction

/-- A preview shows the evaluation, and writes nothing. -/
theorem preview_eq_ok {earlier : ResolutionDb} {shown : DuplicateResolutionResponse}
    (h : resolveEmailDuplicate services earlier (some raw) db emailId transactionId .preview =
      (.ok shown, db')) :
    ∃ evaluation, evaluate services db emailId transactionId raw = .ok evaluation ∧
      shown.previewToken = evaluation.token ∧ shown.after = evaluation.after ∧ db' = db := by
  unfold resolveEmailDuplicate at h
  split at h
  · cases (Prod.mk.inj h).1
  · rename_i hraw
    cases hraw
  · rename_i hraw
    obtain rfl := Option.some.inj hraw
    obtain ⟨hshown, hdb⟩ := Prod.mk.inj h
    cases heval : evaluate services db emailId transactionId raw with
    | error failure =>
      rw [heval] at hshown
      cases hshown
    | ok evaluation =>
      rw [heval] at hshown
      obtain rfl := Except.ok.inj hshown
      exact ⟨evaluation, rfl, rfl, rfl, hdb.symm⟩

omit [DecimalText] in
theorem applyEnrichment_ok_or (services : ResolutionServices) (emailId : Nat)
    {target : CategorizedTransaction} (txn : TxnData) (htarget : target ∈ db.transactions)
    (hslot : target.emailId = none) :
    (∃ row db', applyEnrichment services target txn emailId db =
      .ok (row, computeEnrichmentDiff target.toTransaction txn .email) db') ∨
      ∃ db', applyEnrichment services target txn emailId db = .error .integrityError db' := by
  have hopen : db.transactions.rows.any (claimable target emailId) = true :=
    List.any_eq_true.mpr ⟨target, htarget, by simp [claimable, hslot]⟩
  have hclaim : claimEmailSlot target emailId db = .ok { target with emailId := some emailId }
      { db with
        transactions :=
          db.transactions.update (claimable target emailId) (setEmailId emailId) } := by
    unfold claimEmailSlot
    rw [if_neg (not_not.mpr hslot), if_pos hopen]
  unfold applyEnrichment
  rw [UnitOfWork.bind_of_ok hclaim]
  dsimp only
  generalize enrich services _ txn _ = row
  generalize ({ db with transactions := _ } : ResolutionDb) = db₁
  cases hreplace : db₁.transactions.replace row with
  | none =>
    have hflush : flushRow row db₁ = .error .integrityError db₁ := by rw [flushRow, hreplace]
    exact .inr ⟨db₁, UnitOfWork.bind_of_error hflush⟩
  | some table =>
    have hflush : flushRow row db₁ = .ok () { db₁ with transactions := table } := by
      rw [flushRow, hreplace]
    rw [UnitOfWork.bind_of_ok hflush]
    exact .inl ⟨row, _, rfl⟩

theorem applyResolution_ok_or {evaluation : ResolutionEvaluation}
    (h : evaluate services db emailId transactionId raw = .ok evaluation) :
    (∃ response db', applyResolution services emailId transactionId evaluation.token raw db =
      .ok response db') ∨
      ∃ db', applyResolution services emailId transactionId evaluation.token raw db =
        .error .integrityError db' := by
  have hin : evaluateIn services emailId transactionId raw db = .ok evaluation db := by
    rw [evaluateIn, h]
  have hfresh (stale : Bool) (hstale : stale = false) (db : ResolutionDb) :
      refuseStale stale db = .ok () db := by
    rw [refuseStale, hstale]
    rfl
  have hlinked (row : CategorizedTransaction) (diff : EnrichmentDiff) (db : ResolutionDb) :
      ∃ db', linkRow row diff db = .ok () db' := by
    unfold linkRow
    dsimp only
    split
    · split_ifs
      · exact ⟨_, rfl⟩
      · exact ⟨_, rfl⟩
    · exact ⟨_, rfl⟩
  obtain ⟨rows, txn, hrows, -, rfl⟩ := evaluate_eq_ok h
  obtain ⟨-, htarget, -, hslot⟩ := loadEligibleRows_eq_ok hrows
  unfold applyResolution
  rw [UnitOfWork.bind_of_ok hin, UnitOfWork.bind_of_ok (hfresh _ (by simp) db)]
  have happlied : (∃ row db', applyEnrichment services (evaluationOf services rows txn raw).target
        (evaluationOf services rows txn raw).txn emailId db =
          .ok (row, (evaluationOf services rows txn raw).diff) db') ∨
      ∃ db', applyEnrichment services (evaluationOf services rows txn raw).target
        (evaluationOf services rows txn raw).txn emailId db = .error .integrityError db' :=
    applyEnrichment_ok_or services emailId txn htarget hslot
  rcases happlied with ⟨row, db₁, happly⟩ | ⟨db₁, happly⟩
  · obtain ⟨db₂, hlink⟩ := hlinked row (evaluationOf services rows txn raw).diff db₁
    rw [UnitOfWork.bind_of_ok happly]
    dsimp only
    rw [UnitOfWork.bind_of_ok (hfresh _ (by simp) db₁), UnitOfWork.bind_of_ok hlink]
    exact .inl ⟨_, _, rfl⟩
  · exact .inr ⟨db₁, UnitOfWork.bind_of_error happly⟩

/-- **What is previewed is applied** where nothing has changed since, unless the enriched row
would break `uq_transactions_ref`. -/
theorem resolve_accepted {earlier : ResolutionDb} {shown : DuplicateResolutionResponse}
    (h : resolveEmailDuplicate services earlier (some raw) db emailId transactionId .preview =
      (.ok shown, db')) :
    (∃ response, (resolveEmailDuplicate services earlier (some raw) db emailId transactionId
      (.apply shown.previewToken)).1 = .ok response) ∨
    (resolveEmailDuplicate services earlier (some raw) db emailId transactionId
      (.apply shown.previewToken)).1 =
        .error (.refused 409 "Duplicate resolution conflicts with current transaction state") := by
  obtain ⟨evaluation, heval, htoken, -, -⟩ := preview_eq_ok h
  rw [htoken]
  cases hrows : loadEligibleRows earlier emailId transactionId with
  | error failure =>
    simp only [resolveEmailDuplicate, hrows] at h
    cases (Prod.mk.inj h).1
  | ok rows =>
    simp only [resolveEmailDuplicate, hrows, UnitOfWork.atomically]
    rcases applyResolution_ok_or heval with ⟨response, db₁, happly⟩ | ⟨db₁, happly⟩
    · rw [happly]
      exact .inl ⟨response, rfl⟩
    · rw [happly]
      exact .inr rfl

end

/-! ### A resolution -/

end FinancialDashboard.Transactions
