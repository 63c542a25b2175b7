import FinancialDashboard.Mail.Rules
import FinancialDashboard.Transactions.EmailPipeline

/-!
# What an email is taken for

`parse_email_by_kind` of `services/emails.py`: by the kind of its rule an email is read as a
transaction, as the summary of a statement, or as a statement, which one pipeline stores or
two try one after the other.  The parser is a package of its own; the pipelines are handed
in, each with what it leaves of the stored statements.

* `Called`: one call of a pipeline, and the statement it stored.
* `routed_parseEmailByKind`: an email is a transaction, or one statement at most, or it keeps
  its error, unless it is known to report nothing.
-/

namespace FinancialDashboard.Mail

open Transactions

inductive EmailKind
  | transaction | ccStatement | bankStatement | casStatement | statement
  deriving DecidableEq, Repr

/-- What the email package reads from the bytes of a message. -/
structure RawMessage extends RawEmail where
  sender : String
  subject : String
  rawBytes : List UInt8

/-! ### The parser and the pipelines -/

/-- The summary of a statement in the body of an email. -/
structure StatementSummary where
  cardMask : Option String
  totalAmountDue : Option Rat
  minimumAmountDue : Option Rat
  dueDate : Option Int
  deriving DecidableEq

/-- A `ParsedEmail` with its `statement`. -/
structure EmailDocument extends ParsedEmail where
  statement : Option StatementSummary

/-- The stored statement that a pipeline names in its result. -/
inductive StmtResult
  | cc (uploadId : Nat)
  | bank (uploadId : Nat)
  | cas (uploadId : Nat)
  deriving DecidableEq, Repr

/-- An exception: the name of its type and its text. -/
structure Crash where
  typeName : String
  message : String
  deriving DecidableEq, Repr

/-- What a pipeline returns, or raises. -/
inductive PipelineReply
  | stored (uploadId : Nat)
  | nothing
  | raised (crash : Crash)
  deriving DecidableEq, Repr

/-- `process_cas_email`, whose caller commits. -/
inductive CasReply
  | stored (uploadId : Nat)
  | refused (error : Option String)
  | raised (crash : Crash)
  deriving DecidableEq, Repr

/-- What `parse_email_by_kind` calls; `σ` is the stored statements. -/
structure Pipelines (σ : Type) where
  parseEmail : String → String → Except String EmailDocument
  processCasEmail : σ → RawMessage → Nat → σ × CasReply
  processCcStatementEmailSummary : σ → String → EmailDocument → σ × PipelineReply
  processStatementEmail : σ → String → RawMessage → Nat → Option String → σ × PipelineReply
  processBankStatementEmail : σ → String → RawMessage → Nat → Option String → σ × PipelineReply

/-! ### The dispatch -/

def nonTransactionEmailTypes : List String := ["icici_cc_usage_control_notice"]

def statementKinds : List EmailKind := [.ccStatement, .bankStatement, .statement]

structure EmailDispatchResult where
  error : Option String
  txnData : Option TxnData
  passwordHint : Option String
  stmtResult : Option StmtResult
  recognizedNonTransaction : Bool

section

variable {σ : Type} (pipelines : Pipelines σ) (s : σ) (bank : String) (raw : RawMessage)
  (sourceId : Nat)

namespace Pipelines

/-- The document that was parsed, if any. -/
def document : Option EmailDocument :=
  raw.body.bind fun body => (pipelines.parseEmail bank body).toOption

/-- The parser without the summary. -/
def parseBody (bank body : String) : EmailParse :=
  match pipelines.parseEmail bank body with
  | .error message => .failed message
  | .ok document => .parsed document.toParsedEmail

end Pipelines

/-- A notice that is known to report nothing. -/
def recognizedNotice (document : EmailDocument) : Bool :=
  document.emailType ∈ nonTransactionEmailTypes && document.transaction.isNone &&
    document.statement.isNone

def dispatchCas : σ × EmailDispatchResult :=
  match pipelines.processCasEmail s raw sourceId with
  | (s', .stored id) => (s', ⟨none, none, none, some (.cas id), false⟩)
  -- what is not stored is rolled back
  | (_, .refused error) =>
    (s, ⟨some (error.getD "CAS processing returned no result"), none, none, none, false⟩)
  | (_, .raised crash) =>
    (s, ⟨some s!"unexpected {crash.typeName}: {crash.message}", none, none, none, false⟩)

/-- `_dispatch_email_summary`. -/
def dispatchEmailSummary (document : EmailDocument) (passwordHint : Option String) :
    σ × EmailDispatchResult :=
  match pipelines.processCcStatementEmailSummary s bank document with
  | (s', .stored id) => (s', ⟨none, none, passwordHint, some (.cc id), false⟩)
  | (s', .nothing) =>
    (s', ⟨some ("Statement summary could not be persisted " ++
      "(no matching CC account or ambiguous match — see logs)"), none, passwordHint, none, false⟩)
  | (s', .raised crash) =>
    (s', ⟨some s!"Statement summary processing error: {crash.message}", none, passwordHint, none,
      false⟩)

/-- The pipeline for card statements, whose exceptions are logged. -/
def tryCcStatement (passwordHint : Option String) : σ × Option StmtResult :=
  match pipelines.processStatementEmail s bank raw sourceId passwordHint with
  | (s', .stored id) => (s', some (.cc id))
  | (s', .nothing) => (s', none)
  | (s', .raised _) => (s', none)

/-- The pipeline for bank statements, with the text of what it raised. -/
def tryBankStatement (passwordHint : Option String) : σ × Option StmtResult × Option String :=
  match pipelines.processBankStatementEmail s bank raw sourceId passwordHint with
  | (s', .stored id) => (s', some (.bank id), none)
  | (s', .nothing) => (s', none, none)
  | (s', .raised crash) =>
    (s', none, some (if crash.typeName = "BankStatementProcessingError" then crash.message
      else s!"Unexpected {crash.typeName}: {crash.message}"))

def allowSummaryRoute (kind : Option EmailKind) : Bool :=
  kind = some .ccStatement || kind = some .statement || kind = none

/-- The pipelines that the kind of the rule lets the dispatch try. -/
structure Routes where
  cc : Bool
  bank : Bool

/-- A transaction rule and an untyped one fall back to the statements. -/
def routesOf (kind : Option EmailKind) (hasTransaction : Bool) : Routes :=
  let fallbackToStmt := (kind = none || kind = some .transaction) && !hasTransaction
  { cc := kind = some .ccStatement || kind = some .statement || fallbackToStmt
    bank := kind = some .bankStatement || kind = some .statement || fallbackToStmt }

/-- The two pipelines for statements, as far as the routes go. -/
def tryStatements (routes : Routes) (passwordHint : Option String) :
    σ × Option StmtResult × Option String :=
  let cc := if routes.cc then tryCcStatement pipelines s bank raw sourceId passwordHint
    else (s, none)
  if cc.2.isNone && routes.bank then
    tryBankStatement pipelines cc.1 bank raw sourceId passwordHint
  else (cc.1, cc.2, none)

variable (kind : Option EmailKind)

/-- A rule for statements keeps no transaction. -/
def keptTransaction (parse : ProcessedEmailParse) : Option TxnData :=
  if kind.any (· ∈ statementKinds) then none else parse.txnData

/-- Nor does it keep what the parser of transactions objects to. -/
def keptError (parse : ProcessedEmailParse) : Option String :=
  if kind.any (· ∈ statementKinds) then none else parse.error

/-- The error where no pipeline stored a statement. -/
def unstoredError (parse : ProcessedEmailParse) (document : Option EmailDocument)
    (bankStmtError : Option String) : Option String :=
  if !document.any recognizedNotice && (kind.any (· ∈ statementKinds) ||
      (document.isSome && (keptTransaction kind parse).isNone)) then
    some ((bankStmtError.filter (· ≠ "")).getD "Statement processing returned no result")
  else keptError kind parse

/-- The dispatch of an email without a summary, or where the rule admits none. -/
def dispatchBody (parse : ProcessedEmailParse) (document : Option EmailDocument) :
    σ × EmailDispatchResult :=
  let txnData := keptTransaction kind parse
  let routes := routesOf kind txnData.isSome
  if routes.cc || routes.bank then
    let tried := tryStatements pipelines s bank raw sourceId routes parse.passwordHint
    (tried.1, ⟨if tried.2.1.isNone then unstoredError kind parse document tried.2.2
      else keptError kind parse, txnData, parse.passwordHint, tried.2.1,
      document.any recognizedNotice⟩)
  else (s, ⟨keptError kind parse, txnData, parse.passwordHint, none,
    document.any recognizedNotice⟩)

def parseEmailByKind : σ × EmailDispatchResult :=
  if kind = some .casStatement then dispatchCas pipelines s raw sourceId
  else
    let parse := processEmailFull pipelines.parseBody bank raw.toRawEmail
    let document := pipelines.document bank raw
    match document.filter fun d => allowSummaryRoute kind && d.statement.isSome with
    | some d => dispatchEmailSummary pipelines s bank d parse.passwordHint
    | none => dispatchBody pipelines s bank raw sourceId kind parse document

/-! ### What an email can come to -/

/-- A pipeline was called on the statements, and stored this. -/
inductive Called : σ → Option StmtResult → σ → Prop
  | cas {s s' : σ} {result : Option StmtResult}
      (h : (dispatchCas pipelines s raw sourceId).1 = s')
      (hresult : (dispatchCas pipelines s raw sourceId).2.stmtResult = result) : Called s result s'
  | summary {s s' : σ} {document : EmailDocument} {reply : PipelineReply}
      {result : Option StmtResult}
      (h : pipelines.processCcStatementEmailSummary s bank document = (s', reply))
      (hresult : ∀ stmt, result = some stmt ↔ ∃ id, reply = .stored id ∧ stmt = .cc id) :
      Called s result s'
  | cc {s s' : σ} {passwordHint : Option String} {reply : PipelineReply}
      {result : Option StmtResult}
      (h : pipelines.processStatementEmail s bank raw sourceId passwordHint = (s', reply))
      (hresult : ∀ stmt, result = some stmt ↔ ∃ id, reply = .stored id ∧ stmt = .cc id) :
      Called s result s'
  | bank {s s' : σ} {passwordHint : Option String} {reply : PipelineReply}
      {result : Option StmtResult}
      (h : pipelines.processBankStatementEmail s bank raw sourceId passwordHint = (s', reply))
      (hresult : ∀ stmt, result = some stmt ↔ ∃ id, reply = .stored id ∧ stmt = .bank id) :
      Called s result s'

/-- What the dispatch comes to. -/
structure Routed (s' : σ) (r : EmailDispatchResult) : Prop where
  /-- A transaction comes of a rule that is for one, and leaves the statements alone. -/
  transaction : ∀ txn, r.txnData = some txn → (kind = none ∨ kind = some .transaction) ∧
    s' = s ∧ r.stmtResult = none ∧ r.error = none ∧ r.recognizedNonTransaction = false
  /-- Two pipelines are called at most, and the second only where the first stored nothing. -/
  stored : s' = s ∧ r.stmtResult = none ∨
    Called pipelines bank raw sourceId s r.stmtResult s' ∨
    ∃ t, Called pipelines bank raw sourceId s none t ∧
      Called pipelines bank raw sourceId t r.stmtResult s'
  /-- What came to nothing keeps its error. -/
  retryable : r.txnData = none → r.stmtResult = none → r.recognizedNonTransaction = false →
    r.error ≠ none
  /-- A notice has none. -/
  notice : r.stmtResult = none → r.recognizedNonTransaction = true → r.error = none

variable {pipelines s bank kind raw sourceId} {passwordHint : Option String}

theorem called_tryCcStatement : Called pipelines bank raw sourceId s
    (tryCcStatement pipelines s bank raw sourceId passwordHint).2
    (tryCcStatement pipelines s bank raw sourceId passwordHint).1 := by
  unfold tryCcStatement
  rcases hreply : pipelines.processStatementEmail s bank raw sourceId passwordHint with ⟨s', reply⟩
  cases reply with
  | stored id => exact .cc hreply (by simp [eq_comm])
  | nothing => exact .cc hreply (by simp)
  | raised crash => exact .cc hreply (by simp)

theorem called_tryBankStatement : Called pipelines bank raw sourceId s
    (tryBankStatement pipelines s bank raw sourceId passwordHint).2.1
    (tryBankStatement pipelines s bank raw sourceId passwordHint).1 := by
  unfold tryBankStatement
  rcases hreply : pipelines.processBankStatementEmail s bank raw sourceId passwordHint with
    ⟨s', reply⟩
  cases reply with
  | stored id => exact .bank hreply (by simp [eq_comm])
  | nothing => exact .bank hreply (by simp)
  | raised crash => exact .bank hreply (by simp)

theorem called_dispatchEmailSummary {document : EmailDocument} :
    Called pipelines bank raw sourceId s
      (dispatchEmailSummary pipelines s bank document passwordHint).2.stmtResult
      (dispatchEmailSummary pipelines s bank document passwordHint).1 := by
  unfold dispatchEmailSummary
  rcases hreply : pipelines.processCcStatementEmailSummary s bank document with ⟨s', reply⟩
  cases reply with
  | stored id => exact .summary hreply (by simp [eq_comm])
  | nothing => exact .summary hreply (by simp)
  | raised crash => exact .summary hreply (by simp)

/-- The two pipelines in turn. -/
theorem called_tryStatements {routes : Routes} (hroutes : (routes.cc || routes.bank) = true) :
    Called pipelines bank raw sourceId s
        (tryStatements pipelines s bank raw sourceId routes passwordHint).2.1
        (tryStatements pipelines s bank raw sourceId routes passwordHint).1 ∨
      ∃ t, Called pipelines bank raw sourceId s none t ∧ Called pipelines bank raw sourceId t
        (tryStatements pipelines s bank raw sourceId routes passwordHint).2.1
        (tryStatements pipelines s bank raw sourceId routes passwordHint).1 := by
  unfold tryStatements
  by_cases hcc : routes.cc = true
  · rw [if_pos hcc]
    have hcalled : Called pipelines bank raw sourceId s
        (tryCcStatement pipelines s bank raw sourceId passwordHint).2
        (tryCcStatement pipelines s bank raw sourceId passwordHint).1 := called_tryCcStatement
    dsimp only
    split_ifs with hbank
    · obtain ⟨hnone, -⟩ := Bool.and_eq_true_iff.mp hbank
      rw [Option.isNone_iff_eq_none.mp hnone] at hcalled
      exact .inr ⟨_, hcalled, called_tryBankStatement⟩
    · exact .inl hcalled
  · have hbank : routes.bank = true := (Bool.or_eq_true_iff.mp hroutes).resolve_left hcc
    rw [if_neg hcc]
    dsimp only
    rw [if_pos (by simp [hbank])]
    exact .inl called_tryBankStatement

theorem dispatchCas_spec : (dispatchCas pipelines s raw sourceId).2.txnData = none ∧
    ((dispatchCas pipelines s raw sourceId).2.stmtResult = none →
      (dispatchCas pipelines s raw sourceId).2.error ≠ none) ∧
    (dispatchCas pipelines s raw sourceId).2.recognizedNonTransaction = false := by
  unfold dispatchCas
  rcases pipelines.processCasEmail s raw sourceId with ⟨s', reply⟩
  cases reply <;> simp

theorem dispatchEmailSummary_spec {document : EmailDocument} :
    (dispatchEmailSummary pipelines s bank document passwordHint).2.txnData = none ∧
      ((dispatchEmailSummary pipelines s bank document passwordHint).2.stmtResult = none →
        (dispatchEmailSummary pipelines s bank document passwordHint).2.error ≠ none) ∧
      (dispatchEmailSummary pipelines s bank document passwordHint).2.recognizedNonTransaction =
        false := by
  unfold dispatchEmailSummary
  rcases pipelines.processCcStatementEmailSummary s bank document with ⟨s', reply⟩
  cases reply <;> simp

/-- The parser returns an error, or a document and its transaction. -/
theorem processEmailFull_cases (pipelines : Pipelines σ) (bank : String) (raw : RawMessage) :
    (pipelines.document bank raw = none ∧
      (processEmailFull pipelines.parseBody bank raw.toRawEmail).error ≠ none ∧
      (processEmailFull pipelines.parseBody bank raw.toRawEmail).txnData = none) ∨
    ∃ d, pipelines.document bank raw = some d ∧
      (processEmailFull pipelines.parseBody bank raw.toRawEmail).error = none ∧
      (processEmailFull pipelines.parseBody bank raw.toRawEmail).txnData =
        d.transaction.map (emailTxnData d.toParsedEmail raw.date) := by
  unfold Pipelines.document processEmailFull Pipelines.parseBody
  cases raw.body with
  | none => exact .inl ⟨rfl, by simp, rfl⟩
  | some body =>
    dsimp only [Option.bind_some]
    cases pipelines.parseEmail bank body with
    | error message => exact .inl ⟨rfl, by simp, rfl⟩
    | ok d => exact .inr ⟨d, rfl, rfl, rfl⟩

/-- A rule that keeps a transaction tries no pipeline beside it. -/
theorem routes_of_keptTransaction {parse : ProcessedEmailParse} {txn : TxnData}
    (hkind : kind ≠ some .casStatement) (h : keptTransaction kind parse = some txn) :
    (kind = none ∨ kind = some .transaction) ∧ parse.txnData = some txn ∧
      keptError kind parse = parse.error ∧ routesOf kind true = ⟨false, false⟩ := by
  unfold keptTransaction keptError at *
  cases kind with
  | none => exact ⟨.inl rfl, h, rfl, rfl⟩
  | some k =>
    cases k with
    | transaction => exact ⟨.inr rfl, h, rfl, rfl⟩
    | casStatement => exact absurd rfl hkind
    | ccStatement => cases h
    | bankStatement => cases h
    | statement => cases h

/-- Where nothing is kept, some pipeline is tried. -/
theorem routes_of_no_transaction (hkind : kind ≠ some .casStatement) :
    ((routesOf kind false).cc || (routesOf kind false).bank) = true := by
  cases kind with
  | none => rfl
  | some k =>
    cases k with
    | casStatement => exact absurd rfl hkind
    | transaction => rfl
    | ccStatement => rfl
    | bankStatement => rfl
    | statement => rfl

/-- A notice was parsed. -/
theorem error_of_notice (h : (pipelines.document bank raw).any recognizedNotice = true) :
    (processEmailFull pipelines.parseBody bank raw.toRawEmail).error = none := by
  rcases processEmailFull_cases pipelines bank raw with ⟨hnone, -, -⟩ | ⟨-, -, herror, -⟩
  · rw [hnone] at h
    cases h
  · exact herror

theorem routed_dispatchBody (hkind : kind ≠ some .casStatement) :
    Routed pipelines s bank raw sourceId kind
      (dispatchBody pipelines s bank raw sourceId kind
        (processEmailFull pipelines.parseBody bank raw.toRawEmail) (pipelines.document bank raw)).1
      (dispatchBody pipelines s bank raw sourceId kind
        (processEmailFull pipelines.parseBody bank raw.toRawEmail)
        (pipelines.document bank raw)).2 := by
  unfold dispatchBody
  dsimp only
  cases htxn : keptTransaction kind (processEmailFull pipelines.parseBody bank raw.toRawEmail) with
  | some txn =>
    obtain ⟨hfor, hparse, herror, hroutes⟩ := routes_of_keptTransaction hkind htxn
    rw [Option.isSome_some, hroutes, if_neg (by decide)]
    exact {
      transaction := fun t ht => by
        rcases processEmailFull_cases pipelines bank raw with ⟨-, -, hnone⟩ | ⟨d, hd, hok, hdata⟩
        · rw [hnone] at hparse
          cases hparse
        · refine ⟨hfor, rfl, rfl, herror.trans hok, ?_⟩
          rw [hparse] at hdata
          obtain ⟨txn', htxn', -⟩ := Option.map_eq_some_iff.mp hdata.symm
          show (pipelines.document bank raw).any recognizedNotice = false
          rw [hd, Option.any_some]
          unfold recognizedNotice
          simp [htxn']
      stored := .inl ⟨rfl, rfl⟩
      retryable := fun hnone => by cases hnone
      notice := fun _ hnotice => herror.trans (error_of_notice hnotice) }
  | none =>
    rw [Option.isSome_none, if_pos (routes_of_no_transaction hkind)]
    exact {
      transaction := fun t ht => by cases ht
      stored := .inr (called_tryStatements (routes_of_no_transaction hkind))
      retryable := fun _ hstmt hrecognized => by
        dsimp only at hstmt hrecognized ⊢
        rw [hstmt, Option.isNone_none, if_pos rfl]
        unfold unstoredError
        rw [hrecognized, htxn]
        split_ifs with hkept
        · simp
        · -- neither a rule for statements nor a document: the parser has raised
          rw [Bool.not_false, Bool.true_and, Bool.or_eq_true, not_or] at hkept
          obtain ⟨hrule, hdocument⟩ := hkept
          unfold keptError
          rw [if_neg hrule]
          rcases processEmailFull_cases pipelines bank raw with ⟨-, herror, -⟩ | ⟨d, hd, -, -⟩
          · exact herror
          · rw [hd] at hdocument
            exact absurd rfl hdocument
      notice := fun hstmt hnotice => by
        dsimp only at hstmt hnotice ⊢
        rw [hstmt, Option.isNone_none, if_pos rfl]
        unfold unstoredError keptError
        rw [hnotice, Bool.not_true, Bool.false_and, if_neg Bool.false_ne_true]
        split_ifs
        · rfl
        · exact error_of_notice hnotice }

/-- **An email is a transaction, or one statement at most, or it keeps its error**, unless it is
known to report nothing. -/
theorem routed_parseEmailByKind : Routed pipelines s bank raw sourceId kind
    (parseEmailByKind pipelines s bank raw sourceId kind).1
    (parseEmailByKind pipelines s bank raw sourceId kind).2 := by
  unfold parseEmailByKind
  split_ifs with hcas
  · exact {
      transaction := fun txn htxn => by
        rw [dispatchCas_spec.1] at htxn
        cases htxn
      stored := .inr (.inl (.cas rfl rfl))
      retryable := fun _ hnone _ => dispatchCas_spec.2.1 hnone
      notice := fun _ hnotice => by
        rw [dispatchCas_spec.2.2] at hnotice
        cases hnotice }
  dsimp only
  cases (pipelines.document bank raw).filter fun d =>
      allowSummaryRoute kind && d.statement.isSome with
  | some d =>
    exact {
      transaction := fun txn htxn => by
        rw [dispatchEmailSummary_spec.1] at htxn
        cases htxn
      stored := .inr (.inl called_dispatchEmailSummary)
      retryable := fun _ hnone _ => dispatchEmailSummary_spec.2.1 hnone
      notice := fun _ hnotice => by
        rw [dispatchEmailSummary_spec.2.2] at hnotice
        cases hnotice }
  | none => exact routed_dispatchBody hcas

end

end FinancialDashboard.Mail
