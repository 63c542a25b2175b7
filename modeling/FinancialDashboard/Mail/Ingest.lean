import FinancialDashboard.Lib.Table
import FinancialDashboard.Mail.Dispatch
import FinancialDashboard.Transactions.Reingest

/-!
# One polled email

`handle_polled_email` of `services/emails.py`: the email is dispatched, which may store a
statement, and then one unit of work makes its row and books its transaction.  A statement
that was stored stays, whatever becomes of the row.

An insertion that the index of the references refuses is taken back to its savepoint, and the
row of the email stays.  The flush of an enrichment has no savepoint: if it is refused, the whole
unit is rolled back, and the email has no row.

What is sent after the commit is left out, and so are the links to accounts and cards.

* `mergePolled_eq`: the merge, and which of its two writes was refused.
* `mergePolled_flushFailed`: an enrichment is refused only for a reference with blanks around it.
* `handlePolledEmail_spec`: what becomes of the email.
-/

namespace FinancialDashboard.Mail

open PyText Transactions

/-! ### The emails -/

inductive EmailStatus
  | pending | parsed | skipped | failed
  deriving DecidableEq, Repr

structure EmailRow where
  id : Nat
  provider : String
  messageId : String
  sourceId : Nat
  remoteId : String
  sender : String
  subject : String
  receivedAt : Option Datetime
  status : EmailStatus
  error : Option String
  ruleId : Nat

/-- The unique `message_id`, and `uq_email_source_remote`. -/
def emailSchema : Schema EmailRow where
  id := EmailRow.id
  Clashes a b := a.messageId = b.messageId ∨ a.sourceId = b.sourceId ∧ a.remoteId = b.remoteId
  decidable := fun _ _ => inferInstanceAs (Decidable (_ ∨ _))

/-- A fetch rule with what the poll asks of it. -/
structure PolledRule extends FetchRule where
  sourceId : Option Nat
  bank : String
  emailKind : Option EmailKind
  enabled : Bool
  autoManaged : Bool
  deriving DecidableEq

/-- What the poll works on; `σ` is the stored statements. -/
structure Store (σ : Type) where
  emails : Table emailSchema
  table : TxnTable
  statements : σ

/-- The pipelines, with the email package and the link from a statement to its email. -/
structure Intake (σ : Type) extends Pipelines σ where
  read : List UInt8 → RawMessage
  linkEmail : σ → StmtResult → Nat → σ

/-! ### The merge -/

/-- The merge of an email, and which write was refused. -/
inductive PolledMerge
  | merged (t : TxnTable) (result : MergeResult)
  /-- The insertion, which has a savepoint. -/
  | duplicate
  /-- The enrichment, which has none. -/
  | flushFailed

variable [UnicodeTables]

/-- The enrichment of a matched row. -/
def enrichPolled (t : TxnTable) (emailId : Nat) (txn : TxnData) (row : Transaction)
    (kind : MatchKind) : PolledMerge :=
  match applyTransactionEnrichment t row txn .email (some emailId) kind with
  | .ok (t', result) => .merged t' result
  | .error _ => .flushFailed

/-- `merge_transaction` on an email. -/
def mergePolled (t : TxnTable) (emailId : Nat) (txn : TxnData) : PolledMerge :=
  match findMatch t.rows txn .email (some emailId) with
  | .matched row kind => enrichPolled t emailId txn row kind
  | .deferred _ reason ids => .merged t (.deferred reason ids)
  | .insert =>
    match insertNew t .email txn none (some emailId) with
    | .ok (t', result) => .merged t' result
    | .error _ =>
      match findMatch t.rows txn .email (some emailId) with
      | .matched row kind => enrichPolled t emailId txn row kind
      | _ => .duplicate

/-! ### The unit of work -/

/-- A counter of the poll. -/
inductive Counter
  | parsed | failed | skipped
  deriving DecidableEq, Repr

/-- What a transaction leaves: the table, and the status and the error of the email. -/
structure Booking where
  table : TxnTable
  status : EmailStatus
  error : Option String
  counter : Counter

def skipTxnTypes : List String := ["sbi_cc_transaction_declined"]

def duplicateNote : String :=
  "Duplicate transaction skipped because an identical transaction row already exists"

/-- The transaction of the email; `none` if the unit of work is rolled back. -/
def bookTransaction (t : TxnTable) (emailId : Nat) (txn : TxnData) : Option Booking :=
  if txn.emailType ∈ skipTxnTypes then some ⟨t, .parsed, none, .parsed⟩
  else
    match mergePolled t emailId txn with
    | .merged t' (.deferred _ _) => some ⟨t', .skipped, some dupDeferNote, .skipped⟩
    | .merged t' (.created _) => some ⟨t', .parsed, none, .parsed⟩
    | .merged t' (.enriched _) => some ⟨t', .parsed, none, .parsed⟩
    | .duplicate => some ⟨t, .skipped, some duplicateNote, .skipped⟩
    | .flushFailed => none

/-- An email without a transaction; `error` is what the dispatch leaves of one. -/
def bookOther (t : TxnTable) (r : EmailDispatchResult) : Booking :=
  let error := if r.stmtResult.isSome then none else r.error
  { table := t
    status := if r.stmtResult.isSome then .parsed
      else if r.recognizedNonTransaction then .skipped else .failed
    error := error
    counter := if error.any (· ≠ "") then .failed else .skipped }

def book (t : TxnTable) (emailId : Nat) (r : EmailDispatchResult) : Option Booking :=
  match r.txnData with
  | some txn => bookTransaction t emailId txn
  | none => some (bookOther t r)

/-- What became of an email. -/
inductive Handled
  | committed
  | rolledBack
  /-- The email was there already, and the poll ends. -/
  | raised
  deriving DecidableEq, Repr

def emailRow (provider : String) (sourceId : Nat) (rule : PolledRule) (mail : FetchedEmail)
    (raw : RawMessage) (status : EmailStatus) (error : Option String) (id : Nat) : EmailRow where
  id := id
  provider := provider
  messageId := mail.msgId
  sourceId := sourceId
  remoteId := mail.remoteId
  sender := raw.sender
  subject := raw.subject
  receivedAt := raw.date
  status := status
  error := error
  ruleId := rule.id

/-- The row as it is flushed in the end; it stays pending where nothing is booked. -/
def newEmailRow (provider : String) (sourceId : Nat) (rule : PolledRule) (mail : FetchedEmail)
    (raw : RawMessage) (booking : Option Booking) : Table.NewRow emailSchema :=
  ⟨emailRow provider sourceId rule mail raw ((booking.map (·.status)).getD .pending)
    (booking.bind (·.error)), fun _ => rfl⟩

section

variable {σ : Type} (intake : Intake σ) (store : Store σ) (provider : String) (sourceId : Nat)
  (rule : PolledRule) (mail : FetchedEmail)

/-- What the email is taken for, with what that leaves of the statements. -/
def dispatched : σ × EmailDispatchResult :=
  parseEmailByKind intake.toPipelines store.statements rule.bank (intake.read mail.rawBytes)
    sourceId rule.emailKind

/-- The statement that was stored, with its email. -/
def linkStatement (result : σ × EmailDispatchResult) : σ :=
  match result.2.stmtResult with
  | some stmt => intake.linkEmail result.1 stmt store.emails.nextId
  | none => result.1

def handlePolledEmail : Store σ × List Counter × Handled :=
  let result := dispatched intake store sourceId rule mail
  let r := result.2
  let counted := if r.stmtResult.isSome then [Counter.parsed] else []
  let booking := book store.table store.emails.nextId r
  match store.emails.insert
      (newEmailRow provider sourceId rule mail (intake.read mail.rawBytes) booking) with
  | none => ({ store with statements := result.1 }, counted, .raised)
  | some emails =>
    match booking with
    | none => ({ store with statements := result.1 }, counted ++ [.skipped], .rolledBack)
    | some booking =>
      (⟨emails, booking.table, linkStatement intake store result⟩, counted ++ [booking.counter],
        .committed)

end

/-! ### Which write is refused -/

section Merge

variable {t t' : TxnTable} {emailId : Nat} {txn : TxnData} {row : Transaction} {kind : MatchKind}
  {result : MergeResult}

omit [UnicodeTables] in
/-- An insertion appends the row of the email. -/
theorem insertNew_eq_ok (h : insertNew t .email txn none (some emailId) = .ok (t', result)) :
    t'.rows = t.rows ++ [newRow txn .email none (some emailId) (TxnTable.nextId t.rows)] ∧
      result = .created (newRow txn .email none (some emailId) (TxnTable.nextId t.rows)) := by
  unfold insertNew TxnTable.insertRow at h
  dsimp only at h
  split_ifs at h
  · obtain ⟨rfl, rfl⟩ := Prod.mk.inj (Except.ok.inj h)
    exact ⟨rfl, rfl⟩
  · cases h

/-- **The merge of an email is `merge_transaction`**, which does not tell the two writes apart. -/
theorem mergePolled_eq : mergeTransaction t .email txn none (some emailId) false =
    match mergePolled t emailId txn with
    | .merged t' result => .ok (t', result)
    | .duplicate => .error .integrityError
    | .flushFailed => .error .integrityError := by
  have henrich : ∀ row kind, applyTransactionEnrichment t row txn .email (some emailId) kind =
      match enrichPolled t emailId txn row kind with
      | .merged t' result => .ok (t', result)
      | .duplicate => .error .integrityError
      | .flushFailed => .error .integrityError := by
    intro row kind
    unfold enrichPolled
    cases applyTransactionEnrichment t row txn .email (some emailId) kind with
    | ok merged => rfl
    | error e =>
      cases e
      rfl
  unfold mergeTransaction mergePolled
  dsimp only [sourceIdOf]
  rw [if_neg Bool.false_ne_true]
  cases hfind : findMatch t.rows txn .email (some emailId) with
  | matched row kind => exact henrich row kind
  | deferred deferredKind reason ids => rfl
  | insert =>
    dsimp only
    cases insertNew t .email txn none (some emailId) with
    | ok inserted => rfl
    | error e =>
      cases e
      rfl

/-- An email that is matched: the row that is enriched, or a refusal. -/
theorem enrichPolled_eq (hrow : row ∈ t.rows) : enrichPolled t emailId txn row kind =
    match t.updateRow (enrichedRow row ⟨.email, emailId, txn⟩ kind) with
    | .ok t' => .merged t' (.enriched (enrichedRow row ⟨.email, emailId, txn⟩ kind))
    | .error _ => .flushFailed := by
  have happly : applyTransactionEnrichment t row txn .email (some emailId) kind =
      (t.updateRow (enrichedRow row ⟨.email, emailId, txn⟩ kind)).map
        fun t' => (t', .enriched (enrichedRow row ⟨.email, emailId, txn⟩ kind)) :=
    applyTransactionEnrichment_of_mem (m := ⟨.email, emailId, txn⟩) hrow
  unfold enrichPolled
  rw [happly]
  cases t.updateRow (enrichedRow row ⟨.email, emailId, txn⟩ kind) <;> rfl

/-- The matcher has looked for the reference without the blanks around it. -/
theorem not_mem_of_findMatch {sourceId : Option Nat} {channel : Channel} {r : Transaction}
    {reference : String} (hfind : findMatch t.rows txn channel sourceId = .matched row kind)
    (hr : r ∈ t.rows) (hne : r.id ≠ row.id) (hbank : r.bank = txn.bank)
    (hdirection : r.direction = txn.direction) (hreference : txn.referenceNumber = some reference)
    (hsome : reference ≠ "") (htrimmed : strip reference = reference) :
    r.referenceNumber ≠ some reference := by
  intro hsame
  have hstripped : strippedReference txn.referenceNumber = reference := by
    rw [hreference]
    exact htrimmed
  have hrows : referenceRows t.rows txn = (t.rows.filter fun r => r.bank = txn.bank &&
      r.direction = txn.direction && r.referenceNumber = some reference).take 2 := by
    unfold referenceRows
    rw [hstripped]
    exact if_neg hsome
  have hmem : r ∈ t.rows.filter fun r => r.bank = txn.bank && r.direction = txn.direction &&
      r.referenceNumber = some reference := by
    refine List.mem_filter.mpr ⟨hr, ?_⟩
    simp [hbank, hdirection, hsame]
  rcases findMatch_eq_matched_iff.mp hfind with ⟨h, -⟩ | ⟨h, -⟩ | ⟨h, -⟩
  · -- the one row that was found is the only one
    have hfound := h.found
    rw [hrows] at hfound
    cases hfilter : t.rows.filter fun r => r.bank = txn.bank && r.direction = txn.direction &&
        r.referenceNumber = some reference with
    | nil =>
      rw [hfilter] at hmem
      cases hmem
    | cons a rest =>
      rw [hfilter] at hfound hmem
      cases rest with
      | nil =>
        obtain rfl := List.mem_singleton.mp hmem
        obtain rfl := List.singleton_inj.mp hfound
        exact hne rfl
      | cons b rest => cases hfound
  · have hnone := h.noReference
    rw [hrows, List.take_eq_nil_iff] at hnone
    rw [hnone.resolve_left (by decide)] at hmem
    cases hmem
  · have hnone := h.noReference
    rw [hrows, List.take_eq_nil_iff] at hnone
    rw [hnone.resolve_left (by decide)] at hmem
    cases hmem

/-- A reference that the matcher does not look for as it is. -/
def Untrimmed (reference : String) : Prop := strip reference ≠ reference ∨ reference = ""

/-- An enrichment that was refused: of a reference with blanks around it, which another row has. -/
def RefusedEnrichment (t : TxnTable) (txn : TxnData) : Prop :=
  ∃ reference, txn.referenceNumber = some reference ∧ Untrimmed reference ∧ ∃ other ∈ t.rows,
    other.bank = txn.bank ∧ other.direction = txn.direction ∧
      other.referenceNumber = some reference

/-- **An enrichment is refused only for a reference with blanks around it**, which another row
has as it is. -/
theorem mergePolled_flushFailed (h : mergePolled t emailId txn = .flushFailed) :
    RefusedEnrichment t txn := by
  have hmatched : ∃ row kind, findMatch t.rows txn .email (some emailId) = .matched row kind ∧
      enrichPolled t emailId txn row kind = .flushFailed := by
    unfold mergePolled at h
    cases hfind : findMatch t.rows txn .email (some emailId) with
    | matched row kind =>
      rw [hfind] at h
      exact ⟨row, kind, rfl, h⟩
    | deferred deferredKind reason ids =>
      rw [hfind] at h
      cases h
    | insert =>
      rw [hfind] at h
      dsimp only at h
      cases hinsert : insertNew t .email txn none (some emailId) with
      | ok inserted =>
        rw [hinsert] at h
        cases h
      | error e =>
        rw [hinsert] at h
        cases h
  obtain ⟨row, kind, hfind, hfailed⟩ := hmatched
  have hrow : row ∈ t.rows := mem_of_findMatch hfind
  obtain ⟨hbank, hdirection, -⟩ := sharesIdentity_of_findMatch hfind
  have hclash : ∃ r ∈ t.rows, r.id ≠ row.id ∧
      Clash r (enrichedRow row ⟨.email, emailId, txn⟩ kind) := by
    by_contra hnone
    push Not at hnone
    obtain ⟨t', ht'⟩ : ∃ t', t.updateRow (enrichedRow row ⟨.email, emailId, txn⟩ kind) = .ok t' :=
      TxnTable.updateRow_of_not_clash fun r hr hne =>
        hnone r hr (by rwa [id_enrichedRow] at hne)
    rw [enrichPolled_eq hrow, ht'] at hfailed
    cases hfailed
  obtain ⟨r, hr, hne, hrbank, hrdirection, hrreference, hsome⟩ := hclash
  rw [bank_enrichedRow, hbank] at hrbank
  rw [direction_enrichedRow, hdirection] at hrdirection
  rw [referenceNumber_enrichedRow] at hrreference hsome
  cases hreference : txn.referenceNumber with
  | none =>
    -- the row keeps its reference, which no other row has
    have hafter : referenceAfter row ⟨.email, emailId, txn⟩ = row.referenceNumber := by
      show (txn.referenceNumber <|> row.referenceNumber) = row.referenceNumber
      rw [hreference]
      rfl
    rw [hafter] at hrreference hsome
    refine absurd ?_ (TxnTable.not_clash_of_ne hr hrow fun heq => hne (by rw [heq]))
    exact ⟨hrbank.trans hbank.symm, hrdirection.trans hdirection.symm, hrreference, hsome⟩
  | some reference =>
    have hafter : referenceAfter row ⟨.email, emailId, txn⟩ = some reference := by
      show (txn.referenceNumber <|> row.referenceNumber) = some reference
      rw [hreference]
      rfl
    rw [hafter] at hrreference
    refine ⟨reference, hreference, ?_, r, hr, hrbank, hrdirection, hrreference⟩
    by_contra htrimmed
    unfold Untrimmed at htrimmed
    push Not at htrimmed
    exact not_mem_of_findMatch hfind hr hne hrbank hrdirection hreference htrimmed.2 htrimmed.1
      hrreference

/-- The transaction has a row, and an email in its slot. -/
def Entered (t : TxnTable) (txn : TxnData) : Prop :=
  ∃ row ∈ t.rows, row.slot .email ≠ none ∧ row.bank = txn.bank ∧ row.direction = txn.direction ∧
    row.HasAmount txn.amount

/-- The rows that are there stay, but for one that the email fills in. -/
def Keeps (t t' : TxnTable) : Prop :=
  ∃ row, ∀ r ∈ t.rows, r ∈ t'.rows ∨ r.id = row.id ∧ row ∈ t'.rows

/-- **A merge enters the transaction**, or defers it. -/
theorem mergePolled_merged (h : mergePolled t emailId txn = .merged t' result) :
    (∃ reason ids, result = .deferred reason ids ∧ t' = t) ∨
      (∀ reason ids, result ≠ .deferred reason ids) ∧ Entered t' txn ∧ Keeps t t' := by
  unfold mergePolled at h
  cases hfind : findMatch t.rows txn .email (some emailId) with
  | matched row kind =>
    rw [hfind] at h
    dsimp only at h
    have hrow : row ∈ t.rows := mem_of_findMatch hfind
    obtain ⟨hbank, hdirection, hamount⟩ := sharesIdentity_of_findMatch hfind
    rw [enrichPolled_eq hrow] at h
    cases hupdate : t.updateRow (enrichedRow row ⟨.email, emailId, txn⟩ kind) with
    | error e =>
      rw [hupdate] at h
      cases h
    | ok t₁ =>
      rw [hupdate] at h
      cases h
      have hrows := TxnTable.rows_of_updateRow hupdate
      have hmem : enrichedRow row ⟨.email, emailId, txn⟩ kind ∈ t'.rows := by
        rw [hrows]
        exact List.mem_map.mpr ⟨row, hrow, if_pos id_enrichedRow.symm⟩
      refine .inr ⟨fun _ _ => MergeResult.noConfusion, ⟨_, hmem, ?_, ?_, ?_, ?_⟩,
        enrichedRow row ⟨.email, emailId, txn⟩ kind, fun r hr => ?_⟩
      · rw [slot_enrichedRow, if_pos rfl]
        cases row.slot .email <;> simp
      · exact bank_enrichedRow.trans hbank
      · exact direction_enrichedRow.trans hdirection
      · exact hasAmount_enrichedRow.mpr hamount
      · by_cases hid : r.id = (enrichedRow row ⟨.email, emailId, txn⟩ kind).id
        · exact .inr ⟨hid, hmem⟩
        · rw [hrows]
          exact .inl (TxnTable.mem_replaceRow hr hid)
  | deferred deferredKind reason ids =>
    rw [hfind] at h
    cases h
    exact .inl ⟨reason, ids, rfl, rfl⟩
  | insert =>
    rw [hfind] at h
    dsimp only at h
    cases hinsert : insertNew t .email txn none (some emailId) with
    | error e =>
      rw [hinsert] at h
      cases h
    | ok inserted =>
      rw [hinsert] at h
      cases h
      obtain ⟨hrows, hresult⟩ := insertNew_eq_ok hinsert
      refine .inr ⟨fun _ _ hdeferred => ?_, ?_, newRow txn .email none (some emailId) 0, ?_⟩
      · rw [hresult] at hdeferred
        cases hdeferred
      · refine ⟨newRow txn .email none (some emailId) (TxnTable.nextId t.rows), ?_, ?_, rfl, rfl,
          .inl rfl⟩
        · rw [hrows]
          exact List.mem_append_right _ (List.mem_singleton_self _)
        · exact Option.some_ne_none emailId
      · intro r hr
        rw [hrows]
        exact .inl (List.mem_append_left _ hr)

end Merge

/-! ### What becomes of the email -/

section Handle

variable {σ : Type} {pipelines : Pipelines σ} {s s' : σ} {bank : String} {raw : RawMessage}
  {sourceId emailId : Nat} {kind : Option EmailKind} {t : TxnTable} {r : EmailDispatchResult}
  {booking : Booking}

/-- What the row of an email says of what it came to. -/
structure Accounted (t t' : TxnTable) (r : EmailDispatchResult) (status : EmailStatus)
    (error : Option String) : Prop where
  settled : status ≠ .pending
  /-- What failed comes to nothing, and keeps why. -/
  failed : status = .failed →
    error ≠ none ∧ r.txnData = none ∧ r.stmtResult = none ∧ t' = t
  /-- What is parsed is a statement that was stored, a purchase that was declined, or a
  transaction that has its row. -/
  parsed : status = .parsed → error = none ∧
    (r.stmtResult ≠ none ∧ t' = t ∨ ∃ txn, r.txnData = some txn ∧
      (txn.emailType ∈ skipTxnTypes ∧ t' = t ∨ Entered t' txn ∧ Keeps t t'))
  /-- What is skipped is a notice, or a transaction with a note. -/
  skipped : status = .skipped → r.stmtResult = none ∧ t' = t ∧
    (r.txnData = none ∧ r.recognizedNonTransaction = true ∧ error = none ∨
      r.txnData ≠ none ∧ (error = some dupDeferNote ∨ error = some duplicateNote))

theorem accounted_bookTransaction {txn : TxnData} (htxn : r.txnData = some txn)
    (hstmt : r.stmtResult = none) (h : bookTransaction t emailId txn = some booking) :
    Accounted t booking.table r booking.status booking.error := by
  have hparsed : ∀ t', (txn.emailType ∈ skipTxnTypes ∧ t' = t ∨ Entered t' txn ∧ Keeps t t') →
      Accounted t t' r .parsed none := fun t' hbooked =>
    { settled := EmailStatus.noConfusion
      failed := fun hfailed => EmailStatus.noConfusion hfailed
      parsed := fun _ => ⟨rfl, .inr ⟨txn, htxn, hbooked⟩⟩
      skipped := fun hskipped => EmailStatus.noConfusion hskipped }
  have hskipped : ∀ note, (note = dupDeferNote ∨ note = duplicateNote) →
      Accounted t t r .skipped (some note) := fun note hnote =>
    { settled := EmailStatus.noConfusion
      failed := fun hfailed => EmailStatus.noConfusion hfailed
      parsed := fun hparsed => EmailStatus.noConfusion hparsed
      skipped := fun _ => ⟨hstmt, rfl, .inr ⟨by simp [htxn], hnote.imp (congrArg some)
        (congrArg some)⟩⟩ }
  unfold bookTransaction at h
  split_ifs at h with htype
  · cases h
    exact hparsed t (.inl ⟨htype, rfl⟩)
  cases hmerge : mergePolled t emailId txn with
  | merged t' result =>
    rw [hmerge] at h
    rcases mergePolled_merged hmerge with ⟨reason, ids, rfl, rfl⟩ | ⟨hresult, hentered⟩
    · cases h
      exact hskipped _ (.inl rfl)
    · cases result with
      | deferred reason ids => exact absurd rfl (hresult reason ids)
      | created row =>
        cases h
        exact hparsed t' (.inr hentered)
      | enriched row =>
        cases h
        exact hparsed t' (.inr hentered)
  | duplicate =>
    rw [hmerge] at h
    cases h
    exact hskipped _ (.inr rfl)
  | flushFailed =>
    rw [hmerge] at h
    cases h

omit [UnicodeTables] in
theorem accounted_bookOther (htxn : r.txnData = none)
    (hretryable : r.stmtResult = none → r.recognizedNonTransaction = false → r.error ≠ none)
    (hnotice : r.stmtResult = none → r.recognizedNonTransaction = true → r.error = none) :
    Accounted t (bookOther t r).table r (bookOther t r).status (bookOther t r).error := by
  unfold bookOther
  dsimp only
  cases hstmt : r.stmtResult with
  | some stmt =>
    rw [Option.isSome_some, if_pos rfl, if_pos rfl]
    exact {
      settled := EmailStatus.noConfusion
      failed := fun hfailed => EmailStatus.noConfusion hfailed
      parsed := fun _ => ⟨rfl, .inl ⟨by simp [hstmt], rfl⟩⟩
      skipped := fun hskipped => EmailStatus.noConfusion hskipped }
  | none =>
    rw [Option.isSome_none, if_neg Bool.false_ne_true, if_neg Bool.false_ne_true]
    cases hrecognized : r.recognizedNonTransaction with
    | true =>
      rw [if_pos rfl]
      exact {
        settled := EmailStatus.noConfusion
        failed := fun hfailed => EmailStatus.noConfusion hfailed
        parsed := fun hparsed => EmailStatus.noConfusion hparsed
        skipped := fun _ => ⟨hstmt, rfl, .inl ⟨htxn, hrecognized, hnotice hstmt hrecognized⟩⟩ }
    | false =>
      rw [if_neg Bool.false_ne_true]
      exact {
        settled := EmailStatus.noConfusion
        failed := fun _ => ⟨hretryable hstmt hrecognized, htxn, hstmt, rfl⟩
        parsed := fun hparsed => EmailStatus.noConfusion hparsed
        skipped := fun hskipped => EmailStatus.noConfusion hskipped }

/-- **A booking accounts for what the dispatch came to.** -/
theorem accounted_book (hrouted : Routed pipelines s bank raw sourceId kind s' r)
    (h : book t emailId r = some booking) :
    Accounted t booking.table r booking.status booking.error := by
  unfold book at h
  cases htxn : r.txnData with
  | some txn =>
    rw [htxn] at h
    exact accounted_bookTransaction htxn (hrouted.transaction txn htxn).2.2.1 h
  | none =>
    rw [htxn] at h
    cases h
    exact accounted_bookOther htxn (hrouted.retryable htxn) hrouted.notice

/-- The unit of work is rolled back for an enrichment that was refused. -/
theorem book_eq_none (h : book t emailId r = none) :
    ∃ txn, r.txnData = some txn ∧ RefusedEnrichment t txn := by
  unfold book at h
  cases htxn : r.txnData with
  | none =>
    rw [htxn] at h
    cases h
  | some txn =>
    rw [htxn] at h
    dsimp only at h
    unfold bookTransaction at h
    split_ifs at h
    cases hmerge : mergePolled t emailId txn with
    | flushFailed => exact ⟨txn, rfl, mergePolled_flushFailed hmerge⟩
    | duplicate =>
      rw [hmerge] at h
      cases h
    | merged t' result =>
      rw [hmerge] at h
      cases result <;> cases h

variable (intake : Intake σ) (store : Store σ) (provider : String) (sourceId : Nat)
  (rule : PolledRule) (mail : FetchedEmail)

/-- The message is stored: it has a row of its id, or of its source and the id there. -/
def StoredAlready : Prop := ∃ row ∈ store.emails, row.messageId = mail.msgId ∨
  row.sourceId = sourceId ∧ row.remoteId = mail.remoteId

/-- What becomes of an email after its dispatch, and what it leaves. -/
inductive Outcome (result : σ × EmailDispatchResult) : Store σ → Handled → Prop
  | raised (stored : StoredAlready store sourceId mail) :
    Outcome result ⟨store.emails, store.table, result.1⟩ .raised
  | rolledBack (new : ¬ StoredAlready store sourceId mail)
      (refused : ∃ txn, result.2.txnData = some txn ∧ RefusedEnrichment store.table txn) :
    Outcome result ⟨store.emails, store.table, result.1⟩ .rolledBack
  | committed {emails : Table emailSchema} {t : TxnTable} {status : EmailStatus}
      {error : Option String} (new : ¬ StoredAlready store sourceId mail)
      (row : emails.rows = store.emails.rows ++ [emailRow provider sourceId rule mail
        (intake.read mail.rawBytes) status error store.emails.nextId])
      (accounted : Accounted store.table t result.2 status error) :
    Outcome result ⟨emails, t, linkStatement intake store result⟩ .committed

section

variable {intake store provider sourceId rule mail} {pending : Option Booking}
  {emails : Table emailSchema}

omit [UnicodeTables] in
/-- **The row of the email is refused where the message is stored**, and only there. -/
theorem storedAlready_of_insert (h : store.emails.insert
    (newEmailRow provider sourceId rule mail raw pending) = none) :
    StoredAlready store sourceId mail := by
  by_contra hnew
  obtain ⟨emails, hemails⟩ : ∃ emails, store.emails.insert
      (newEmailRow provider sourceId rule mail raw pending) = some emails :=
    Table.exists_insert fun row hrow hclash => hnew ⟨row, hrow, hclash⟩
  rw [h] at hemails
  cases hemails

omit [UnicodeTables] in
theorem rows_of_insert (h : store.emails.insert
    (newEmailRow provider sourceId rule mail raw pending) = some emails) :
    ¬ StoredAlready store sourceId mail ∧ emails.rows = store.emails.rows ++
      [(newEmailRow provider sourceId rule mail raw pending).make store.emails.nextId] := by
  obtain ⟨hrows, hfree⟩ := Table.insert_eq_some h
  refine ⟨fun hstored => ?_, hrows⟩
  obtain ⟨row, hrow, hclash⟩ := hstored
  exact hfree row hrow hclash

end

theorem outcome_handlePolledEmail :
    Outcome intake store provider sourceId rule mail (dispatched intake store sourceId rule mail)
      (handlePolledEmail intake store provider sourceId rule mail).1
      (handlePolledEmail intake store provider sourceId rule mail).2.2 := by
  have hrouted : Routed intake.toPipelines store.statements rule.bank (intake.read mail.rawBytes)
      sourceId rule.emailKind (dispatched intake store sourceId rule mail).1
      (dispatched intake store sourceId rule mail).2 := routed_parseEmailByKind
  unfold handlePolledEmail
  dsimp only
  cases hinsert : store.emails.insert (newEmailRow provider sourceId rule mail
      (intake.read mail.rawBytes) (book store.table store.emails.nextId
        (dispatched intake store sourceId rule mail).2)) with
  | none => exact .raised (storedAlready_of_insert hinsert)
  | some emails =>
    obtain ⟨hnew, hrow⟩ := rows_of_insert hinsert
    cases hbooking : book store.table store.emails.nextId
        (dispatched intake store sourceId rule mail).2 with
    | none =>
      exact .rolledBack hnew (book_eq_none hbooking)
    | some booking =>
      rw [hbooking] at hrow
      exact .committed hnew hrow (accounted_book hrouted hbooking)

end Handle

end FinancialDashboard.Mail
