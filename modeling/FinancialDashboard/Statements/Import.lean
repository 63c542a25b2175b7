import FinancialDashboard.Statements.Bank
import FinancialDashboard.Statements.CreditCard

/-!
# What a statement changes

After a reconciliation `enrich_matched_transactions` writes the statement's texts onto
the matched transactions, and `import_missing_cc_txns` or `import_missing_bank_txns`
inserts the missing rows that are importable.  All inserts succeed here; the links, the
upload and the categories are left out.

An amount is stored with two decimals, `quantize`.

* `AccountRows.afterRun`: the account after a run, its ids still apart.
-/

namespace FinancialDashboard.Statements

open PyText Transactions

/-! ### The account after a run -/

/-- The next id of the table, above every row of the account. -/
def FreshId (db : AccountRows) : Type := { first : Nat // ∀ row ∈ db.rows, row.id < first }

/-- A row as a statement import inserts it. -/
def insertedRow (txn : TxnData) (id : Nat) : Transaction :=
  { txn with id := id, smsMessageId := none, emailId := none, source := none }

namespace AccountRows

/-- The inserts take the ids from `first` on. -/
def inserted (first : Nat) : List TxnData → List Transaction
  | [] => []
  | txn :: rest => insertedRow txn first :: inserted (first + 1) rest

theorem mem_inserted {first : Nat} {txns : List TxnData} {row : Transaction} :
    row ∈ inserted first txns → ∃ txn ∈ txns, ∃ id, first ≤ id ∧ row = insertedRow txn id := by
  induction txns generalizing first with
  | nil => exact fun h => absurd h List.not_mem_nil
  | cons txn rest ih =>
    intro h
    rcases List.mem_cons.mp h with rfl | h
    · exact ⟨txn, List.mem_cons_self, first, Nat.le_refl _, rfl⟩
    · obtain ⟨other, ho, id, hid, rfl⟩ := ih h
      exact ⟨other, List.mem_cons_of_mem txn ho, id, by omega, rfl⟩

theorem exists_inserted (first : Nat) {txns : List TxnData} {txn : TxnData} (h : txn ∈ txns) :
    ∃ id, insertedRow txn id ∈ inserted first txns := by
  induction txns generalizing first with
  | nil => cases h
  | cons other rest ih =>
    rcases List.mem_cons.mp h with rfl | h
    · exact ⟨first, List.mem_cons_self⟩
    · obtain ⟨id, hm⟩ := ih (first + 1) h
      exact ⟨id, List.mem_cons_of_mem _ hm⟩

theorem nodup_inserted (first : Nat) (txns : List TxnData) :
    ((inserted first txns).map (·.id)).Nodup := by
  induction txns generalizing first with
  | nil => exact List.nodup_nil
  | cons txn rest ih =>
    refine List.nodup_cons.mpr ⟨fun h => ?_, ih (first + 1)⟩
    obtain ⟨row, hr, hid⟩ := List.mem_map.mp h
    obtain ⟨other, -, id, hle, rfl⟩ := mem_inserted hr
    have he : id = first := hid
    omega

/-- The rows of the account rewritten in place, and the inserts behind them. -/
def afterRun (db : AccountRows) (first : FreshId db) (rewrite : Transaction → Transaction)
    (hid : ∀ row, (rewrite row).id = row.id) (txns : List TxnData) : AccountRows where
  rows := db.rows.map rewrite ++ inserted first.1 txns
  nodup_ids := by
    have hold : (db.rows.map rewrite).map (·.id) = db.rows.map (·.id) := by
      rw [List.map_map]
      exact List.map_congr_left fun row _ => hid row
    rw [List.map_append, hold]
    refine List.Nodup.append db.nodup_ids (nodup_inserted first.1 txns) ?_
    intro id ho hn
    obtain ⟨row, hr, rfl⟩ := List.mem_map.mp ho
    obtain ⟨new, hm, he⟩ := List.mem_map.mp hn
    obtain ⟨txn, -, n, hle, rfl⟩ := mem_inserted hm
    have hlt := first.2 row hr
    have hn : n = row.id := he
    omega

end AccountRows

/-! ### Card statements -/

section

variable [UnicodeTables] [NarrationTables] [Readers]

def last4FromCard (cardStr : Option String) : Option String := maskLast4 cardStr false

/-- What `resolve_cc_card_mask` reads of an account: its number and its cards' masks. -/
structure CardAccount where
  accountNumber : Option String
  cardMasks : List (Option String)

def resolveCcCardMask (account : Option CardAccount) (raw : Option String) : Option String :=
  match last4FromCard raw, account with
  | some last4, _ => some last4
  | none, none => none
  | none, some account =>
    let digits := maskDigits raw
    let bySuffix :=
      if digits ≠ "" then
        (account.cardMasks.filterMap last4FromCard).find? fun last4 => endsWith last4 digits
      else none
    match bySuffix with
    | some last4 => some last4
    | none => last4FromCard account.accountNumber

/-- The row of a missing entry; an amount that is no number is refused by the column. -/
def ccTxnData (bank : String) (account : Option CardAccount) (line : Line) : Option TxnData :=
  match identity line.txn with
  | some (.finite value, txnDate) =>
    some
      { bank := bank
        emailType := "cc_statement"
        direction := line.direction.value
        amount := quantize value
        currency := some "INR"
        transactionDate := some txnDate
        transactionTime := none
        counterparty := some line.txn.narration
        cardMask := resolveCcCardMask account line.txn.cardNumber
        accountMask := none
        referenceNumber := none
        channel := some "cc_statement"
        balance := none
        rawDescription := some line.txn.narration
        transactionTimeIsReceivedTime := false
        identifiesBy := .counterparty }
  | _ => none

/-- `import_missing_cc_txns`: what it inserts. -/
def importMissingCcTxns (bank : String) (account : Option CardAccount) (recon : Reconciliation) :
    List TxnData :=
  (recon.missing.filter fun entry => entry.importable).filterMap fun entry =>
    ccTxnData bank account entry.line

/-- `enrich_matched_transactions` on a row of the account. -/
def enrichMatchedCard (recon : Reconciliation) (dbTxn : Transaction) : Transaction :=
  match recon.matched.find? (·.dbTxnId = dbTxn.id) with
  | some entry => enrichCard entry.line.txn dbTxn
  | none => dbTxn

omit [NarrationTables] [Readers] in
/-- Nothing but the counterparty is written. -/
theorem enrichCard_eq (txn : CcTransaction) (dbTxn : Transaction) :
    ∃ counterparty, enrichCard txn dbTxn = { dbTxn with counterparty := counterparty } := by
  unfold enrichCard
  dsimp only
  split_ifs
  · exact ⟨dbTxn.counterparty, rfl⟩
  · exact ⟨dbTxn.counterparty, rfl⟩
  · exact ⟨_, rfl⟩

omit [NarrationTables] [Readers] in
theorem enrichMatchedCard_eq (recon : Reconciliation) (dbTxn : Transaction) :
    ∃ counterparty, enrichMatchedCard recon dbTxn = { dbTxn with counterparty := counterparty } := by
  rw [enrichMatchedCard]
  cases recon.matched.find? (·.dbTxnId = dbTxn.id) with
  | some entry => exact enrichCard_eq entry.line.txn dbTxn
  | none => exact ⟨dbTxn.counterparty, rfl⟩

omit [NarrationTables] [Readers] in
theorem id_enrichMatchedCard (recon : Reconciliation) (dbTxn : Transaction) :
    (enrichMatchedCard recon dbTxn).id = dbTxn.id := by
  obtain ⟨counterparty, he⟩ := enrichMatchedCard_eq recon dbTxn
  rw [he]

/-- The account after its card statement was reconciled, enriched and imported. -/
def afterCcRun (db : AccountRows) (first : FreshId db) (masks : List String)
    (account : Option CardAccount) (parsed : ParsedCcStatement) : AccountRows :=
  let recon := reconcileStatement db masks parsed
  db.afterRun first (enrichMatchedCard recon) (id_enrichMatchedCard recon)
    (importMissingCcTxns parsed.bank account recon)

end

/-! ### Bank statements -/

section

variable [UnicodeTables] [NarrationTables] [Readers]

/-- The label `"<bank> fd"` of a fixed deposit. -/
def isFdCounterparty (counterparty bank : String) : Bool :=
  lower (strip bank) ≠ "" && lower (strip counterparty) = lower (strip bank) ++ " fd"

def maskLabels : List String := ["mobile", "acct", "account"]

/-- `(?:mobile|acct|account)?\s*x{3,}\d+`, the whole of a lower-cased text. -/
def isMaskOnly (text : List Char) : Bool :=
  let unlabelled :=
    match maskLabels.find? fun label => label.toList.isPrefixOf text with
    | some label => text.drop label.length
    | none => text
  let masked := unlabelled.dropWhile UnicodeTables.isSpace
  let digits := masked.dropWhile (· = 'x')
  3 ≤ (masked.takeWhile (· = 'x')).length && digits ≠ [] && digits.all NarrationTables.isDecimal

def isPlaceholderCounterparty (value : String) : Bool :=
  lower (strip value) ∈ genericCounterparties || isMaskOnly (lower (strip value)).toList

/-- `enrich_matched_transactions` on the transaction of one entry: the two fields are
decided apart. -/
def enrichBank (txn : BankTransaction) (dbTxn : Transaction) : Transaction :=
  let counterparty := stripped txn.counterparty
  let narration := stripped txn.narration
  let newValue := if counterparty ≠ "" then counterparty else narration
  let existing := stripped dbTxn.counterparty
  let fdUpgrade := isFdCounterparty newValue dbTxn.bank && lower existing = "self"
  let writesName := counterparty ≠ "" && (existing = "" || isPlaceholderCounterparty existing)
  let writesNarration := narration ≠ "" && stripped dbTxn.rawDescription = ""
  { dbTxn with
    counterparty :=
      if newValue ≠ existing && (writesName || fdUpgrade) then some newValue
      else dbTxn.counterparty
    rawDescription := if writesNarration then some narration else dbTxn.rawDescription }

omit [Readers] in
/-- Nothing but the two texts is written. -/
theorem enrichBank_eq (txn : BankTransaction) (dbTxn : Transaction) :
    ∃ counterparty rawDescription, enrichBank txn dbTxn =
      { dbTxn with counterparty := counterparty, rawDescription := rawDescription } := by
  unfold enrichBank
  exact ⟨_, _, rfl⟩

/-- `entry.get("counterparty") or entry.get("narration")` and the like. -/
def bankTxnData (accountBank : String) (parsed : ParsedBankStatement) (row : BankRow) :
    Option TxnData :=
  match row.amount with
  | .finite value =>
    some
      { bank := (orElse parsed.bank (some accountBank)).getD ""
        emailType := "bank_statement"
        direction := row.txn.direction.value
        amount := quantize value
        currency := some "INR"
        transactionDate := some row.txnDate
        transactionTime := none
        counterparty := orElse row.txn.counterparty row.txn.narration
        cardMask := none
        accountMask := maskLast4 parsed.accountNumber true
        referenceNumber := row.txn.referenceNumber
        channel := orElse row.txn.channel (some "bank_statement")
        balance := none
        rawDescription := row.txn.narration
        transactionTimeIsReceivedTime := false
        identifiesBy := .counterparty }
  | .nonFinite => none

/-- `import_missing_bank_txns`: what it inserts. -/
def importMissingBankTxns (accountBank : String) (parsed : ParsedBankStatement)
    (recon : BankReconciliation) : List TxnData :=
  ((recon.missing.filter fun entry => entry.importable).filterMap fun entry =>
    readRow entry.line).filterMap (bankTxnData accountBank parsed)

def enrichMatchedBank (recon : BankReconciliation) (dbTxn : Transaction) : Transaction :=
  match recon.matched.find? (·.dbTxnId = dbTxn.id) with
  | some entry => enrichBank entry.row.txn dbTxn
  | none => dbTxn

omit [Readers] in
theorem enrichMatchedBank_eq (recon : BankReconciliation) (dbTxn : Transaction) :
    ∃ counterparty rawDescription, enrichMatchedBank recon dbTxn =
      { dbTxn with counterparty := counterparty, rawDescription := rawDescription } := by
  rw [enrichMatchedBank]
  cases recon.matched.find? (·.dbTxnId = dbTxn.id) with
  | some entry => exact enrichBank_eq entry.row.txn dbTxn
  | none => exact ⟨dbTxn.counterparty, dbTxn.rawDescription, rfl⟩

omit [Readers] in
theorem id_enrichMatchedBank (recon : BankReconciliation) (dbTxn : Transaction) :
    (enrichMatchedBank recon dbTxn).id = dbTxn.id := by
  obtain ⟨counterparty, rawDescription, he⟩ := enrichMatchedBank_eq recon dbTxn
  rw [he]

/-- The account after its bank statement was reconciled, enriched and imported. -/
def afterBankRun (db : AccountRows) (first : FreshId db) (accountBank : String)
    (parsed : ParsedBankStatement) : AccountRows :=
  let recon := reconcileBankStatement db parsed
  db.afterRun first (enrichMatchedBank recon) (id_enrichMatchedBank recon)
    (importMissingBankTxns accountBank parsed recon)

end

end FinancialDashboard.Statements
