import FinancialDashboard.Lib.Posting
import FinancialDashboard.Statements.CreditCard
import FinancialDashboard.Statements.Bank

/-!
# Strings that cannot be read

Reconciling a statement and importing what it misses, with the exceptions that reading a
string raises and the handlers that catch them.

`Decimal` raises `InvalidOperation`, the date parser `ValueError` or, at a year out of
range, `OverflowError`; a blank date is a `ValueError`.  The reconcilers catch the first
two where they read a row, the bank import too, and the card import only `ValueError`.
What a string that is read is then worth is the reconcilers' business.

* `attempt_isOk_iff`: what escapes a handler.
* `returns_of_importEntries`, `importEntries_keep`: what the import loop raises, and what an
  entry that is skipped changes.

The inserts are a parameter, and so is what they leave in the database.
-/

namespace FinancialDashboard.Statements

open PyText Transactions FirstCome Posting

/-! ### Reading -/

/-- The exceptions of the readers, and of a key that is not there. -/
inductive ReadError
  | invalidOperation | valueError | overflowError | keyError
  deriving DecidableEq, Repr

/-- The readers, and whether the date parser raises `OverflowError` where it raises. -/
class RaisingReaders extends Readers where
  overflows : String → Bool

section

variable [RaisingReaders]

/-- `parse_cc_amount` and `_parse_amount`. -/
def readAmountText (amountStr : String) : Except ReadError Amount :=
  match parseAmount amountStr with
  | some amount => .ok amount
  | none => .error .invalidOperation

/-- `amount or "0"`. -/
def orZero (text : Option String) : String := if text.getD "" = "" then "0" else text.getD ""

variable [UnicodeTables]

def dateOverflows (dateStr : String) : Bool :=
  strip dateStr ≠ "" && (Readers.dateutil (strip dateStr)).isNone &&
    RaisingReaders.overflows (strip dateStr)

/-- `parse_cc_date` and `_parse_date`. -/
def readDateText (dateStr : String) : Except ReadError Int :=
  match parseDate dateStr with
  | some date => .ok date
  | none => .error (if dateOverflows dateStr then .overflowError else .valueError)

/-- The amount and then the date of a row. -/
def readTexts (amountStr dateStr : String) : Except ReadError (Amount × Int) := do
  let amount ← readAmountText amountStr
  let date ← readDateText dateStr
  return (amount, date)

end

/-- `try: … except caught: …`: nothing where the exception is caught. -/
def attempt {α : Type} (caught : List ReadError) (body : Except ReadError α) :
    Except ReadError (Option α) :=
  match body with
  | .ok a => .ok (some a)
  | .error e => if e ∈ caught then .ok none else .error e

/-- Both reconcilers. -/
def reconcileCatches : List ReadError := [.valueError, .invalidOperation]

/-- `import_missing_cc_txns`. -/
def ccImportCatches : List ReadError := [.valueError, .keyError]

/-- `import_missing_bank_txns`. -/
def bankImportCatches : List ReadError := [.valueError, .keyError, .invalidOperation]

/-! ### The import loop -/

/-- What the insert of a row came to. -/
inductive Inserted
  | imported (id : Nat)
  | duplicate
  | failed (error : String)
  deriving DecidableEq, Repr

/-- How the import leaves an entry. -/
inductive ImportTag
  | ambiguous
  | unparseable
  | inserted (outcome : Inserted)
  deriving DecidableEq, Repr

/-- What an import loop knows of an entry. -/
structure Importer (ε σ : Type) where
  caught : List ReadError
  ambiguous : ε → Bool
  read : ε → Except ReadError (Amount × Int)
  insert : σ → ε → Amount × Int → σ × Inserted

namespace Importer

variable {ε σ : Type} (imp : Importer ε σ)

def importEntry (session : σ) (entry : ε) : Except ReadError (σ × ImportTag) :=
  if imp.ambiguous entry then .ok (session, .ambiguous)
  else do
    match ← attempt imp.caught (imp.read entry) with
    | none => return (session, .unparseable)
    | some texts =>
      let (session, outcome) := imp.insert session entry texts
      return (session, .inserted outcome)

def importEntries : σ → List ε → Except ReadError (σ × List (ε × ImportTag))
  | session, [] => .ok (session, [])
  | session, entry :: rest => do
    let (session, tag) ← imp.importEntry session entry
    let (session, later) ← importEntries session rest
    return (session, (entry, tag) :: later)

end Importer

/-! ### A card statement -/

structure AdjustmentPair where
  confidence : String
  debit : Option CcTransaction
  credit : Option CcTransaction
  deriving DecidableEq

structure CcStatement extends ParsedCcStatement where
  possibleAdjustmentPairs : List AdjustmentPair

/-- The rows of one side that `_calculate_adjustment_total` adds up. -/
def adjustmentRows (side : AdjustmentPair → Option CcTransaction) (pairs : List AdjustmentPair) :
    List CcTransaction :=
  (pairs.filter fun pair => pair.confidence = "high").filterMap side

structure CcReconciled where
  recon : Reconciliation
  adjustmentsDebit : List Amount
  adjustmentsCredit : List Amount

structure CcReport (σ : Type) where
  matched : List MatchedEntry
  missing : List (MissingEntry × ImportTag)
  adjustmentsDebit : List Amount
  adjustmentsCredit : List Amount
  session : σ

section

variable [UnicodeTables] [NarrationTables] [RaisingReaders] {σ : Type}

/-- The amounts that `_calculate_adjustment_total` adds up. -/
def adjustmentAmounts (side : AdjustmentPair → Option CcTransaction)
    (pairs : List AdjustmentPair) : Except ReadError (List Amount) :=
  (adjustmentRows side pairs).mapM fun txn => readAmountText (orZero (some txn.amount))

/-- `reconcile_statement`, which reads the rows first; its second loop reads them alike. -/
def reconcileCcStatement (db : AccountRows) (masks : List String) (statement : CcStatement) :
    Except ReadError CcReconciled := do
  let _ ← (stmtLines statement.toParsedCcStatement).mapM fun line =>
    attempt reconcileCatches (readTexts line.txn.amount line.txn.date)
  let debits ← adjustmentAmounts (·.debit) statement.possibleAdjustmentPairs
  let credits ← adjustmentAmounts (·.credit) statement.possibleAdjustmentPairs
  return ⟨reconcileStatement db masks statement.toParsedCcStatement, debits, credits⟩

/-- What the card import reads of an entry; `insert` has no number of it. -/
def ccImporter (insert : σ → StmtTxn → Amount × Int → σ × Inserted) : Importer MissingEntry σ where
  caught := ccImportCatches
  ambiguous := (·.ambiguous)
  read entry := readTexts entry.line.txn.amount entry.line.txn.date
  insert session entry := insert session entry.line.toStmtTxn

def runCc (db : AccountRows) (masks : List String)
    (insert : σ → StmtTxn → Amount × Int → σ × Inserted) (session : σ) (statement : CcStatement) :
    Except ReadError (CcReport σ) := do
  let reconciled ← reconcileCcStatement db masks statement
  let (session, missing) ← (ccImporter insert).importEntries session reconciled.recon.missing
  return ⟨reconciled.recon.matched, missing, reconciled.adjustmentsDebit,
    reconciled.adjustmentsCredit, session⟩

end

/-! ### A bank statement -/

structure BankStatement extends ParsedBankStatement where
  openingBalance : Option String
  closingBalance : Option String
  creditTotal : Option String
  debitTotal : Option String

/-- The texts that the balance verification reads. -/
def balanceTexts (statement : BankStatement) : List String :=
  if statement.openingBalance.getD "" ≠ "" ∧ statement.closingBalance.getD "" ≠ "" then
    [statement.openingBalance.getD "", statement.closingBalance.getD "",
      orZero statement.creditTotal, orZero statement.debitTotal]
  else []

structure BankReconciled where
  recon : BankReconciliation
  balances : List Amount

structure BankReport (σ : Type) where
  matched : List BankMatchedEntry
  missing : List (BankMissingEntry × ImportTag)
  balances : List Amount
  session : σ

section

variable [UnicodeTables] [RaisingReaders] {σ : Type}

/-- `reconcile_bank_statement`: the rows, and at the end the balances. -/
def reconcileBank (db : AccountRows) (statement : BankStatement) :
    Except ReadError BankReconciled := do
  let _ ← (bankLines statement.toParsedBankStatement).mapM fun line =>
    attempt reconcileCatches (readTexts line.txn.amount line.txn.date)
  let balances ← (balanceTexts statement).mapM readAmountText
  return ⟨reconcileBankStatement db statement.toParsedBankStatement, balances⟩

def bankImporter (insert : σ → BankTransaction → Amount × Int → σ × Inserted) :
    Importer BankMissingEntry σ where
  caught := bankImportCatches
  ambiguous := (·.ambiguous)
  read entry := readTexts entry.line.txn.amount entry.line.txn.date
  insert session entry := insert session entry.line.txn

def runBank (db : AccountRows) (insert : σ → BankTransaction → Amount × Int → σ × Inserted)
    (session : σ) (statement : BankStatement) : Except ReadError (BankReport σ) := do
  let reconciled ← reconcileBank db statement
  let (session, missing) ← (bankImporter insert).importEntries session reconciled.recon.missing
  return ⟨reconciled.recon.matched, missing, reconciled.balances, session⟩

end

/-! ### What reading raises -/

section

variable [UnicodeTables] [RaisingReaders] {amountStr dateStr : String} {caught : List ReadError}

/-- Where the exceptions are caught, a row is read or is not. -/
theorem attempt_eq_ok {o : Option (Amount × Int)}
    (h : attempt caught (readTexts amountStr dateStr) = .ok o) :
    o = textIdentity amountStr dateStr := by
  unfold attempt readTexts readAmountText readDateText at h
  unfold textIdentity
  cases hamount : parseAmount amountStr with
  | none =>
    rw [hamount] at h
    dsimp only [bind, Except.bind] at h
    split_ifs at h
    exact (Except.ok.inj h).symm
  | some amount =>
    rw [hamount] at h
    cases hdate : parseDate dateStr with
    | none =>
      rw [hdate] at h
      dsimp only [bind, Except.bind] at h
      split_ifs at h <;> exact (Except.ok.inj h).symm
    | some date =>
      rw [hdate] at h
      exact (Except.ok.inj h).symm

theorem dateOverflows_of_some {date : Int} (h : parseDate dateStr = some date) :
    dateOverflows dateStr = false := by
  unfold parseDate at h
  unfold dateOverflows
  split_ifs at h with hblank
  rw [h]
  simp

/-- **What escapes where both readers' usual exceptions are caught**: the overflow of a date,
behind an amount that can be read. -/
theorem attempt_isOk_iff (hv : .valueError ∈ caught) (ho : .overflowError ∉ caught) :
    (∃ o, attempt caught (readTexts amountStr dateStr) = .ok o) ↔
      ((parseAmount amountStr).isSome = true → dateOverflows dateStr = false) ∧
        (parseAmount amountStr = none → .invalidOperation ∈ caught) := by
  unfold attempt readTexts readAmountText readDateText
  cases hamount : parseAmount amountStr with
  | none =>
    dsimp only [bind, Except.bind]
    by_cases hi : ReadError.invalidOperation ∈ caught
    · simp [hi]
    · simp [hi]
  | some amount =>
    cases hdate : parseDate dateStr with
    | none =>
      dsimp only [bind, Except.bind]
      cases hover : dateOverflows dateStr with
      | true => simp [ho]
      | false => simp [hv]
    | some date =>
      have hover := dateOverflows_of_some hdate
      simp [bind, Except.bind, pure, Except.pure, hover]

omit [UnicodeTables] in
theorem readAmountText_isOk_iff :
    (∃ amount, readAmountText amountStr = .ok amount) ↔ (parseAmount amountStr).isSome = true := by
  unfold readAmountText
  cases parseAmount amountStr <;> simp

end

/-! ### What the import loop raises, and what it skips -/

namespace Importer

variable {ε σ : Type} {imp : Importer ε σ} {session session' : σ} {entry : ε} {entries : List ε}
  {out : List (ε × ImportTag)}

/-- The entry is skipped as one that could not be read. -/
def Skips (imp : Importer ε σ) (entry : ε) : Prop :=
  imp.ambiguous entry = false ∧ attempt imp.caught (imp.read entry) = .ok none

/-- The entry raises nothing. -/
def Passes (imp : Importer ε σ) (entry : ε) : Prop :=
  imp.ambiguous entry = true ∨ ∃ o, attempt imp.caught (imp.read entry) = .ok o

theorem importEntry_of_skips (h : imp.Skips entry) :
    imp.importEntry session entry = .ok (session, .unparseable) := by
  unfold importEntry
  rw [h.1, if_neg Bool.false_ne_true, h.2]
  rfl

/-- How one entry goes. -/
theorem importEntry_spec {tag : ImportTag}
    (h : imp.importEntry session entry = .ok (session', tag)) :
    imp.Passes entry ∧ (tag = .unparseable ↔ imp.Skips entry) := by
  unfold importEntry at h
  cases hamb : imp.ambiguous entry with
  | true =>
    rw [hamb, if_pos rfl] at h
    cases h
    refine ⟨.inl hamb, ⟨nofun, fun h => ?_⟩⟩
    rw [h.1] at hamb
    cases hamb
  | false =>
    rw [hamb, if_neg Bool.false_ne_true] at h
    obtain ⟨o, ho, h⟩ := bind_eq_ok.mp h
    refine ⟨.inr ⟨o, ho⟩, ?_⟩
    cases o with
    | none =>
      cases h
      exact ⟨fun _ => ⟨hamb, ho⟩, fun _ => rfl⟩
    | some texts =>
      cases h
      refine ⟨nofun, fun h => ?_⟩
      rw [h.2] at ho
      cases ho

theorem exists_importEntry (h : imp.Passes entry) :
    ∃ done, imp.importEntry session entry = .ok done := by
  unfold importEntry
  rcases h with hamb | ⟨o, ho⟩
  · rw [hamb, if_pos rfl]
    exact ⟨_, rfl⟩
  · cases imp.ambiguous entry with
    | true => exact ⟨_, if_pos rfl⟩
    | false =>
      rw [if_neg Bool.false_ne_true, ho]
      cases o <;> exact ⟨_, rfl⟩

/-- How the entries go: each is tagged in its turn. -/
theorem importEntries_spec (h : imp.importEntries session entries = .ok (session', out)) :
    out.map (·.1) = entries ∧
      ∀ done ∈ out, imp.Passes done.1 ∧ (done.2 = .unparseable ↔ imp.Skips done.1) := by
  induction entries generalizing session out with
  | nil =>
    cases h
    exact ⟨rfl, fun _ hmem => absurd hmem List.not_mem_nil⟩
  | cons entry rest ih =>
    obtain ⟨⟨s, tag⟩, hone, h⟩ := bind_eq_ok.mp h
    obtain ⟨⟨s', later⟩, hrest, h⟩ := bind_eq_ok.mp h
    cases h
    obtain ⟨hmap, hall⟩ := ih hrest
    refine ⟨by rw [List.map_cons, hmap], fun done hmem => ?_⟩
    rcases List.mem_cons.mp hmem with rfl | hmem
    · exact importEntry_spec hone
    · exact hall done hmem

/-- **The entries skipped as unparseable**, in their order. -/
theorem skipped_of_importEntries {bad : ε → Bool}
    (hbad : ∀ entry ∈ entries, imp.Passes entry → (imp.Skips entry ↔ bad entry = true))
    (h : imp.importEntries session entries = .ok (session', out)) :
    (out.filter (·.2 = .unparseable)).map (·.1) = entries.filter bad := by
  obtain ⟨hmap, hall⟩ := importEntries_spec h
  rw [← hmap, List.filter_map]
  refine congrArg _ (List.filter_congr fun done hdone => ?_)
  obtain ⟨hpass, htag⟩ := hall done hdone
  rw [Function.comp_apply, Bool.eq_iff_iff, decide_eq_true_eq, htag]
  exact hbad done.1 (hmap ▸ List.mem_map_of_mem hdone) hpass

/-- **When the import loop returns.** -/
theorem returns_of_importEntries :
    (∃ done, imp.importEntries session entries = .ok done) ↔
      ∀ entry ∈ entries, imp.Passes entry := by
  constructor
  · rintro ⟨⟨s, out⟩, h⟩ entry hmem
    obtain ⟨hmap, hall⟩ := importEntries_spec h
    rw [← hmap] at hmem
    obtain ⟨done, hdone, rfl⟩ := List.mem_map.mp hmem
    exact (hall done hdone).1
  · intro h
    induction entries generalizing session with
    | nil => exact ⟨_, rfl⟩
    | cons entry rest ih =>
      obtain ⟨⟨s, tag⟩, hone⟩ : ∃ done, imp.importEntry session entry = .ok done :=
        exists_importEntry (h entry List.mem_cons_self)
      obtain ⟨⟨s', later⟩, hrest⟩ := @ih s fun e he => h e (List.mem_cons_of_mem entry he)
      exact ⟨_, bind_eq_ok.mpr ⟨_, hone, bind_eq_ok.mpr ⟨_, hrest, rfl⟩⟩⟩

/-- **An entry that is skipped changes nothing for the others.** -/
theorem importEntries_keep {keep : ε → Bool}
    (hk : ∀ entry ∈ entries, keep entry = false → imp.Skips entry)
    (h : imp.importEntries session entries = .ok (session', out)) :
    imp.importEntries session (entries.filter keep) =
      .ok (session', out.filter fun done => keep done.1) := by
  induction entries generalizing session out with
  | nil =>
    cases h
    rfl
  | cons entry rest ih =>
    obtain ⟨⟨s, tag⟩, hone, h⟩ := bind_eq_ok.mp h
    obtain ⟨⟨s', later⟩, hrest, h⟩ := bind_eq_ok.mp h
    cases h
    have ih := ih (fun e he => hk e (List.mem_cons_of_mem entry he)) hrest
    cases hkeep : keep entry with
    | true =>
      rw [List.filter_cons_of_pos hkeep, List.filter_cons_of_pos (by exact hkeep)]
      exact bind_eq_ok.mpr ⟨_, hone, bind_eq_ok.mpr ⟨_, ih, rfl⟩⟩
    | false =>
      rw [importEntry_of_skips (hk entry List.mem_cons_self hkeep)] at hone
      cases hone
      rw [List.filter_cons_of_neg (by simp [hkeep]), List.filter_cons_of_neg (by simp [hkeep])]
      exact ih

/-- What the loop reads of an entry does not tell its number. -/
structure Blind (imp : Importer ε σ) (f : ε → ε) : Prop where
  ambiguous : ∀ entry, imp.ambiguous (f entry) = imp.ambiguous entry
  read : ∀ entry, imp.read (f entry) = imp.read entry
  insert : ∀ session entry texts,
    imp.insert session (f entry) texts = imp.insert session entry texts

theorem importEntries_map {f : ε → ε} (hf : imp.Blind f) (session : σ) (entries : List ε) :
    imp.importEntries session (entries.map f) =
      (imp.importEntries session entries).map (Prod.map id (List.map (Prod.map f id))) := by
  induction entries generalizing session with
  | nil => rfl
  | cons entry rest ih =>
    have hone : imp.importEntry session (f entry) = imp.importEntry session entry := by
      unfold importEntry
      simp only [hf.ambiguous, hf.read, hf.insert]
    rw [List.map_cons, importEntries, importEntries, hone]
    cases imp.importEntry session entry with
    | error e => rfl
    | ok done =>
      obtain ⟨s, tag⟩ := done
      dsimp only [bind, Except.bind]
      rw [ih s]
      cases imp.importEntries s rest with
      | error e => rfl
      | ok later => rfl

end Importer

end FinancialDashboard.Statements
