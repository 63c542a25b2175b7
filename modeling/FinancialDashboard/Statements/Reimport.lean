import FinancialDashboard.Statements.BankPartition
import FinancialDashboard.Statements.CcPartition
import FinancialDashboard.Statements.Import

/-!
# Importing a statement again

A statement is reconciled, its matches are enriched and its importable rows inserted;
then it is reconciled again.

For a card statement nothing is left to import: enrichment touches neither date nor
amount nor direction, and an inserted row is in the window of its own row.  For a bank
statement enrichment can take the evidence away a transaction was held by, its own
text; the row then reads as new.

* `ccReimport`: nothing is importable after a card run.
* `bankReimport_iff`: when nothing is importable after a bank run.
* `reimport_iff`: both.
-/

namespace FinancialDashboard.Statements

open PyText Transactions FirstCome

variable [UnicodeTables] [NarrationTables] [Readers]

/-! ### Card statements -/

section

variable {db : AccountRows} {masks : List String} {parsed : ParsedCcStatement} {line : Line}

/-- The amounts that can be read are numbers that fit the column. -/
def CcAmountsFit (parsed : ParsedCcStatement) : Prop :=
  ∀ line ∈ stmtLines parsed, ∀ amount date, identity line.txn = some (amount, date) →
    ∃ value, amount = .finite value ∧ quantize value = value

/-- A second reconciliation has nothing to import. -/
def NothingToImport (recon : Reconciliation) : Prop :=
  ∀ entry ∈ recon.missing, entry.importable = false

omit [NarrationTables] in
theorem hasKey_ccTxnData (bank : String) (account : Option CardAccount) {value : Rat} {date : Int}
    (hi : identity line.txn = some (.finite value, date)) (hq : quantize value = value) :
    ∃ data, ccTxnData bank account line = some data ∧
      ∀ id, HasKey (insertedRow data id) date (.finite value) line.direction := by
  refine ⟨_, by rw [ccTxnData, hi], fun id => ⟨rfl, ?_, rfl⟩⟩
  exact congrArg Amount.finite hq

omit [NarrationTables] [Readers] in
theorem inWindow_enrichMatchedCard {recon : Reconciliation} {dbTxn : Transaction} {date : Int}
    {amount : Amount} {direction : Direction} (h : InWindow dbTxn date amount direction) :
    InWindow (enrichMatchedCard recon dbTxn) date amount direction := by
  obtain ⟨counterparty, he⟩ := enrichMatchedCard_eq recon dbTxn
  rw [he]
  exact h

/-- A row nothing in the account could be is missing, and importable. -/
theorem exists_importable (masks : List String) (hl : line ∈ stmtLines parsed)
    (hread : (identity line.txn).isSome = true)
    (he : candidateSet db line.toStmtTxn = []) :
    ∃ entry ∈ (reconcileStatement db masks parsed).missing,
      entry.line = line ∧ entry.importable = true := by
  rcases List.mem_append.mp ((reconciliation_perm db masks parsed).symm.subset hl) with h | h
  · obtain ⟨entry, hm, rfl⟩ := List.mem_map.mp h
    exact absurd he (candidateSet_ne_nil_of_matched hm)
  · obtain ⟨entry, hm, rfl⟩ := List.mem_map.mp h
    exact ⟨entry, hm, rfl, (importable_iff hm).mpr ⟨hread, he⟩⟩

/-- After a run every row that can be read has a transaction in its window. -/
theorem exists_blocker (first : FreshId db) (account : Option CardAccount)
    (hfit : CcAmountsFit parsed) (hl : line ∈ stmtLines parsed) {amount : Amount} {date : Int}
    (hi : identity line.txn = some (amount, date)) :
    ∃ dbTxn ∈ (afterCcRun db first masks account parsed).rows,
      InWindow dbTxn date amount line.direction := by
  by_cases he : candidateSet db line.toStmtTxn = []
  · -- Nothing could be the row: it was imported.
    have hread : (identity line.txn).isSome = true := by
      rw [hi]
      rfl
    obtain ⟨entry, hm, rfl, himp⟩ := exists_importable masks hl hread he
    obtain ⟨value, rfl, hq⟩ := hfit entry.line hl amount date hi
    obtain ⟨data, hd, hkey⟩ := hasKey_ccTxnData parsed.bank account hi hq
    have hdata : data ∈ importMissingCcTxns parsed.bank account
        (reconcileStatement db masks parsed) :=
      List.mem_filterMap.mpr ⟨entry, List.mem_filter.mpr ⟨hm, himp⟩, hd⟩
    obtain ⟨id, hnew⟩ := AccountRows.exists_inserted first.1 hdata
    exact ⟨insertedRow data id, List.mem_append_right _ hnew, date,
      withinADay_iff.mpr ⟨0, by decide, by omega⟩, hkey id⟩
  · -- The transaction that could be the row still could.
    obtain ⟨cid, hc⟩ := List.exists_mem_of_ne_nil _ he
    obtain ⟨dbTxn, hm, -, a, d, hp, hw⟩ := mem_candidateSet.mp hc
    rw [hi] at hp
    cases hp
    exact ⟨enrichMatchedCard (reconcileStatement db masks parsed) dbTxn,
      List.mem_append_left _ (List.mem_map_of_mem hm), inWindow_enrichMatchedCard hw⟩

/-- **A card statement imports nothing a second time.** -/
theorem ccReimport (db : AccountRows) (first : FreshId db) (masks : List String)
    (account : Option CardAccount) (hfit : CcAmountsFit parsed) :
    NothingToImport (reconcileStatement (afterCcRun db first masks account parsed) masks parsed) := by
  intro entry he
  rw [Bool.eq_false_iff]
  intro hi
  obtain ⟨amount, date, hp, habsent⟩ := absent_of_importable he hi
  have hl : entry.line ∈ stmtLines parsed :=
    (reconciliation_perm _ masks parsed).subset (List.mem_append_right _ (List.mem_map_of_mem he))
  obtain ⟨dbTxn, hm, hw⟩ := exists_blocker first account hfit hl hp
  exact habsent dbTxn hm hw

end

/-! ### What a bank row is held by -/

section

variable {db : AccountRows} {holder : List String} {parsed : ParsedBankStatement} {row : BankRow}
  {dbTxn : Transaction}

/-- The transaction keeps the row from being imported. -/
def Candidate (holder : List String) (row : BankRow) (dbTxn : Transaction) : Prop :=
  SharesReference row.txn dbTxn ∨ CompatibleInWindow holder row dbTxn

/-- Both references are known, and they are not one. -/
def ReferencesDiffer (txn : BankTransaction) (dbTxn : Transaction) : Prop :=
  txn.referenceNumber.getD "" ≠ "" ∧ dbTxn.referenceNumber.getD "" ≠ "" ∧
    txn.referenceNumber.getD "" ≠ dbTxn.referenceNumber.getD ""

/-- What a text can still show when the references differ. -/
def textEvidence (holder : List String) (txn : BankTransaction) (dbTxn : Transaction) : Bool :=
  hasReferenceEvidence txn dbTxn || sharesUpiToken holder txn dbTxn

omit [UnicodeTables] [NarrationTables] in
/-- Compatible: one reference; or no contradiction of balances, and a reference unknown or,
on the day itself, evidence in a text. -/
theorem compatible_iff {txn : BankTransaction} {off : Bool} :
    isStatementCandidateCompatible holder txn dbTxn off = true ↔
      (txn.referenceNumber.getD "" ≠ "" ∧ dbTxn.referenceNumber.getD "" ≠ "" ∧
          txn.referenceNumber.getD "" = dbTxn.referenceNumber.getD "") ∨
        (knownBalanceCompatible dbTxn.balance txn.balance = true ∧
          (ReferencesDiffer txn dbTxn → off = false ∧ textEvidence holder txn dbTxn = true)) := by
  unfold isStatementCandidateCompatible ReferencesDiffer textEvidence
  dsimp only
  by_cases hs : txn.referenceNumber.getD "" = ""
  · simp [hs]
  by_cases hc : dbTxn.referenceNumber.getD "" = ""
  · simp [hc]
  by_cases he : txn.referenceNumber.getD "" = dbTxn.referenceNumber.getD ""
  · simp [hc, he]
  · cases off <;> simp [hs, hc, he]

/-- The run takes the evidence away: the references differ, and the text that is there
once the matches are enriched shows nothing. -/
def LosesEvidence (holder : List String) (recon : BankReconciliation) (row : BankRow)
    (dbTxn : Transaction) : Prop :=
  ReferencesDiffer row.txn dbTxn ∧
    textEvidence holder row.txn (enrichMatchedBank recon dbTxn) = false

/-- Enrichment leaves a candidate one, unless it takes the evidence away. -/
theorem candidate_enriched_iff {recon : BankReconciliation} (h : Candidate holder row dbTxn) :
    Candidate holder row (enrichMatchedBank recon dbTxn) ↔
      ¬ LosesEvidence holder recon row dbTxn := by
  have hloses : LosesEvidence holder recon row dbTxn ↔ ReferencesDiffer row.txn dbTxn ∧
      textEvidence holder row.txn (enrichMatchedBank recon dbTxn) = false := Iff.rfl
  rw [hloses]
  obtain ⟨counterparty, rawDescription, he⟩ := enrichMatchedBank_eq recon dbTxn
  rw [he]
  constructor
  · rintro hc ⟨hdiff, htext⟩
    rcases hc with hs | ⟨day, hw, hk, hcomp⟩
    · exact hdiff.2.2 (congrArg (·.getD "") hs.2.1).symm
    · rcases compatible_iff.mp hcomp with heq | ⟨-, hfar⟩
      · exact hdiff.2.2 heq.2.2
      · rw [(hfar hdiff).2] at htext
        cases htext
  · intro hkeep
    rcases h with hs | ⟨day, hw, hk, hcomp⟩
    · exact .inl hs
    · refine .inr ⟨day, hw, hk, compatible_iff.mpr ?_⟩
      rcases compatible_iff.mp hcomp with heq | ⟨hbalance, hfar⟩
      · exact .inl heq
      · refine .inr ⟨hbalance, fun hdiff => ⟨(hfar hdiff).1, ?_⟩⟩
        by_contra htext
        exact hkeep ⟨hdiff, Bool.eq_false_iff.mpr htext⟩

/-! ### What the run inserts -/

/-- The amounts that can be read are numbers that fit the column. -/
def BankAmountsFit (parsed : ParsedBankStatement) : Prop :=
  ∀ row ∈ parsedRows parsed, ∃ value, row.amount = .finite value ∧ quantize value = value

omit [UnicodeTables] [NarrationTables] in
/-- What a row is a candidate for does not turn on its id. -/
theorem candidate_insertedRow {data : TxnData} {id id' : Nat} :
    Candidate holder row (insertedRow data id) ↔ Candidate holder row (insertedRow data id') :=
  Iff.rfl

omit [UnicodeTables] [NarrationTables] in
/-- An inserted row is a candidate of its own row. -/
theorem candidate_own {value : Rat} (accountBank : String) (ha : row.amount = .finite value)
    (hq : quantize value = value) :
    ∃ data, bankTxnData accountBank parsed row = some data ∧
      Candidate holder row (insertedRow data 0) := by
  refine ⟨_, by rw [bankTxnData, ha], ?_⟩
  by_cases href : row.txn.referenceNumber.getD "" = ""
  · refine .inr ⟨row.txnDate, withinADay_iff.mpr ⟨0, by decide, by omega⟩, ⟨rfl, ?_, rfl⟩, ?_⟩
    · rw [ha]
      exact congrArg Amount.finite hq
    · exact compatible_iff.mpr (.inr ⟨rfl, fun hdiff => absurd href hdiff.1⟩)
  · exact .inl ⟨href, rfl, rfl⟩

omit [NarrationTables] in
theorem candidateSet_ne_nil_of_bankMatched {entry : BankMatchedEntry}
    (h : entry ∈ (reconcileBankStatement db parsed).matched) :
    bankCandidateSet db (holderNameTokens parsed.accountHolderName) entry.row ≠ [] := by
  obtain ⟨claim, hm, hrow, -⟩ := (reconcileBankStatement_partition db parsed).matched_claims entry h
  rw [← hrow]
  exact List.ne_nil_of_mem (mem_candidates_of_contention (claim_spec hm).2.2)

omit [NarrationTables] in
/-- A row that could be read is matched, or missing under its line. -/
theorem matched_or_missing (db : AccountRows) (hr : row ∈ parsedRows parsed) :
    bankCandidateSet db (holderNameTokens parsed.accountHolderName) row ≠ [] ∨
      ∃ entry ∈ (reconcileBankStatement db parsed).missing, entry.line = row.toBankLine := by
  obtain ⟨hl, hread⟩ := readRow_of_mem hr
  have hp := (reconcileBankStatement_partition db parsed).lines.symm.subset hl
  rcases List.mem_append.mp hp with h | h
  · obtain ⟨entry, hm, hline⟩ := List.mem_map.mp h
    have hentry : entry.row = row := by
      obtain ⟨other, ho, hs⟩ := List.mem_filterMap.mp hm
      obtain ⟨claim, -, rfl⟩ := Option.map_eq_some_iff.mp hs
      have hother := (readRow_of_mem ho).2
      rw [show other.toBankLine = row.toBankLine from hline, hread] at hother
      exact (Option.some.inj hother).symm
    exact .inl (hentry ▸ candidateSet_ne_nil_of_bankMatched hm)
  · exact .inr (List.mem_map.mp h)

omit [NarrationTables] in
theorem line_mem_of_missing {entry : BankMissingEntry}
    (h : entry ∈ (reconcileBankStatement db parsed).missing) : entry.line ∈ bankLines parsed :=
  (reconcileBankStatement_partition db parsed).lines.subset
    (List.mem_append_right _ (List.mem_map_of_mem h))

omit [NarrationTables] in
/-- The rows that are importable are those nothing in the account could be. -/
theorem importable_bank_iff :
    (∃ entry ∈ (reconcileBankStatement db parsed).missing,
        entry.importable = true ∧ readRow entry.line = some row) ↔
      row ∈ parsedRows parsed ∧
        bankCandidateSet db (holderNameTokens parsed.accountHolderName) row = [] := by
  have hiff := (reconcileBankStatement_partition db parsed).importable_iff
  constructor
  · rintro ⟨entry, hm, hi, hread⟩
    refine ⟨List.mem_filterMap.mpr ⟨entry.line, line_mem_of_missing hm, hread⟩, ?_⟩
    exact bankCandidateSet_eq_nil_iff.mpr ((hiff entry hm row hread).mp hi)
  · rintro ⟨hr, he⟩
    rcases matched_or_missing db hr with hne | ⟨entry, hm, hline⟩
    · exact absurd he hne
    · have hread : readRow entry.line = some row := hline ▸ (readRow_of_mem hr).2
      exact ⟨entry, hm, (hiff entry hm row hread).mpr (bankCandidateSet_eq_nil_iff.mp he), hread⟩

/-- A second reconciliation has nothing to import. -/
def NothingToImportBank (recon : BankReconciliation) : Prop :=
  ∀ entry ∈ recon.missing, entry.importable = false

omit [NarrationTables] in
theorem nothingToImportBank_iff :
    NothingToImportBank (reconcileBankStatement db parsed) ↔
      ∀ row ∈ parsedRows parsed, ∃ dbTxn ∈ db.rows,
        Candidate (holderNameTokens parsed.accountHolderName) row dbTxn := by
  constructor
  · intro h row hr
    by_contra hnone
    have he : bankCandidateSet db (holderNameTokens parsed.accountHolderName) row = [] := by
      refine bankCandidateSet_eq_nil_iff.mpr fun dbTxn hm => ?_
      exact ⟨fun hs => hnone ⟨dbTxn, hm, .inl hs⟩, fun hc => hnone ⟨dbTxn, hm, .inr hc⟩⟩
    obtain ⟨entry, hm, hi, -⟩ := importable_bank_iff.mpr ⟨hr, he⟩
    rw [h entry hm] at hi
    cases hi
  · intro h entry hm
    rw [Bool.eq_false_iff]
    intro hi
    have hread := hi
    rw [BankMissingEntry.importable, Bool.and_eq_true] at hread
    obtain ⟨row, hrow⟩ := Option.isSome_iff_exists.mp hread.2
    obtain ⟨hr, he⟩ := importable_bank_iff.mp ⟨entry, hm, hi, hrow⟩
    obtain ⟨dbTxn, hdb, hc⟩ := h row hr
    have habsent := bankCandidateSet_eq_nil_iff.mp he dbTxn hdb
    rcases hc with hs | hc
    · exact habsent.1 hs
    · exact habsent.2 hc

omit [NarrationTables] in
theorem mem_importMissingBankTxns {accountBank : String} {data : TxnData} :
    data ∈ importMissingBankTxns accountBank parsed (reconcileBankStatement db parsed) ↔
      ∃ row ∈ parsedRows parsed,
        bankCandidateSet db (holderNameTokens parsed.accountHolderName) row = [] ∧
          bankTxnData accountBank parsed row = some data := by
  simp only [importMissingBankTxns, List.mem_filterMap, List.mem_filter]
  constructor
  · rintro ⟨row, ⟨entry, ⟨hm, hi⟩, hread⟩, hd⟩
    obtain ⟨hr, he⟩ := importable_bank_iff.mp ⟨entry, hm, hi, hread⟩
    exact ⟨row, hr, he, hd⟩
  · rintro ⟨row, hr, he, hd⟩
    obtain ⟨entry, hm, hi, hread⟩ := importable_bank_iff.mpr ⟨hr, he⟩
    exact ⟨row, ⟨entry, ⟨hm, hi⟩, hread⟩, hd⟩

/-! ### Bank statements -/

/-- A row another import of the run, or a text enrichment wrote, comes to block. -/
def BlockedAnew (db : AccountRows) (accountBank : String) (parsed : ParsedBankStatement)
    (row : BankRow) : Prop :=
  (∃ dbTxn ∈ db.rows,
      ¬ Candidate (holderNameTokens parsed.accountHolderName) row dbTxn ∧
        Candidate (holderNameTokens parsed.accountHolderName) row
          (enrichMatchedBank (reconcileBankStatement db parsed) dbTxn)) ∨
    ∃ other ∈ parsedRows parsed,
      bankCandidateSet db (holderNameTokens parsed.accountHolderName) other = [] ∧
        ∃ data, bankTxnData accountBank parsed other = some data ∧
          Candidate (holderNameTokens parsed.accountHolderName) row (insertedRow data 0)

/-- After a run a row has a candidate when the enriched account or an insert has one. -/
theorem exists_candidate_afterBankRun (first : FreshId db) (accountBank : String) :
    (∃ dbTxn ∈ (afterBankRun db first accountBank parsed).rows,
        Candidate (holderNameTokens parsed.accountHolderName) row dbTxn) ↔
      (∃ dbTxn ∈ db.rows, Candidate (holderNameTokens parsed.accountHolderName) row
        (enrichMatchedBank (reconcileBankStatement db parsed) dbTxn)) ∨
      ∃ other ∈ parsedRows parsed,
        bankCandidateSet db (holderNameTokens parsed.accountHolderName) other = [] ∧
          ∃ data, bankTxnData accountBank parsed other = some data ∧
            Candidate (holderNameTokens parsed.accountHolderName) row (insertedRow data 0) := by
  constructor
  · rintro ⟨dbTxn, hm, hc⟩
    rcases List.mem_append.mp hm with hm | hm
    · obtain ⟨old, ho, rfl⟩ := List.mem_map.mp hm
      exact .inl ⟨old, ho, hc⟩
    · obtain ⟨data, hd, id, -, rfl⟩ := AccountRows.mem_inserted hm
      obtain ⟨other, ho, he, hdata⟩ := mem_importMissingBankTxns.mp hd
      exact .inr ⟨other, ho, he, data, hdata, candidate_insertedRow.mp hc⟩
  · rintro (⟨old, ho, hc⟩ | ⟨other, ho, he, data, hdata, hc⟩)
    · exact ⟨_, List.mem_append_left _ (List.mem_map_of_mem ho), hc⟩
    · obtain ⟨id, hnew⟩ := AccountRows.exists_inserted first.1
        (mem_importMissingBankTxns.mpr ⟨other, ho, he, hdata⟩)
      exact ⟨insertedRow data id, List.mem_append_right _ hnew, candidate_insertedRow.mp hc⟩

/-- Every row something in the account could be keeps a candidate whose evidence the run
leaves, or is blocked anew. -/
def KeepsCandidates (db : AccountRows) (accountBank : String) (parsed : ParsedBankStatement) :
    Prop :=
  ∀ row ∈ parsedRows parsed,
    (∃ dbTxn ∈ db.rows, Candidate (holderNameTokens parsed.accountHolderName) row dbTxn) →
      (∃ dbTxn ∈ db.rows, Candidate (holderNameTokens parsed.accountHolderName) row dbTxn ∧
        ¬ LosesEvidence (holderNameTokens parsed.accountHolderName)
          (reconcileBankStatement db parsed) row dbTxn) ∨
      BlockedAnew db accountBank parsed row

/-- **A bank statement imports nothing a second time exactly when every row keeps a
candidate.** -/
theorem bankReimport_iff (db : AccountRows) (first : FreshId db) (accountBank : String)
    (hfit : BankAmountsFit parsed) :
    NothingToImportBank (reconcileBankStatement (afterBankRun db first accountBank parsed) parsed) ↔
      KeepsCandidates db accountBank parsed := by
  rw [nothingToImportBank_iff]
  refine forall₂_congr fun row hr => ?_
  rw [exists_candidate_afterBankRun]
  constructor
  · rintro (⟨old, ho, hc⟩ | hnew) -
    · by_cases hold : Candidate (holderNameTokens parsed.accountHolderName) row old
      · exact .inl ⟨old, ho, hold, (candidate_enriched_iff hold).mp hc⟩
      · exact .inr (.inl ⟨old, ho, hold, hc⟩)
    · exact .inr (.inr hnew)
  · intro h
    by_cases hhas : ∃ dbTxn ∈ db.rows, Candidate (holderNameTokens parsed.accountHolderName) row dbTxn
    · rcases h hhas with ⟨old, ho, hold, hkeep⟩ | ⟨old, ho, -, hc⟩ | hnew
      · exact .inl ⟨old, ho, (candidate_enriched_iff hold).mpr hkeep⟩
      · exact .inl ⟨old, ho, hc⟩
      · exact .inr hnew
    · -- Nothing could be the row: it was imported, and blocks itself.
      obtain ⟨value, ha, hq⟩ := hfit row hr
      obtain ⟨data, hdata, hc⟩ := candidate_own accountBank ha hq
      refine .inr ⟨row, hr, bankCandidateSet_eq_nil_iff.mpr fun dbTxn hm => ?_, data, hdata, hc⟩
      exact ⟨fun hs => hhas ⟨dbTxn, hm, .inl hs⟩, fun hc => hhas ⟨dbTxn, hm, .inr hc⟩⟩

end

/-- **When a statement imports nothing a second time**: a card statement always, a bank
statement exactly when every row keeps a candidate. -/
theorem reimport_iff :
    (∀ (db : AccountRows) (first : FreshId db) (masks : List String)
        (account : Option CardAccount) (parsed : ParsedCcStatement), CcAmountsFit parsed →
          NothingToImport
            (reconcileStatement (afterCcRun db first masks account parsed) masks parsed)) ∧
      ∀ (db : AccountRows) (first : FreshId db) (accountBank : String)
        (parsed : ParsedBankStatement), BankAmountsFit parsed →
          (NothingToImportBank
              (reconcileBankStatement (afterBankRun db first accountBank parsed) parsed) ↔
            KeepsCandidates db accountBank parsed) :=
  ⟨fun db first masks account _ hfit => ccReimport db first masks account hfit,
    fun db first accountBank _ hfit => bankReimport_iff db first accountBank hfit⟩

omit [UnicodeTables] [NarrationTables] [Readers]

/-- A payment, as the bank's statement and as an alert has it: each with a reference of
its own, and the statement's in the counterparty of the alert. -/
def upiStatement : ParsedBankStatement where
  bank := some "hdfc"
  accountNumber := some "XX1234"
  accountHolderName := none
  transactions :=
    [{ date := "05/01/2026", amount := "450.00", direction := .debit
       narration := some "UPI payment to Swiggy", counterparty := none
       referenceNumber := some "123456789012", channel := none, balance := none }]

def upiAlert : AccountRows where
  rows :=
    [{ alertRow 1 (ordinal 2026 1 5) 450 .debit "UPI/123456789012/Swiggy" with
        referenceNumber := some "999999999999" }]
  nodup_ids := by decide

/-- Enriched, the alert no longer shows the reference it was matched on, and the payment
is imported beside it. -/
theorem payment_imported_again :
    let _ := asciiTables
    let _ := asciiNarration
    let _ := plainReaders
    let first : FreshId upiAlert := ⟨2, by decide⟩
    BankAmountsFit upiStatement ∧
      (reconcileBankStatement upiAlert upiStatement).missing.length = 0 ∧
      ¬ NothingToImportBank
        (reconcileBankStatement (afterBankRun upiAlert first "hdfc" upiStatement) upiStatement) := by
  intro _ _ _ first
  refine ⟨fun row hr => ?_, by decide +kernel, fun h => ?_⟩
  · have hamount : ∀ row ∈ parsedRows upiStatement, row.amount = .finite 450 := by decide +kernel
    exact ⟨450, hamount row hr, by decide +kernel⟩
  · have hagain : ∃ entry ∈ (reconcileBankStatement
        (afterBankRun upiAlert first "hdfc" upiStatement) upiStatement).missing,
          entry.importable = true := by decide +kernel
    obtain ⟨entry, hm, hi⟩ := hagain
    rw [h entry hm] at hi
    cases hi

theorem reimport_iff_swiggy :
    let _ := asciiTables
    let _ := asciiNarration
    let _ := plainReaders
    let first : FreshId oneAlert := ⟨2, by decide⟩
    NothingToImport
        (reconcileStatement (afterCcRun oneAlert first [] none twoPurchases) [] twoPurchases) ∧
      NothingToImportBank
        (reconcileBankStatement (afterBankRun oneAlert first "hdfc" upiStatement) upiStatement) := by
  intro _ _ _ first
  constructor
  · refine reimport_iff.1 oneAlert first [] none twoPurchases fun line hl amount date hi => ?_
    have hamount : ∀ line ∈ stmtLines twoPurchases,
        (identity line.txn).map Prod.fst = some (.finite 450) := by decide +kernel
    have ha := hamount line hl
    rw [hi] at ha
    exact ⟨450, Option.some.inj ha, by decide +kernel⟩
  · refine (reimport_iff.2 oneAlert first "hdfc" upiStatement fun row hr => ?_).mpr ?_
    · have hamount : ∀ row ∈ parsedRows upiStatement, row.amount = .finite 450 := by
        decide +kernel
      exact ⟨450, hamount row hr, by decide +kernel⟩
    · -- The alert has no reference that could differ.
      rintro row - ⟨dbTxn, hm, hc⟩
      refine .inl ⟨dbTxn, hm, hc, fun hl => ?_⟩
      rw [List.mem_singleton.mp hm] at hl
      exact hl.1.2.1 rfl

end FinancialDashboard.Statements
