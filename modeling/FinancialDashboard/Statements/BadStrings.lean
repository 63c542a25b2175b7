import FinancialDashboard.Statements.ReadErrors
import FinancialDashboard.Statements.Renumbering

/-!
# One bad string

A statement is reconciled and what it misses is imported.  A row whose amount or date
cannot be read should be missing and skipped, and the other rows should come out as if it
were absent, but for their numbers.

* `returns_cc`, `returns_bank`: what a string has to be for no exception to escape.
* `absent_cc`, `absent_bank`: a run that returns is one without its bad rows.
* `isolated_iff`: when one bad string blocks nothing.
* `blocked_by_amount`: an amount that is no number ends the import of a card statement.

The rows of a card statement are those that are no ledger twins, which it drops unread.
-/

namespace FinancialDashboard.Statements

open PyText Transactions FirstCome Posting

/-! ### Card statements -/

section

variable [UnicodeTables] [NarrationTables] [RaisingReaders] {σ : Type} {db : AccountRows}
  {masks : List String} {insert : σ → StmtTxn → Amount × Int → σ × Inserted} {session : σ}
  {statement shorter : CcStatement} {report : CcReport σ} {bad : Line}

/-- Nothing in the statement ends its import. -/
structure CcReadable (statement : CcStatement) : Prop where
  amounts : ∀ row ∈ stmtTxns statement.toParsedCcStatement,
    (parseAmount row.txn.amount).isSome = true
  dates : ∀ row ∈ stmtTxns statement.toParsedCcStatement, dateOverflows row.txn.date = false
  adjustments : ∀ txn ∈ adjustmentRows (·.debit) statement.possibleAdjustmentPairs ++
      adjustmentRows (·.credit) statement.possibleAdjustmentPairs,
    (parseAmount (orZero (some txn.amount))).isSome = true

/-- A statement with the rows of another but for the one with number `k`. -/
structure CcWithout (statement : CcStatement) (k : Nat) (shorter : CcStatement) : Prop where
  rows : stmtTxns shorter.toParsedCcStatement = (stmtTxns statement.toParsedCcStatement).eraseIdx k
  bank : shorter.bank = statement.bank
  pairs : shorter.possibleAdjustmentPairs = statement.possibleAdjustmentPairs

/-- What the report says of the other rows. -/
def CcReport.without (report : CcReport σ) (bad : Line) : CcReport σ :=
  { report with missing := report.missing.filter (·.1.line ≠ bad) }

def CcReport.renumber (ρ : Nat → Nat) (report : CcReport σ) : CcReport σ :=
  { report with
    matched := report.matched.map (MatchedEntry.renumber ρ)
    missing := report.missing.map (Prod.map (MissingEntry.renumber ρ) id) }

/-- One bad string blocks nothing: the run returns, the rows that cannot be read are missing
and skipped, and without one of them the others come out alike. -/
structure CcIsolated (db : AccountRows) (masks : List String)
    (insert : σ → StmtTxn → Amount × Int → σ × Inserted) (session : σ) (statement : CcStatement) :
    Prop where
  returns : ∃ report, runCc db masks insert session statement = .ok report
  skipped : ∀ report, runCc db masks insert session statement = .ok report →
    ((report.missing.filter (·.2 = .unparseable)).map (·.1.line)).Perm
      ((stmtLines statement.toParsedCcStatement).filter fun line => (identity line.txn).isNone)
  absent : ∀ report, runCc db masks insert session statement = .ok report →
    ∀ bad ∈ stmtLines statement.toParsedCcStatement, identity bad.txn = none →
      ∀ shorter, CcWithout statement bad.stmtIdx shorter →
        ∃ other, runCc db masks insert session shorter = .ok other ∧
          report.without bad = other.renumber (shift bad.stmtIdx)

theorem reconcileCcStatement_eq_ok {reconciled : CcReconciled}
    (h : reconcileCcStatement db masks statement = .ok reconciled) :
    reconciled.recon = reconcileStatement db masks statement.toParsedCcStatement ∧
      (∀ line ∈ stmtLines statement.toParsedCcStatement,
        ∃ o, attempt reconcileCatches (readTexts line.txn.amount line.txn.date) = .ok o) ∧
      adjustmentAmounts (·.debit) statement.possibleAdjustmentPairs =
        .ok reconciled.adjustmentsDebit ∧
      adjustmentAmounts (·.credit) statement.possibleAdjustmentPairs =
        .ok reconciled.adjustmentsCredit := by
  obtain ⟨texts, htexts, h⟩ := bind_eq_ok.mp h
  obtain ⟨debits, hdebits, h⟩ := bind_eq_ok.mp h
  obtain ⟨credits, hcredits, h⟩ := bind_eq_ok.mp h
  cases h
  refine ⟨rfl, fun line hline => ?_, hdebits, hcredits⟩
  obtain ⟨o, -, ho⟩ := exists_right (forall₂_of_mapM htexts) hline
  exact ⟨o, ho⟩

theorem runCc_eq_ok (h : runCc db masks insert session statement = .ok report) :
    ∃ reconciled, reconcileCcStatement db masks statement = .ok reconciled ∧
      (ccImporter insert).importEntries session reconciled.recon.missing =
        .ok (report.session, report.missing) ∧
      report.matched = reconciled.recon.matched ∧
      report.adjustmentsDebit = reconciled.adjustmentsDebit ∧
      report.adjustmentsCredit = reconciled.adjustmentsCredit := by
  obtain ⟨reconciled, hreconciled, h⟩ := bind_eq_ok.mp h
  obtain ⟨done, hdone, h⟩ := bind_eq_ok.mp h
  cases h
  exact ⟨reconciled, hreconciled, hdone, rfl, rfl, rfl⟩

omit [NarrationTables] [RaisingReaders] in
/-- Card rows are numbered as they stand. -/
theorem lines_without (h : CcWithout statement bad.stmtIdx shorter)
    (hbad : bad ∈ stmtLines statement.toParsedCcStatement) :
    (stmtLines shorter.toParsedCcStatement).map (Line.renumber (shift bad.stmtIdx)) =
      (stmtLines statement.toParsedCcStatement).filter (· ≠ bad) := by
  have hzip := zipIdx_eraseIdx (stmtTxns statement.toParsedCcStatement) bad.stmtIdx 0
  rw [← h.rows, Nat.zero_add] at hzip
  have hlines : (stmtLines statement.toParsedCcStatement).filter (· ≠ bad) =
      (stmtLines statement.toParsedCcStatement).filter (·.stmtIdx ≠ bad.stmtIdx) :=
    List.filter_congr fun line hline => decide_eq_decide.mpr (not_congr
      ⟨fun heq => heq ▸ rfl, fun hidx => line_eq_of_stmtIdx hline hbad hidx⟩)
  rw [hlines, stmtLines, stmtLines, List.map_map, List.filter_map]
  change _ = List.map _ (List.filter (fun entry : StmtTxn × Nat =>
    decide (entry.2 ≠ bad.stmtIdx)) _)
  rw [← hzip, List.map_map]
  rfl

/-- A row that cannot be read is missing. -/
theorem missing_of_unread (db : AccountRows) (masks : List String) {line : Line}
    (hline : line ∈ stmtLines statement.toParsedCcStatement)
    (h : identity line.txn = none) :
    ∃ entry ∈ (reconcileStatement db masks statement.toParsedCcStatement).missing,
      entry.line = line := by
  have hmem := (reconciliation_perm db masks statement.toParsedCcStatement).mem_iff.mpr hline
  rcases List.mem_append.mp hmem with hmatched | hmissing
  · obtain ⟨entry, hentry, rfl⟩ := List.mem_map.mp hmatched
    obtain ⟨dbTxn, -, htake⟩ := mayTake_of_matched hentry
    obtain ⟨amount, date, hread, -⟩ := htake.reaches
    rw [hread] at h
    cases h
  · obtain ⟨entry, hentry, rfl⟩ := List.mem_map.mp hmissing
    exact ⟨entry, hentry, rfl⟩

theorem not_ambiguous_of_unread {entry : MissingEntry}
    (hentry : entry ∈ (reconcileStatement db masks statement.toParsedCcStatement).missing)
    (h : identity entry.line.txn = none) : entry.ambiguous = false := by
  rcases List.mem_append.mp ((List.mem_insertionSort _).mp hentry) with hmem | hmem
  · obtain ⟨line, -, rfl⟩ := List.mem_map.mp hmem
    rw [line_missedEntry] at h
    unfold missedEntry
    dsimp only
    rw [h, if_neg (by simp)]
  · -- What was demoted had won a transaction.
    obtain ⟨won, hwon, rfl⟩ := List.mem_map.mp hmem
    obtain ⟨dbTxn, -, htake⟩ :=
      mayTake_of_greedy (mem_contestedEntries.mp (List.mem_of_mem_filter hwon)).1
    obtain ⟨amount, date, hread, -⟩ := htake.reaches
    rw [show (demotedEntry db won).line = won.line from rfl, hread] at h
    cases h

/-- The entries that the import skips, if it returns. -/
theorem skips_iff {entry : MissingEntry}
    (hentry : entry ∈ (reconcileStatement db masks statement.toParsedCcStatement).missing)
    (hpass : (ccImporter insert).Passes entry) :
    (ccImporter insert).Skips entry ↔ identity entry.line.txn = none := by
  constructor
  · rintro ⟨-, hnone⟩
    exact (attempt_eq_ok hnone).symm
  · intro hnone
    have hamb := not_ambiguous_of_unread hentry hnone
    refine ⟨hamb, ?_⟩
    rcases hpass with hyes | ⟨o, ho⟩
    · exact absurd hyes (by rw [show (ccImporter insert).ambiguous entry = false from hamb]; simp)
    · have hread : o = identity entry.line.txn := attempt_eq_ok ho
      rw [hnone] at hread
      rw [ho, hread]

omit [UnicodeTables] [NarrationTables] in
/-- The texts of a pass are all read, or an exception escapes. -/
theorem exists_readAmounts {α : Type} (text : α → String) (rows : List α) :
    (∃ amounts, rows.mapM (fun row => readAmountText (text row)) = .ok amounts) ↔
      ∀ row ∈ rows, (parseAmount (text row)).isSome = true := by
  constructor
  · rintro ⟨amounts, h⟩ row hmem
    obtain ⟨amount, -, hone⟩ := exists_right (forall₂_of_mapM h) hmem
    exact readAmountText_isOk_iff.mp ⟨amount, hone⟩
  · exact fun h => exists_mapM fun row hmem => readAmountText_isOk_iff.mpr (h row hmem)

theorem exists_reconcileCcStatement :
    (∃ reconciled, reconcileCcStatement db masks statement = .ok reconciled) ↔
      (∀ line ∈ stmtLines statement.toParsedCcStatement,
        (parseAmount line.txn.amount).isSome = true → dateOverflows line.txn.date = false) ∧
      ∀ txn ∈ adjustmentRows (·.debit) statement.possibleAdjustmentPairs ++
          adjustmentRows (·.credit) statement.possibleAdjustmentPairs,
        (parseAmount (orZero (some txn.amount))).isSome = true := by
  have hattempt : ∀ line : Line,
      (∃ o, attempt reconcileCatches (readTexts line.txn.amount line.txn.date) = .ok o) ↔
        ((parseAmount line.txn.amount).isSome = true → dateOverflows line.txn.date = false) := by
    intro line
    rw [attempt_isOk_iff (by decide) (by decide)]
    exact and_iff_left fun _ => by decide
  constructor
  · rintro ⟨reconciled, h⟩
    obtain ⟨-, hread, hdebit, hcredit⟩ := reconcileCcStatement_eq_ok h
    refine ⟨fun line hline => (hattempt line).mp (hread line hline), fun txn hmem => ?_⟩
    rcases List.mem_append.mp hmem with hmem | hmem
    · exact (exists_readAmounts _ _).mp ⟨_, hdebit⟩ txn hmem
    · exact (exists_readAmounts _ _).mp ⟨_, hcredit⟩ txn hmem
  · rintro ⟨hdates, hadjustments⟩
    obtain ⟨texts, htexts⟩ := exists_mapM fun line hline =>
      (hattempt line).mpr (hdates line hline)
    obtain ⟨debits, hdebits⟩ := (exists_readAmounts _ _).mpr fun txn hmem =>
      hadjustments txn (List.mem_append_left _ hmem)
    obtain ⟨credits, hcredits⟩ := (exists_readAmounts _ _).mpr fun txn hmem =>
      hadjustments txn (List.mem_append_right _ hmem)
    exact ⟨_, bind_eq_ok.mpr ⟨texts, htexts, bind_eq_ok.mpr ⟨debits, hdebits,
      bind_eq_ok.mpr ⟨credits, hcredits, rfl⟩⟩⟩⟩

/-- **When the run of a card statement returns.** -/
theorem returns_cc : (∃ report, runCc db masks insert session statement = .ok report) ↔
    CcReadable statement := by
  have hrow : ∀ row ∈ stmtTxns statement.toParsedCcStatement,
      ∃ line ∈ stmtLines statement.toParsedCcStatement, line.toStmtTxn = row := by
    intro row hmem
    rw [← map_toStmtTxn_stmtLines] at hmem
    exact List.mem_map.mp hmem
  constructor
  · rintro ⟨report, h⟩
    obtain ⟨reconciled, hreconciled, himport, -⟩ := runCc_eq_ok h
    obtain ⟨hdates, hadjustments⟩ := exists_reconcileCcStatement.mp ⟨_, hreconciled⟩
    rw [(reconcileCcStatement_eq_ok hreconciled).1] at himport
    have hpass := Importer.returns_of_importEntries.mp ⟨_, himport⟩
    have hamounts : ∀ line ∈ stmtLines statement.toParsedCcStatement,
        (parseAmount line.txn.amount).isSome = true := by
      intro line hline
      by_contra hno
      have hamount : parseAmount line.txn.amount = none := by simpa using hno
      have hunread : identity line.txn = none := by
        rw [identity, textIdentity, hamount]
      obtain ⟨entry, hentry, rfl⟩ := missing_of_unread db masks hline hunread
      have hamb := not_ambiguous_of_unread hentry hunread
      rcases hpass entry hentry with hyes | hread
      · rw [show (ccImporter insert).ambiguous entry = false from hamb] at hyes
        cases hyes
      · have hread : ∃ o, attempt ccImportCatches
            (readTexts entry.line.txn.amount entry.line.txn.date) = .ok o := hread
        exact absurd (((attempt_isOk_iff (by decide) (by decide)).mp hread).2 hamount) (by decide)
    refine ⟨fun row hmem => ?_, fun row hmem => ?_, hadjustments⟩
    · obtain ⟨line, hline, rfl⟩ := hrow row hmem
      exact hamounts line hline
    · obtain ⟨line, hline, rfl⟩ := hrow row hmem
      exact hdates line hline (hamounts line hline)
  · intro hreadable
    have hline : ∀ line ∈ stmtLines statement.toParsedCcStatement,
        (parseAmount line.txn.amount).isSome = true ∧ dateOverflows line.txn.date = false := by
      intro line hline
      have hmem : line.toStmtTxn ∈ stmtTxns statement.toParsedCcStatement := by
        rw [← map_toStmtTxn_stmtLines]
        exact List.mem_map_of_mem hline
      exact ⟨hreadable.amounts _ hmem, hreadable.dates _ hmem⟩
    obtain ⟨reconciled, hreconciled⟩ := exists_reconcileCcStatement.mpr
      ⟨fun line hmem _ => (hline line hmem).2, hreadable.adjustments⟩
    have hpass : ∀ entry ∈ reconciled.recon.missing, (ccImporter insert).Passes entry := by
      intro entry hentry
      rw [(reconcileCcStatement_eq_ok hreconciled).1] at hentry
      have hmem := (reconciliation_perm db masks statement.toParsedCcStatement).mem_iff.mp
        (List.mem_append_right _ (List.mem_map_of_mem hentry))
      obtain ⟨hamount, hdate⟩ := hline _ hmem
      have hread : ∃ o, attempt ccImportCatches
          (readTexts entry.line.txn.amount entry.line.txn.date) = .ok o := by
        refine (attempt_isOk_iff (by decide) (by decide)).mpr ⟨fun _ => hdate, fun hnone => ?_⟩
        rw [hnone] at hamount
        cases hamount
      exact .inr hread
    obtain ⟨done, hdone⟩ := Importer.returns_of_importEntries.mpr hpass
    exact ⟨_, bind_eq_ok.mpr ⟨reconciled, hreconciled, bind_eq_ok.mpr ⟨done, hdone, rfl⟩⟩⟩

/-- **The rows that cannot be read are those skipped**, each once. -/
theorem skipped_cc (h : runCc db masks insert session statement = .ok report) :
    ((report.missing.filter (·.2 = .unparseable)).map (·.1.line)).Perm
      ((stmtLines statement.toParsedCcStatement).filter fun line =>
        (identity line.txn).isNone) := by
  obtain ⟨reconciled, hreconciled, himport, -⟩ := runCc_eq_ok h
  rw [(reconcileCcStatement_eq_ok hreconciled).1] at himport
  have hskipped : (report.missing.filter (·.2 = .unparseable)).map (·.1) =
      (reconcileStatement db masks statement.toParsedCcStatement).missing.filter
        fun entry => (identity entry.line.txn).isNone := by
    refine Importer.skipped_of_importEntries (fun entry hentry hpass => ?_) himport
    rw [skips_iff hentry hpass, Option.isNone_iff_eq_none]
  have hmatched : ((reconcileStatement db masks statement.toParsedCcStatement).matched.map
      (·.line)).filter (fun line => (identity line.txn).isNone) = [] := by
    refine List.filter_eq_nil_iff.mpr fun line hline hnone => ?_
    obtain ⟨entry, hentry, rfl⟩ := List.mem_map.mp hline
    obtain ⟨dbTxn, -, htake⟩ := mayTake_of_matched hentry
    obtain ⟨amount, date, hread, -⟩ := htake.reaches
    rw [hread] at hnone
    cases hnone
  have hperm := (reconciliation_perm db masks statement.toParsedCcStatement).filter
    fun line => (identity line.txn).isNone
  rw [List.filter_append, hmatched, List.nil_append, List.filter_map] at hperm
  have hlines := congrArg (List.map (·.line)) hskipped
  rw [List.map_map] at hlines
  exact hlines ▸ hperm

/-- **Without a row that cannot be read, the others come out alike.** -/
theorem absent_cc (h : runCc db masks insert session statement = .ok report)
    (hbad : bad ∈ stmtLines statement.toParsedCcStatement) (hunread : identity bad.txn = none)
    (hshorter : CcWithout statement bad.stmtIdx shorter) :
    ∃ other, runCc db masks insert session shorter = .ok other ∧
      report.without bad = other.renumber (shift bad.stmtIdx) := by
  obtain ⟨reconciled, hreconciled, himport, hmatched, hdebit, hcredit⟩ := runCc_eq_ok h
  obtain ⟨hrecon, hread, hdebits, hcredits⟩ := reconcileCcStatement_eq_ok hreconciled
  rw [hrecon] at himport hmatched
  have hlines := lines_without hshorter hbad
  have hk : ∀ line : Line, decide (line ≠ bad) = false → identity line.txn = none := by
    intro line hline
    rw [not_not.mp (of_decide_eq_false hline)]
    exact hunread
  have hσ := shift_strictMono bad.stmtIdx
  have hsame : (reconcileStatement db masks shorter.toParsedCcStatement).matched.map
      (MatchedEntry.renumber (shift bad.stmtIdx)) = report.matched := by
    rw [hmatched]
    unfold reconcileStatement
    dsimp only
    rw [← matched_renumber hσ, hlines, matched_keep hk]
  have hmissing : (reconcileStatement db masks shorter.toParsedCcStatement).missing.map
      (MissingEntry.renumber (shift bad.stmtIdx)) =
        (reconcileStatement db masks statement.toParsedCcStatement).missing.filter
          fun entry => entry.line ≠ bad := by
    unfold reconcileStatement
    dsimp only
    rw [← missing_renumber hσ, hlines, missing_keep hk]
  -- The entry of the bad row is skipped, so the import goes on as without it.
  have hkeep : (ccImporter insert).importEntries session
      ((reconcileStatement db masks statement.toParsedCcStatement).missing.filter
        fun entry => entry.line ≠ bad) =
      .ok (report.session, report.missing.filter fun done => done.1.line ≠ bad) := by
    refine Importer.importEntries_keep (fun entry hentry hdrop => ?_) himport
    have hpass := Importer.returns_of_importEntries.mp ⟨_, himport⟩ entry hentry
    exact (skips_iff hentry hpass).mpr (hk _ hdrop)
  have hblind : (ccImporter insert).Blind (MissingEntry.renumber (shift bad.stmtIdx)) :=
    ⟨fun _ => rfl, fun _ => rfl, fun _ _ _ => rfl⟩
  rw [← hmissing, Importer.importEntries_map hblind] at hkeep
  obtain ⟨⟨session', missing'⟩, himport', heq⟩ := map_eq_ok.mp hkeep
  obtain ⟨hsession, hout⟩ := Prod.mk.inj heq
  obtain ⟨texts, htexts⟩ : ∃ texts, (stmtLines shorter.toParsedCcStatement).mapM (fun line =>
      attempt reconcileCatches (readTexts line.txn.amount line.txn.date)) = .ok texts := by
    refine exists_mapM fun line hline => ?_
    have hmem : line.renumber (shift bad.stmtIdx) ∈
        (stmtLines statement.toParsedCcStatement).filter (· ≠ bad) :=
      hlines ▸ List.mem_map_of_mem hline
    exact hread (line.renumber (shift bad.stmtIdx)) (List.mem_of_mem_filter hmem)
  have hrun : runCc db masks insert session shorter =
      .ok ⟨(reconcileStatement db masks shorter.toParsedCcStatement).matched, missing',
        report.adjustmentsDebit, report.adjustmentsCredit, session'⟩ := by
    refine bind_eq_ok.mpr ⟨⟨reconcileStatement db masks shorter.toParsedCcStatement,
      reconciled.adjustmentsDebit, reconciled.adjustmentsCredit⟩, ?_,
      bind_eq_ok.mpr ⟨_, himport', by rw [hdebit, hcredit]; rfl⟩⟩
    refine bind_eq_ok.mpr ⟨texts, htexts, bind_eq_ok.mpr ⟨_, ?_, bind_eq_ok.mpr ⟨_, ?_, rfl⟩⟩⟩
    · rw [hshorter.pairs, hdebits]
    · rw [hshorter.pairs, hcredits]
  refine ⟨_, hrun, ?_⟩
  unfold CcReport.without CcReport.renumber
  dsimp only
  rw [hsame, ← hout]
  exact congrArg _ hsession.symm

end

/-! ### A card statement without one of its rows -/

section

variable [UnicodeTables] {twins twins' : List TwinKey}

theorem dropClaimedTwins_congr (h : twins.Perm twins') (credits : List CcTransaction) :
    dropClaimedTwins twins credits = dropClaimedTwins twins' credits := by
  induction credits generalizing twins twins' with
  | nil => rfl
  | cons txn rest ih =>
    simp only [dropClaimedTwins, h.mem_iff, ih h, ih (h.erase (ledgerTwinKey txn))]

/-- Without a debit, the credits without the one that claims it. -/
theorem dropClaimedTwins_erase {key : TwinKey} (h : key ∈ twins) (credits : List CcTransaction) :
    ∃ others, dropClaimedTwins (twins.erase key) others = dropClaimedTwins twins credits := by
  induction credits generalizing twins with
  | nil => exact ⟨[], rfl⟩
  | cons txn rest ih =>
    by_cases hclaim : (isInternalTransferCredit txn && ledgerTwinKey txn ∈ twins) = true
    · rw [dropClaimedTwins, if_pos hclaim]
      obtain ⟨htag, hmem⟩ := Bool.and_eq_true_iff.mp hclaim
      by_cases heq : ledgerTwinKey txn = key
      · exact ⟨rest, by rw [heq]⟩
      · obtain ⟨others, hothers⟩ := ih ((List.mem_erase_of_ne (Ne.symm heq)).mpr h)
        have hleft : ledgerTwinKey txn ∈ twins.erase key :=
          (List.mem_erase_of_ne heq).mpr (of_decide_eq_true hmem)
        refine ⟨txn :: others, ?_⟩
        rw [dropClaimedTwins, if_pos (by rw [htag, decide_eq_true hleft]; rfl), List.erase_comm]
        exact hothers
    · obtain ⟨others, hothers⟩ := ih h
      refine ⟨txn :: others, ?_⟩
      have hstill :
          ¬ (isInternalTransferCredit txn && ledgerTwinKey txn ∈ twins.erase key) = true := by
        intro hyes
        obtain ⟨htag, hmem⟩ := Bool.and_eq_true_iff.mp hyes
        refine hclaim ?_
        rw [htag, decide_eq_true (List.mem_of_mem_erase (of_decide_eq_true hmem))]
        rfl
      rw [dropClaimedTwins, dropClaimedTwins, if_neg hclaim, if_neg hstill, hothers]

/-- Without a credit that claims no debit. -/
theorem dropClaimedTwins_eraseIdx (credits : List CcTransaction) (k : Nat) :
    ∃ others, dropClaimedTwins twins others = (dropClaimedTwins twins credits).eraseIdx k := by
  induction credits generalizing twins k with
  | nil => exact ⟨[], rfl⟩
  | cons txn rest ih =>
    by_cases hclaim : (isInternalTransferCredit txn && ledgerTwinKey txn ∈ twins) = true
    · obtain ⟨others, hothers⟩ := @ih (twins.erase (ledgerTwinKey txn)) k
      refine ⟨txn :: others, ?_⟩
      rw [dropClaimedTwins, dropClaimedTwins, if_pos hclaim, if_pos hclaim, hothers]
    · rw [dropClaimedTwins, if_neg hclaim]
      cases k with
      | zero => exact ⟨rest, rfl⟩
      | succ k =>
        obtain ⟨others, hothers⟩ := @ih twins k
        refine ⟨txn :: others, ?_⟩
        rw [dropClaimedTwins, if_neg hclaim, hothers, List.eraseIdx_cons_succ]

/-- **Every row can be absent.** -/
theorem exists_ccWithout (statement : CcStatement) (k : Nat) :
    ∃ shorter, CcWithout statement k shorter := by
  by_cases hk : k < statement.transactions.length
  · let key := ledgerTwinKey (statement.transactions.get ⟨k, hk⟩)
    have hkey : key ∈ statement.transactions.map ledgerTwinKey :=
      List.mem_map_of_mem (List.get_mem _ _)
    obtain ⟨others, hothers⟩ := dropClaimedTwins_erase hkey statement.paymentsRefunds
    have hperm : ((statement.transactions.eraseIdx k).map ledgerTwinKey).Perm
        ((statement.transactions.map ledgerTwinKey).erase key) := by
      refine (List.perm_cons key).mp (List.Perm.trans ?_ (List.perm_cons_erase hkey))
      exact (List.getElem_cons_eraseIdx_perm hk).map ledgerTwinKey
    refine ⟨⟨⟨statement.bank, statement.transactions.eraseIdx k, others⟩,
      statement.possibleAdjustmentPairs⟩, ?_, rfl, rfl⟩
    change stmtTxns ⟨_, _, _⟩ = _
    unfold stmtTxns
    dsimp only
    rw [dropClaimedTwins_congr hperm, hothers,
      List.eraseIdx_append_of_lt_length (by simpa using hk),
      List.eraseIdx_map]
  · obtain ⟨others, hothers⟩ := @dropClaimedTwins_eraseIdx _
      (statement.transactions.map ledgerTwinKey) statement.paymentsRefunds
      (k - statement.transactions.length)
    refine ⟨⟨⟨statement.bank, statement.transactions, others⟩, statement.possibleAdjustmentPairs⟩,
      ?_, rfl, rfl⟩
    change stmtTxns ⟨_, _, _⟩ = _
    unfold stmtTxns
    dsimp only
    rw [hothers, List.eraseIdx_append_of_length_le (by simpa using hk), List.length_map,
      List.eraseIdx_map]

end

/-! ### Bank statements -/

section

variable [UnicodeTables] [RaisingReaders] {σ : Type} {db : AccountRows}
  {insert : σ → BankTransaction → Amount × Int → σ × Inserted} {session : σ}
  {statement shorter : BankStatement} {report : BankReport σ} {bad : BankLine}

/-- Nothing in the statement ends its import. -/
structure BankReadable (statement : BankStatement) : Prop where
  dates : ∀ row ∈ statement.transactions, (parseAmount row.amount).isSome = true →
    dateOverflows row.date = false
  balances : ∀ text ∈ balanceTexts statement, (parseAmount text).isSome = true

/-- The statement without the row with number `k`. -/
def BankStatement.eraseRow (statement : BankStatement) (k : Nat) : BankStatement :=
  { statement with transactions := statement.transactions.eraseIdx k }

def BankReport.without (report : BankReport σ) (bad : BankLine) : BankReport σ :=
  { report with missing := report.missing.filter (·.1.line ≠ bad) }

def BankReport.renumber (ρ : Nat → Nat) (report : BankReport σ) : BankReport σ :=
  { report with
    matched := report.matched.map (BankMatchedEntry.renumber ρ)
    missing := report.missing.map (Prod.map (BankMissingEntry.renumber ρ) id) }

/-- One bad string blocks nothing. -/
structure BankIsolated (db : AccountRows)
    (insert : σ → BankTransaction → Amount × Int → σ × Inserted) (session : σ)
    (statement : BankStatement) : Prop where
  returns : ∃ report, runBank db insert session statement = .ok report
  skipped : ∀ report, runBank db insert session statement = .ok report →
    ((report.missing.filter (·.2 = .unparseable)).map (·.1.line)).Perm
      ((bankLines statement.toParsedBankStatement).filter fun line => (readRow line).isNone)
  absent : ∀ report, runBank db insert session statement = .ok report →
    ∀ bad ∈ bankLines statement.toParsedBankStatement, readRow bad = none →
      ∃ other, runBank db insert session (statement.eraseRow bad.stmtIdx) = .ok other ∧
        report.without bad = other.renumber (shift bad.stmtIdx)

theorem readRow_eq_none_iff {line : BankLine} :
    readRow line = none ↔ textIdentity line.txn.amount line.txn.date = none := by
  unfold readRow textIdentity
  cases parseAmount line.txn.amount <;> cases parseDate line.txn.date <;> simp

theorem exists_bankAttempt (line : BankLine) :
    (∃ o, attempt reconcileCatches (readTexts line.txn.amount line.txn.date) = .ok o) ↔
      ((parseAmount line.txn.amount).isSome = true → dateOverflows line.txn.date = false) := by
  rw [attempt_isOk_iff (by decide) (by decide)]
  exact and_iff_left fun _ => by decide

theorem reconcileBank_eq_ok {reconciled : BankReconciled}
    (h : reconcileBank db statement = .ok reconciled) :
    reconciled.recon = reconcileBankStatement db statement.toParsedBankStatement ∧
      (∀ line ∈ bankLines statement.toParsedBankStatement,
        ∃ o, attempt reconcileCatches (readTexts line.txn.amount line.txn.date) = .ok o) ∧
      (balanceTexts statement).mapM readAmountText = .ok reconciled.balances := by
  obtain ⟨texts, htexts, h⟩ := bind_eq_ok.mp h
  obtain ⟨balances, hbalances, h⟩ := bind_eq_ok.mp h
  cases h
  refine ⟨rfl, fun line hline => ?_, hbalances⟩
  obtain ⟨o, -, ho⟩ := exists_right (forall₂_of_mapM htexts) hline
  exact ⟨o, ho⟩

theorem runBank_eq_ok (h : runBank db insert session statement = .ok report) :
    ∃ reconciled, reconcileBank db statement = .ok reconciled ∧
      (bankImporter insert).importEntries session reconciled.recon.missing =
        .ok (report.session, report.missing) ∧
      report.matched = reconciled.recon.matched ∧ report.balances = reconciled.balances := by
  obtain ⟨reconciled, hreconciled, h⟩ := bind_eq_ok.mp h
  obtain ⟨done, hdone, h⟩ := bind_eq_ok.mp h
  cases h
  exact ⟨reconciled, hreconciled, hdone, rfl, rfl⟩

/-- A missing entry that could not be read is not held back. -/
theorem unread_of_missing {entry : BankMissingEntry}
    (hentry : entry ∈ (reconcileBankStatement db statement.toParsedBankStatement).missing)
    (h : readRow entry.line = none) : entry.ambiguous = false := by
  rcases List.mem_append.mp hentry with hmem | hmem
  · obtain ⟨line, -, rfl⟩ := List.mem_map.mp hmem
    rfl
  · obtain ⟨row, hrow, rfl⟩ := List.mem_map.mp hmem
    have hread := (readRow_of_mem (List.mem_of_mem_filter hrow)).2
    rw [show (bankMissedEntry db _ _ row).line = row.toBankLine from rfl, hread] at h
    cases h

theorem bankSkips_iff {entry : BankMissingEntry}
    (hentry : entry ∈ (reconcileBankStatement db statement.toParsedBankStatement).missing)
    (hpass : (bankImporter insert).Passes entry) :
    (bankImporter insert).Skips entry ↔ readRow entry.line = none := by
  rw [readRow_eq_none_iff]
  constructor
  · rintro ⟨-, hnone⟩
    exact (attempt_eq_ok hnone).symm
  · intro hnone
    have hamb := unread_of_missing hentry (readRow_eq_none_iff.mpr hnone)
    refine ⟨hamb, ?_⟩
    rcases hpass with hyes | ⟨o, ho⟩
    · rw [show (bankImporter insert).ambiguous entry = false from hamb] at hyes
      cases hyes
    · rw [ho, attempt_eq_ok ho, hnone]

omit [UnicodeTables] [RaisingReaders] in
theorem bankLines_eraseRow (hbad : bad ∈ bankLines statement.toParsedBankStatement) :
    (bankLines (statement.eraseRow bad.stmtIdx).toParsedBankStatement).map
        (BankLine.renumber (shift bad.stmtIdx)) =
      (bankLines statement.toParsedBankStatement).filter (· ≠ bad) := by
  have hzip := zipIdx_eraseIdx statement.transactions bad.stmtIdx 0
  rw [Nat.zero_add] at hzip
  have hlines : (bankLines statement.toParsedBankStatement).filter (· ≠ bad) =
      (bankLines statement.toParsedBankStatement).filter (·.stmtIdx ≠ bad.stmtIdx) := by
    refine List.filter_congr fun line hline => decide_eq_decide.mpr (not_congr ?_)
    refine ⟨fun heq => heq ▸ rfl, fun hidx => ?_⟩
    exact List.inj_on_of_nodup_map (nodup_bankStmtIdx _) hline hbad hidx
  rw [hlines, bankLines, bankLines, List.map_map, List.filter_map]
  change _ = List.map _ (List.filter (fun entry : BankTransaction × Nat =>
    decide (entry.2 ≠ bad.stmtIdx)) _)
  rw [← hzip, List.map_map]
  rfl

/-- **When the run of a bank statement returns.** -/
theorem returns_bank : (∃ report, runBank db insert session statement = .ok report) ↔
    BankReadable statement := by
  have hrow : ∀ row ∈ statement.transactions,
      ∃ line ∈ bankLines statement.toParsedBankStatement, line.txn = row := by
    intro row hmem
    have hmap : (bankLines statement.toParsedBankStatement).map (·.txn) =
        statement.transactions := by
      rw [bankLines, List.map_map]
      exact List.zipIdx_map_fst 0 _
    rw [← hmap] at hmem
    exact List.mem_map.mp hmem
  constructor
  · rintro ⟨report, h⟩
    obtain ⟨reconciled, hreconciled, -⟩ := runBank_eq_ok h
    obtain ⟨-, hread, hbalances⟩ := reconcileBank_eq_ok hreconciled
    refine ⟨fun row hmem => ?_, (exists_readAmounts id _).mp ⟨_, hbalances⟩⟩
    obtain ⟨line, hline, rfl⟩ := hrow row hmem
    exact (exists_bankAttempt line).mp (hread line hline)
  · intro hreadable
    have hline : ∀ line ∈ bankLines statement.toParsedBankStatement,
        (parseAmount line.txn.amount).isSome = true → dateOverflows line.txn.date = false := by
      intro line hmem
      obtain ⟨entry, hentry, rfl⟩ := List.mem_map.mp hmem
      obtain ⟨txn, stmtIdx⟩ := entry
      exact hreadable.dates txn (List.fst_mem_of_mem_zipIdx hentry)
    obtain ⟨texts, htexts⟩ := exists_mapM fun line hmem =>
      (exists_bankAttempt line).mpr (hline line hmem)
    obtain ⟨balances, hbalances⟩ := (exists_readAmounts id _).mpr hreadable.balances
    have hpass : ∀ entry ∈ (reconcileBankStatement db statement.toParsedBankStatement).missing,
        (bankImporter insert).Passes entry := by
      intro entry hentry
      have hmem := (bankReconciliation_perm db statement.toParsedBankStatement).mem_iff.mp
        (List.mem_append_right _ (List.mem_map_of_mem hentry))
      have hread : ∃ o, attempt bankImportCatches
          (readTexts entry.line.txn.amount entry.line.txn.date) = .ok o :=
        (attempt_isOk_iff (by decide) (by decide)).mpr ⟨hline _ hmem, fun _ => by decide⟩
      exact .inr hread
    obtain ⟨done, hdone⟩ := Importer.returns_of_importEntries.mpr hpass
    exact ⟨_, bind_eq_ok.mpr ⟨_, bind_eq_ok.mpr ⟨texts, htexts, bind_eq_ok.mpr ⟨balances, hbalances,
      rfl⟩⟩, bind_eq_ok.mpr ⟨done, hdone, rfl⟩⟩⟩

/-- **The rows that cannot be read are those skipped**, each once. -/
theorem skipped_bank (h : runBank db insert session statement = .ok report) :
    ((report.missing.filter (·.2 = .unparseable)).map (·.1.line)).Perm
      ((bankLines statement.toParsedBankStatement).filter fun line => (readRow line).isNone) := by
  obtain ⟨reconciled, hreconciled, himport, -⟩ := runBank_eq_ok h
  rw [(reconcileBank_eq_ok hreconciled).1] at himport
  have hskipped : (report.missing.filter (·.2 = .unparseable)).map (·.1) =
      (reconcileBankStatement db statement.toParsedBankStatement).missing.filter
        fun entry => (readRow entry.line).isNone := by
    refine Importer.skipped_of_importEntries (fun entry hentry hpass => ?_) himport
    rw [bankSkips_iff hentry hpass, Option.isNone_iff_eq_none]
  have hmatched : ((reconcileBankStatement db statement.toParsedBankStatement).matched.map
      (·.row.toBankLine)).filter (fun line => (readRow line).isNone) = [] := by
    refine List.filter_eq_nil_iff.mpr fun line hline hnone => ?_
    obtain ⟨entry, hentry, rfl⟩ := List.mem_map.mp hline
    obtain ⟨row, hrow, hone⟩ := List.mem_filterMap.mp hentry
    obtain ⟨claim, -, rfl⟩ := Option.map_eq_some_iff.mp hone
    rw [show (bankMatchedEntry db _ _ row claim.2).row = row from rfl,
      (readRow_of_mem hrow).2] at hnone
    cases hnone
  have hperm := (bankReconciliation_perm db statement.toParsedBankStatement).filter
    fun line => (readRow line).isNone
  rw [List.filter_append, hmatched, List.nil_append, List.filter_map] at hperm
  have hlines := congrArg (List.map (·.line)) hskipped
  rw [List.map_map] at hlines
  exact hlines ▸ hperm

/-- The rows of a bank statement without one that cannot be read. -/
theorem parsedRows_eraseRow (hbad : bad ∈ bankLines statement.toParsedBankStatement)
    (hunread : readRow bad = none) :
    (parsedRows (statement.eraseRow bad.stmtIdx).toParsedBankStatement).map
        (BankRow.renumber (shift bad.stmtIdx)) =
      parsedRows statement.toParsedBankStatement := by
  have hread : readRow ∘ BankLine.renumber (shift bad.stmtIdx) =
      fun line => (readRow line).map (BankRow.renumber (shift bad.stmtIdx)) :=
    funext readRow_renumber
  have hrows := congrArg (List.filterMap readRow) (bankLines_eraseRow hbad)
  rw [List.filterMap_map, hread] at hrows
  rw [parsedRows, List.map_filterMap, hrows, parsedRows, List.filterMap_filter]
  refine List.filterMap_congr fun line _ => ?_
  by_cases heq : line = bad
  · rw [heq, hunread]
    simp
  · simp [heq]

theorem bankMatched_eraseRow (hbad : bad ∈ bankLines statement.toParsedBankStatement)
    (hunread : readRow bad = none) :
    (reconcileBankStatement db (statement.eraseRow bad.stmtIdx).toParsedBankStatement).matched.map
        (BankMatchedEntry.renumber (shift bad.stmtIdx)) =
      (reconcileBankStatement db statement.toParsedBankStatement).matched := by
  unfold reconcileBankStatement
  dsimp only
  rw [← bankMatched_renumber (shift_strictMono _), parsedRows_eraseRow hbad hunread]
  rfl

theorem bankMissing_eraseRow (hbad : bad ∈ bankLines statement.toParsedBankStatement)
    (hunread : readRow bad = none) :
    (reconcileBankStatement db (statement.eraseRow bad.stmtIdx).toParsedBankStatement).missing.map
        (BankMissingEntry.renumber (shift bad.stmtIdx)) =
      (reconcileBankStatement db statement.toParsedBankStatement).missing.filter
        fun entry => entry.line ≠ bad := by
  have hnone : ((bankLines (statement.eraseRow bad.stmtIdx).toParsedBankStatement).filter
      fun line => (readRow line).isNone).map (BankLine.renumber (shift bad.stmtIdx)) =
        ((bankLines statement.toParsedBankStatement).filter
          fun line => (readRow line).isNone).filter (· ≠ bad) := by
    rw [List.filter_comm, ← bankLines_eraseRow hbad, List.filter_map]
    refine congrArg _ (List.filter_congr fun line _ => ?_)
    rw [Function.comp_apply, readRow_renumber, Option.isNone_map]
  have hread : ∀ row ∈ parsedRows statement.toParsedBankStatement, row.toBankLine ≠ bad := by
    intro row hrow heq
    have hsome := (readRow_of_mem hrow).2
    rw [heq, hunread] at hsome
    cases hsome
  unfold reconcileBankStatement
  dsimp only
  rw [List.map_append, List.filter_append, ← bankMissed_renumber (shift_strictMono _),
    parsedRows_eraseRow hbad hunread, List.map_map]
  refine congr_arg₂ _ ?_ (List.filter_eq_self.mpr fun entry hentry => ?_).symm
  · rw [List.filter_map]
    change List.map (unreadEntry ∘ BankLine.renumber _) _ = List.map _ (List.filter (· ≠ bad) _)
    rw [← hnone, List.map_map]
  · obtain ⟨row, hrow, rfl⟩ := List.mem_map.mp hentry
    exact decide_eq_true (hread row (List.mem_of_mem_filter hrow))

/-- **Without a row that cannot be read, the others come out alike.** -/
theorem absent_bank (h : runBank db insert session statement = .ok report)
    (hbad : bad ∈ bankLines statement.toParsedBankStatement) (hunread : readRow bad = none) :
    ∃ other, runBank db insert session (statement.eraseRow bad.stmtIdx) = .ok other ∧
      report.without bad = other.renumber (shift bad.stmtIdx) := by
  obtain ⟨reconciled, hreconciled, himport, hmatched, hbalances⟩ := runBank_eq_ok h
  obtain ⟨hrecon, hread, hbalance⟩ := reconcileBank_eq_ok hreconciled
  rw [hrecon] at himport hmatched
  have hkeep : (bankImporter insert).importEntries session
      ((reconcileBankStatement db statement.toParsedBankStatement).missing.filter
        fun entry => entry.line ≠ bad) =
      .ok (report.session, report.missing.filter fun done => done.1.line ≠ bad) := by
    refine Importer.importEntries_keep (fun entry hentry hdrop => ?_) himport
    have hpass := Importer.returns_of_importEntries.mp ⟨_, himport⟩ entry hentry
    rw [bankSkips_iff hentry hpass, not_not.mp (of_decide_eq_false hdrop)]
    exact hunread
  have hblind : (bankImporter insert).Blind (BankMissingEntry.renumber (shift bad.stmtIdx)) :=
    ⟨fun _ => rfl, fun _ => rfl, fun _ _ _ => rfl⟩
  rw [← bankMissing_eraseRow hbad hunread, Importer.importEntries_map hblind] at hkeep
  obtain ⟨⟨session', missing'⟩, himport', heq⟩ := map_eq_ok.mp hkeep
  obtain ⟨hsession, hout⟩ := Prod.mk.inj heq
  obtain ⟨texts, htexts⟩ : ∃ texts,
      (bankLines (statement.eraseRow bad.stmtIdx).toParsedBankStatement).mapM (fun line =>
        attempt reconcileCatches (readTexts line.txn.amount line.txn.date)) = .ok texts := by
    refine exists_mapM fun line hline => ?_
    have hmem : line.renumber (shift bad.stmtIdx) ∈
        (bankLines statement.toParsedBankStatement).filter (· ≠ bad) :=
      bankLines_eraseRow hbad ▸ List.mem_map_of_mem hline
    exact hread (line.renumber (shift bad.stmtIdx)) (List.mem_of_mem_filter hmem)
  have hrun : runBank db insert session (statement.eraseRow bad.stmtIdx) =
      .ok ⟨(reconcileBankStatement db
        (statement.eraseRow bad.stmtIdx).toParsedBankStatement).matched, missing', report.balances,
        session'⟩ := by
    refine bind_eq_ok.mpr ⟨⟨reconcileBankStatement db
      (statement.eraseRow bad.stmtIdx).toParsedBankStatement, reconciled.balances⟩, ?_,
      bind_eq_ok.mpr ⟨_, himport', by rw [hbalances]; rfl⟩⟩
    exact bind_eq_ok.mpr ⟨texts, htexts, bind_eq_ok.mpr ⟨_, hbalance, rfl⟩⟩
  refine ⟨_, hrun, ?_⟩
  unfold BankReport.without BankReport.renumber
  dsimp only
  rw [bankMatched_eraseRow hbad hunread, ← hmatched, ← hout]
  exact congrArg _ hsession.symm

end

/-! ### When one bad string blocks nothing -/

section

variable [UnicodeTables] [NarrationTables] [RaisingReaders] {σ : Type}

/-- **One bad string blocks no statement exactly where no reader's exception is left
uncaught.**  A card statement needs every amount readable, those of its adjustments
included, and no date that overflows; a bank statement needs its balances readable, if it
states both, and no date that overflows behind a readable amount. -/
theorem isolated_iff (db : AccountRows) (masks : List String)
    (insertCc : σ → StmtTxn → Amount × Int → σ × Inserted)
    (insertBank : σ → BankTransaction → Amount × Int → σ × Inserted) (session : σ) :
    (∀ statement, CcIsolated db masks insertCc session statement ↔ CcReadable statement) ∧
      ∀ statement, BankIsolated db insertBank session statement ↔ BankReadable statement := by
  refine ⟨fun statement => ⟨fun h => returns_cc.mp h.returns, fun h => ?_⟩,
    fun statement => ⟨fun h => returns_bank.mp h.returns, fun h => ?_⟩⟩
  · exact ⟨returns_cc.mpr h, fun _ => skipped_cc,
      fun _ hrun _ hbad hunread _ hshorter => absent_cc hrun hbad hunread hshorter⟩
  · exact ⟨returns_bank.mpr h, fun _ => skipped_bank,
      fun _ hrun _ hbad hunread => absent_bank hrun hbad hunread⟩

end

/-- The readers of plain texts, which never overflow. -/
@[reducible] def plainRaisingReaders : RaisingReaders where
  decimal := plainDecimal
  dateutil := plainDate
  overflows _ := false

/-- Two purchases; the second has a letter for a digit. -/
def misreadStatement : CcStatement where
  bank := "hdfc"
  transactions :=
    [⟨"05/01/2026", "450.00", "SWIGGY BANGALORE", none, none, none⟩,
      ⟨"07/01/2026", "45O.00", "ZOMATO", none, none, none⟩]
  paymentsRefunds := []
  possibleAdjustmentPairs := []

def noAlerts : AccountRows where
  rows := []
  nodup_ids := List.nodup_nil

/-- The number of inserts, which all succeed. -/
def countInsert (count : Nat) (_ : StmtTxn) (_ : Amount × Int) : Nat × Inserted :=
  (count + 1, .imported count)

/-- The exception that escapes. -/
def escaped {α : Type} (run : Except ReadError α) : Option ReadError :=
  match run with
  | .ok _ => none
  | .error e => some e

/-- The first purchase is inserted and lost with the exception of the second. -/
theorem blocked_by_amount :
    escaped (@runCc asciiTables asciiNarration plainRaisingReaders Nat noAlerts [] countInsert 0
        misreadStatement) = some .invalidOperation ∧
      ¬ @CcIsolated asciiTables asciiNarration plainRaisingReaders Nat noAlerts [] countInsert 0
        misreadStatement := by
  have hrun : escaped (@runCc asciiTables asciiNarration plainRaisingReaders Nat noAlerts []
      countInsert 0 misreadStatement) = some .invalidOperation := by decide +kernel
  let _ := asciiTables
  let _ := asciiNarration
  let _ := plainRaisingReaders
  refine ⟨hrun, fun h => ?_⟩
  obtain ⟨report, hreport⟩ := h.returns
  rw [hreport] at hrun
  cases hrun

end FinancialDashboard.Statements
