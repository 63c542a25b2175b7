import FinancialDashboard.Statements.CandidateScope
import Mathlib.Data.Int.ConditionallyCompleteOrder

/-!
# The preview of a reconciliation

`preview_statement_reconciliation` of `services/statement_previews.py` reconciles a stored
statement with the transactions near its dates only (`services/statements/dates.py`), for a
bank statement also with those that share a reference with one of its rows (5000 references
at most), and lists the transactions in the range that no row of the statement can be.  Of
each list the first 100 are shown, and all are counted.  A ledger twin that the card
reconciliation drops is no row of it and is not counted.

The loading of the file, the password and the bounds of the shown texts are left out, and so
is the 422 of a reconciler that raises.  A row's direction is a `Direction`, so no entry
lacks one.

* `previewCcReconciliation_spec`: the preview of a card statement tells what reconciling it
  with the whole account tells, and so does a retry.
* `previewBankReconciliation_spec`: for a bank statement whose rows are dated near its range,
  the window and the references are enough.
-/

namespace FinancialDashboard.Statements

open PyText Transactions FirstCome

/-! ### The dates of a statement -/

/-- `(min(dates), max(dates)) if dates else None`. -/
def dateSpan : List Int → Option (Int × Int)
  | [] => none
  | date :: rest => some (rest.foldl min date, rest.foldl max date)

def stmtReconcileDateBufferDays : Int := 7

/-- `Transaction.transaction_date.between(lo - buffer, hi + buffer)`. -/
def inBuffer (range : Int × Int) (row : Transaction) : Bool :=
  row.transactionDate.any fun date =>
    range.1 - stmtReconcileDateBufferDays ≤ date && date ≤ range.2 + stmtReconcileDateBufferDays

/-! ### The response -/

def rowLimit : Nat := 100

def referenceLimit : Nat := 5000

/-- What the index reads of an entry. -/
structure StatedRow where
  direction : Direction
  amount : String
  date : String

structure CandidateIndex where
  identities : List (String × Amount × Int)
  uncertainDirections : List String

section

variable [UnicodeTables] [Readers]

def StatedRow.identity (entry : StatedRow) : Option (Amount × Int) :=
  textIdentity entry.amount entry.date

/-- `_statement_candidate_index`; every entry of the reconcilers has a direction. -/
def statementCandidateIndex (entries : List StatedRow) : CandidateIndex where
  identities := entries.filterMap fun entry =>
    entry.identity.map fun identity => (entry.direction.value, identity.1, identity.2)
  uncertainDirections :=
    (entries.filter fun entry => entry.identity.isNone).map (·.direction.value)

end

def couldBeStatementCandidate (row : Transaction) (index : CandidateIndex) : Bool :=
  match row.transactionDate with
  | none => true
  | some date =>
    row.direction ∈ index.uncertainDirections ||
      ([-1, 0, 1] : List Int).any fun offset =>
        (row.direction, Amount.finite row.amount, date + offset) ∈ index.identities

/-- `extra_ids`: rows in the range that are no candidate of any entry. -/
def extraIds (rows : List Transaction) (matchedIds : List Nat) (index : CandidateIndex)
    (range : Int × Int) : List Nat :=
  ((rows.filter fun row => row.id ∉ matchedIds &&
      (row.transactionDate.any fun date => range.1 ≤ date && date ≤ range.2) &&
      !couldBeStatementCandidate row index).map (·.id)).insertionSort (· ≤ ·)

/-- `StatementReconciliationPreviewResponse` without the ids of the request. -/
structure ReconciliationPreview (α β : Type) where
  dateFrom : Int
  dateTo : Int
  matchedCount : Nat
  missingCount : Nat
  ambiguousCount : Nat
  extraCount : Nat
  matched : List α
  matchedTruncated : Bool
  missing : List β
  missingTruncated : Bool
  ambiguous : List β
  ambiguousTruncated : Bool
  extraTransactionIds : List Nat
  extraTransactionIdsTruncated : Bool

def reconciliationPreview {α β : Type} (range : Int × Int) (matched : List α) (missing : List β)
    (isAmbiguous : β → Bool) (extra : List Nat) : ReconciliationPreview α β :=
  let ambiguous := missing.filter isAmbiguous
  let unambiguous := missing.filter fun entry => !isAmbiguous entry
  { dateFrom := range.1
    dateTo := range.2
    matchedCount := matched.length
    missingCount := unambiguous.length
    ambiguousCount := ambiguous.length
    extraCount := extra.length
    matched := matched.take rowLimit
    matchedTruncated := rowLimit < matched.length
    missing := unambiguous.take rowLimit
    missingTruncated := rowLimit < unambiguous.length
    ambiguous := ambiguous.take rowLimit
    ambiguousTruncated := rowLimit < ambiguous.length
    extraTransactionIds := extra.take rowLimit
    extraTransactionIdsTruncated := rowLimit < extra.length }

section

variable [UnicodeTables] [NarrationTables] [Readers]

def ccStmtDateRange (parsed : ParsedCcStatement) : Option (Int × Int) :=
  dateSpan ((parsed.transactions ++ parsed.paymentsRefunds).filterMap fun txn => parseDate txn.date)

def Line.stated (line : Line) : StatedRow := ⟨line.direction, line.txn.amount, line.txn.date⟩

/-- The preview of a card statement, over the transactions it is compared with. -/
def ccPreview (rows : AccountRows) (masks : List String) (parsed : ParsedCcStatement)
    (range : Int × Int) : ReconciliationPreview MatchedEntry MissingEntry :=
  let recon := reconcileStatement rows masks parsed
  let stated := recon.matched.map (·.line.stated) ++ recon.missing.map (·.line.stated)
  reconciliationPreview range recon.matched recon.missing (·.ambiguous)
    (extraIds rows.rows (recon.matched.map (·.dbTxnId)) (statementCandidateIndex stated) range)

/-- `preview_statement_reconciliation` of a card statement; `none` where it answers 422. -/
def previewCcReconciliation (db : AccountRows) (masks : List String) (parsed : ParsedCcStatement) :
    Option (ReconciliationPreview MatchedEntry MissingEntry) :=
  match ccStmtDateRange parsed with
  | none => none
  | some range =>
    if range.2 < range.1 then none
    else some (ccPreview (db.restrict (inBuffer range)) masks parsed range)

end

section

variable [UnicodeTables] [Readers]

/-- A parsed bank statement and the period printed on it. -/
structure BankStatementDocument extends ParsedBankStatement where
  statementPeriodStart : Option String
  statementPeriodEnd : Option String

/-- The printed period, or the dates of the rows where it cannot be read. -/
def bankStmtDateRange (document : BankStatementDocument) : Option (Int × Int) :=
  match document.statementPeriodStart.bind parseDate, document.statementPeriodEnd.bind parseDate with
  | some start, some finish => some (start, finish)
  | _, _ => dateSpan (document.transactions.filterMap fun txn => parseDate txn.date)

/-- The distinct references of the statement; the source sorts them and asks for 500 at a time. -/
def statementReferences (parsed : ParsedBankStatement) : List String :=
  ((parsed.transactions.filterMap (·.referenceNumber)).filter (· ≠ "")).dedup

def BankLine.stated (line : BankLine) : StatedRow :=
  ⟨line.txn.direction, line.txn.amount, line.txn.date⟩

omit [UnicodeTables] [Readers] in
theorem candidate_rows_perm (rows : List Transaction) (near shared : Transaction → Bool) :
    (rows.filter near ++ rows.filter fun row => !near row && shared row).Perm
      (rows.filter fun row => near row || shared row) := by
  refine .trans ?_ (List.filter_append_perm near _)
  rw [List.filter_filter, List.filter_filter]
  refine .of_eq (congrArg₂ _ (List.filter_congr fun row _ => ?_) (List.filter_congr fun row _ => ?_))
  · cases near row <;> rfl
  · cases near row <;> rfl

omit [UnicodeTables] [Readers] in
theorem nodup_candidate_rows (db : AccountRows) (near shared : Transaction → Bool) :
    ((db.rows.filter near ++ db.rows.filter fun row => !near row && shared row).map
      (·.id)).Nodup := by
  rw [((candidate_rows_perm db.rows near shared).map _).nodup_iff]
  exact (db.restrict _).nodup_ids

/-- `candidate_by_id`: the rows near the dates, then those that only a reference adds. -/
def bankCandidates (db : AccountRows) (range : Int × Int) (references : List String) :
    AccountRows where
  rows := db.rows.filter (inBuffer range) ++ db.rows.filter fun row =>
    !inBuffer range row && row.referenceNumber.any (· ∈ references)
  nodup_ids := nodup_candidate_rows db _ _

/-- The preview of a bank statement, over the transactions it is compared with. -/
def bankPreview (rows : AccountRows) (parsed : ParsedBankStatement) (range : Int × Int) :
    ReconciliationPreview BankMatchedEntry BankMissingEntry :=
  let recon := reconcileBankStatement rows parsed
  let stated := recon.matched.map (·.row.toBankLine.stated) ++ recon.missing.map (·.line.stated)
  reconciliationPreview range recon.matched recon.missing (·.ambiguous)
    (extraIds rows.rows (recon.matched.map (·.dbTxnId)) (statementCandidateIndex stated) range)

/-- `preview_statement_reconciliation` of a bank statement; `none` where it answers 413 or 422. -/
def previewBankReconciliation (db : AccountRows) (document : BankStatementDocument) :
    Option (ReconciliationPreview BankMatchedEntry BankMissingEntry) :=
  match bankStmtDateRange document with
  | none => none
  | some range =>
    if range.2 < range.1 then none
    else
      let references := statementReferences document.toParsedBankStatement
      if referenceLimit < references.length then none
      else some (bankPreview (bankCandidates db range references) document.toParsedBankStatement range)

end

/-! ### The dates -/

theorem foldl_min_le {date : Int} {rest : List Int} :
    rest.foldl min date ≤ date ∧ ∀ d ∈ rest, rest.foldl min date ≤ d := by
  induction rest generalizing date with
  | nil => exact ⟨le_refl _, by simp⟩
  | cons e rest ih =>
    have hmin : rest.foldl min (min date e) ≤ min date e := ih.1
    refine ⟨hmin.trans (min_le_left _ _), fun d hd => ?_⟩
    rcases List.mem_cons.mp hd with rfl | hd
    · exact hmin.trans (min_le_right _ _)
    · exact ih.2 d hd

theorem le_foldl_max {date : Int} {rest : List Int} :
    date ≤ rest.foldl max date ∧ ∀ d ∈ rest, d ≤ rest.foldl max date := by
  induction rest generalizing date with
  | nil => exact ⟨le_refl _, by simp⟩
  | cons e rest ih =>
    have hmax : max date e ≤ rest.foldl max (max date e) := ih.1
    refine ⟨(le_max_left _ _).trans hmax, fun d hd => ?_⟩
    rcases List.mem_cons.mp hd with rfl | hd
    · exact (le_max_right _ _).trans hmax
    · exact ih.2 d hd

theorem mem_dateSpan {dates : List Int} {range : Int × Int} (h : dateSpan dates = some range)
    {d : Int} (hd : d ∈ dates) : range.1 ≤ d ∧ d ≤ range.2 := by
  cases dates with
  | nil => cases hd
  | cons date rest =>
    cases h
    rcases List.mem_cons.mp hd with rfl | hd
    · exact ⟨foldl_min_le.1, le_foldl_max.1⟩
    · exact ⟨foldl_min_le.2 d hd, le_foldl_max.2 d hd⟩

/-! ### What is extra -/

section

variable [UnicodeTables] [Readers] {entries : List StatedRow} {row : Transaction}
  {index : CandidateIndex} {range : Int × Int}

omit [UnicodeTables] [Readers] in
theorem withinADay_iff_add {a b : Int} :
    WithinADay a b ↔ ∃ offset ∈ ([-1, 0, 1] : List Int), b = a + offset := by
  simp only [WithinADay, List.mem_cons, List.not_mem_nil, or_false]
  constructor
  · rintro ⟨hl, hu⟩
    exact ⟨b - a, by omega, by omega⟩
  · rintro ⟨offset, ho, rfl⟩
    omega

/-- No row of the statement can be this transaction: none that can be read has its amount and
direction within a day, and of those that cannot be read none has its direction. -/
structure NotStated (entries : List StatedRow) (row : Transaction) : Prop where
  read : ∀ entry ∈ entries, ∀ amount date, entry.identity = some (amount, date) →
    ¬ InWindow row date amount entry.direction
  unread : ∀ entry ∈ entries, entry.identity = none → row.direction ≠ entry.direction.value

theorem mem_identities {direction : String} {amount : Amount} {date : Int} :
    (direction, amount, date) ∈ (statementCandidateIndex entries).identities ↔
      ∃ entry ∈ entries, entry.identity = some (amount, date) ∧ entry.direction.value = direction := by
  simp only [statementCandidateIndex, List.mem_filterMap, Option.map_eq_some_iff, Prod.exists,
    Prod.mk.injEq]
  constructor
  · rintro ⟨entry, he, a, d, hi, hdir, rfl, rfl⟩
    exact ⟨entry, he, hi, hdir⟩
  · rintro ⟨entry, he, hi, hdir⟩
    exact ⟨entry, he, amount, date, hi, hdir, rfl, rfl⟩

theorem mem_uncertainDirections {direction : String} :
    direction ∈ (statementCandidateIndex entries).uncertainDirections ↔
      ∃ entry ∈ entries, entry.identity = none ∧ entry.direction.value = direction := by
  simp only [statementCandidateIndex, List.mem_map, List.mem_filter, Option.isNone_iff_eq_none,
    and_assoc]

/-- **The index holds a dated transaction for extra exactly when no row can be it.** -/
theorem couldBe_eq_false_iff {date : Int} (hdate : row.transactionDate = some date) :
    couldBeStatementCandidate row (statementCandidateIndex entries) = false ↔
      NotStated entries row := by
  unfold couldBeStatementCandidate
  rw [hdate]
  dsimp only
  rw [Bool.or_eq_false_iff, decide_eq_false_iff_not, mem_uncertainDirections, List.any_eq_false]
  simp only [decide_eq_true_eq, mem_identities]
  constructor
  · rintro ⟨hunread, hread⟩
    refine ⟨fun entry he amount d hi hw => ?_, fun entry he hi hdir => ?_⟩
    · obtain ⟨day, hday, hdated, hamount, hdir⟩ := hw
      obtain rfl : date = day := Option.some.inj (hdate.symm.trans hdated)
      obtain ⟨offset, ho, rfl⟩ := withinADay_iff_add.mp hday
      exact hread offset ho ⟨entry, he, hamount ▸ hi, hdir.symm⟩
    · exact hunread ⟨entry, he, hi, hdir.symm⟩
  · rintro ⟨hread, hunread⟩
    refine ⟨fun h => ?_, fun offset ho h => ?_⟩
    · obtain ⟨entry, he, hi, hdir⟩ := h
      exact hunread entry he hi hdir.symm
    · obtain ⟨entry, he, hi, hdir⟩ := h
      exact hread entry he _ _ hi
        ⟨date, withinADay_iff_add.mpr ⟨offset, ho, rfl⟩, hdate, rfl, hdir.symm⟩

/-- The transactions in the range that are not matched and that no row can be. -/
theorem mem_extraIds {rows : List Transaction} {matchedIds : List Nat} {id : Nat} :
    id ∈ extraIds rows matchedIds (statementCandidateIndex entries) range ↔
      ∃ row ∈ rows, row.id = id ∧ id ∉ matchedIds ∧
        (∃ date, row.transactionDate = some date ∧ range.1 ≤ date ∧ date ≤ range.2) ∧
          NotStated entries row := by
  simp only [extraIds, List.mem_insertionSort, List.mem_map, List.mem_filter, Bool.and_eq_true,
    Bool.not_eq_true', decide_eq_true_eq, Option.any_eq_true]
  constructor
  · rintro ⟨row, ⟨hm, ⟨hfree, date, hdate, hin⟩, hcould⟩, rfl⟩
    exact ⟨row, hm, rfl, hfree, ⟨date, hdate, hin⟩, (couldBe_eq_false_iff hdate).mp hcould⟩
  · rintro ⟨row, hm, rfl, hfree, ⟨date, hdate, hin⟩, hstated⟩
    exact ⟨row, ⟨hm, ⟨hfree, date, hdate, hin⟩, (couldBe_eq_false_iff hdate).mpr hstated⟩, rfl⟩

theorem NotStated.congr {entries' : List StatedRow} (h : ∀ entry, entry ∈ entries ↔ entry ∈ entries') :
    NotStated entries row ↔ NotStated entries' row :=
  ⟨fun hn => ⟨fun entry he => hn.read entry ((h entry).mpr he),
      fun entry he => hn.unread entry ((h entry).mpr he)⟩,
    fun hn => ⟨fun entry he => hn.read entry ((h entry).mp he),
      fun entry he => hn.unread entry ((h entry).mp he)⟩⟩

/-- The same, from the entries of a reconciliation. -/
theorem mem_extraIds_of_entries {α : Type} {rows : List Transaction} {matched : List α}
    {dbTxnId : α → Nat} {entries' : List StatedRow} {id : Nat}
    (h : ∀ entry, entry ∈ entries ↔ entry ∈ entries') :
    id ∈ extraIds rows (matched.map dbTxnId) (statementCandidateIndex entries) range ↔
      ∃ row ∈ rows, row.id = id ∧ (∀ entry ∈ matched, dbTxnId entry ≠ id) ∧
        (∃ date, row.transactionDate = some date ∧ range.1 ≤ date ∧ date ≤ range.2) ∧
          NotStated entries' row := by
  rw [mem_extraIds]
  refine exists_congr fun row => and_congr_right fun _ => and_congr_right fun _ =>
    and_congr ?_ (and_congr_right fun _ => NotStated.congr h)
  rw [List.mem_map]
  constructor
  · intro hfree entry he hid
    exact hfree ⟨entry, he, hid⟩
  · rintro hfree ⟨entry, he, hid⟩
    exact hfree entry he hid

omit [UnicodeTables] [Readers] in
theorem inBuffer_of_near {date : Int} (hdate : row.transactionDate = some date)
    (hlo : range.1 - stmtReconcileDateBufferDays ≤ date)
    (hhi : date ≤ range.2 + stmtReconcileDateBufferDays) : inBuffer range row = true := by
  unfold inBuffer
  rw [hdate, Option.any_some, decide_eq_true hlo, decide_eq_true hhi, Bool.and_self]

omit [UnicodeTables] [Readers] in
/-- Transactions outside the range are never extra. -/
theorem extraIds_perm {rows rows' : List Transaction} {matchedIds : List Nat}
    (h : (rows.filter (inBuffer range)).Perm (rows'.filter (inBuffer range))) :
    extraIds rows matchedIds index range = extraIds rows' matchedIds index range := by
  have hnear : ∀ l : List Transaction, (l.filter fun row => row.id ∉ matchedIds &&
        (row.transactionDate.any fun date => range.1 ≤ date && date ≤ range.2) &&
        !couldBeStatementCandidate row index) =
      (l.filter (inBuffer range)).filter fun row => row.id ∉ matchedIds &&
        (row.transactionDate.any fun date => range.1 ≤ date && date ≤ range.2) &&
        !couldBeStatementCandidate row index := by
    intro l
    rw [List.filter_filter]
    refine List.filter_congr fun row _ => ?_
    cases hb : inBuffer range row with
    | true => rw [Bool.and_true]
    | false =>
      rw [Bool.and_false, Bool.and_eq_false_iff, Bool.and_eq_false_iff]
      refine .inl (.inr (Bool.eq_false_iff.mpr fun hany => ?_))
      simp only [Option.any_eq_true, Bool.and_eq_true, decide_eq_true_eq] at hany
      obtain ⟨date, hdate, hin⟩ := hany
      have hbuffer : inBuffer range row = true := inBuffer_of_near hdate
        (by unfold stmtReconcileDateBufferDays; omega) (by unfold stmtReconcileDateBufferDays; omega)
      rw [hbuffer] at hb
      cases hb
  unfold extraIds
  rw [hnear rows, hnear rows']
  exact List.Perm.eq_of_pairwise' (List.pairwise_insertionSort _ _)
    (List.pairwise_insertionSort _ _) (((List.perm_insertionSort _ _).trans
      ((h.filter _).map _)).trans (List.perm_insertionSort _ _).symm)

omit [UnicodeTables] [Readers] in
theorem sorted_extraIds (db : AccountRows) (matchedIds : List Nat) :
    (extraIds db.rows matchedIds index range).Pairwise (· < ·) := by
  have hsorted : (extraIds db.rows matchedIds index range).Pairwise (· ≤ ·) :=
    List.pairwise_insertionSort _ _
  have hnodup : (extraIds db.rows matchedIds index range).Nodup := by
    unfold extraIds
    rw [(List.perm_insertionSort _ _).nodup_iff]
    exact db.nodup_ids.sublist (List.filter_sublist.map _)
  exact (hsorted.and hnodup).imp fun h => lt_of_le_of_ne h.1 h.2

end

/-- The entries that are counted are those of the rows, each once, and the first are shown. -/
def Counts {α β γ : Type} (preview : ReconciliationPreview α β) (ofMatched : α → γ)
    (ofMissing : β → γ) (rows : List γ) : Prop :=
  ∃ (matched : List α) (missing ambiguous : List β),
    (matched.map ofMatched ++ (missing.map ofMissing ++ ambiguous.map ofMissing)).Perm rows ∧
    (preview.matchedCount = matched.length ∧ preview.matched = matched.take rowLimit) ∧
    (preview.missingCount = missing.length ∧ preview.missing = missing.take rowLimit) ∧
    preview.ambiguousCount = ambiguous.length ∧ preview.ambiguous = ambiguous.take rowLimit

/-- **Every entry is counted once.** -/
theorem counts_reconciliationPreview {α β γ : Type} {range : Int × Int} {matched : List α}
    {missing : List β} {isAmbiguous : β → Bool} {extra : List Nat} {ofMatched : α → γ}
    {ofMissing : β → γ} {rows : List γ}
    (h : (matched.map ofMatched ++ missing.map ofMissing).Perm rows) :
    Counts (reconciliationPreview range matched missing isAmbiguous extra) ofMatched ofMissing
      rows := by
  refine ⟨matched, missing.filter fun entry => !isAmbiguous entry, missing.filter isAmbiguous,
    .trans ?_ h, ⟨rfl, rfl⟩, ⟨rfl, rfl⟩, rfl, rfl⟩
  have hsplit : (missing.filter (fun entry => !isAmbiguous entry) ++
      missing.filter isAmbiguous).Perm missing :=
    List.perm_append_comm.trans (List.filter_append_perm isAmbiguous missing)
  rw [← List.map_append]
  exact (hsplit.map ofMissing).append_left _

theorem Counts.sum {α β γ : Type} {preview : ReconciliationPreview α β} {ofMatched : α → γ}
    {ofMissing : β → γ} {rows : List γ} (h : Counts preview ofMatched ofMissing rows) :
    preview.matchedCount + preview.missingCount + preview.ambiguousCount = rows.length := by
  obtain ⟨matched, missing, ambiguous, hp, ⟨hmatched, -⟩, ⟨hmissing, -⟩, hambiguous, -⟩ := h
  have hlength := hp.length_eq
  simp only [List.length_append, List.length_map] at hlength
  omega

/-! ### A card statement -/

section

variable [UnicodeTables] [NarrationTables] [Readers] {db : AccountRows} {masks : List String}
  {parsed : ParsedCcStatement} {range : Int × Int} {line : Line}

/-- The rows `retry_cc_statement_upload` asks for; all of them where no date can be read. -/
def retryRows (db : AccountRows) (parsed : ParsedCcStatement) : AccountRows :=
  match ccStmtDateRange parsed with
  | none => db
  | some range => db.restrict (inBuffer range)

omit [NarrationTables] [Readers] in
theorem mem_dropClaimedTwins {twins : List TwinKey} {credits : List CcTransaction}
    {txn : CcTransaction} (h : txn ∈ dropClaimedTwins twins credits) : txn ∈ credits := by
  obtain ⟨dropped, hp, -, -⟩ := dropClaimedTwins_perm twins credits
  exact hp.subset (List.mem_append_left _ h)

omit [NarrationTables] [Readers] in
theorem txn_mem_of_stmtLines (h : line ∈ stmtLines parsed) :
    line.txn ∈ parsed.transactions ++ parsed.paymentsRefunds := by
  have hrow : line.toStmtTxn ∈ stmtTxns parsed := by
    rw [← map_toStmtTxn_stmtLines parsed]
    exact List.mem_map_of_mem h
  rw [stmtTxns, List.mem_append] at hrow
  rcases hrow with hrow | hrow
  · obtain ⟨txn, ht, he⟩ := List.mem_map.mp hrow
    rw [← he]
    exact List.mem_append_left _ ht
  · obtain ⟨txn, ht, he⟩ := List.mem_map.mp hrow
    rw [← he]
    exact List.mem_append_right _ (mem_dropClaimedTwins ht)

omit [NarrationTables] in
theorem parseDate_of_identity {txn : CcTransaction} {amount : Amount} {date : Int}
    (h : identity txn = some (amount, date)) : parseDate txn.date = some date :=
  (textIdentity_eq_some.mp h).2

omit [NarrationTables] in
/-- A row reaches only what is near the dates of the statement. -/
theorem keepsReach_inBuffer (hrange : ccStmtDateRange parsed = some range)
    (hl : line ∈ stmtLines parsed) : KeepsReach (inBuffer range) line.toStmtTxn := by
  rintro dbTxn ⟨amount, date, hi, day, hday, hkey⟩
  have hin : range.1 ≤ date ∧ date ≤ range.2 := mem_dateSpan hrange
    (List.mem_filterMap.mpr ⟨line.txn, txn_mem_of_stmtLines hl, parseDate_of_identity hi⟩)
  obtain ⟨hlo, hhi⟩ := hday
  exact inBuffer_of_near hkey.1 (by unfold stmtReconcileDateBufferDays; omega)
    (by unfold stmtReconcileDateBufferDays; omega)

/-- What a reconciliation with the whole account finds, a retry finds in the window. -/
theorem reconcileStatement_retryRows :
    reconcileStatement (retryRows db parsed) masks parsed = reconcileStatement db masks parsed := by
  unfold retryRows
  cases hrange : ccStmtDateRange parsed with
  | none => rfl
  | some range => exact reconcileStatement_restrict fun line hl => keepsReach_inBuffer hrange hl

omit [UnicodeTables] [NarrationTables] [Readers] in
theorem le_of_dateSpan {dates : List Int} (h : dateSpan dates = some range) : range.1 ≤ range.2 := by
  cases dates with
  | nil => cases h
  | cons date rest =>
    have hin : range.1 ≤ date ∧ date ≤ range.2 := mem_dateSpan h List.mem_cons_self
    omega

theorem ccPreview_inBuffer (hrange : ccStmtDateRange parsed = some range) :
    ccPreview (db.restrict (inBuffer range)) masks parsed range = ccPreview db masks parsed range := by
  have hrecon : reconcileStatement (db.restrict (inBuffer range)) masks parsed =
      reconcileStatement db masks parsed :=
    reconcileStatement_restrict fun line hl => keepsReach_inBuffer hrange hl
  unfold ccPreview
  dsimp only
  rw [hrecon]
  refine congrArg _ (extraIds_perm (.of_eq ?_))
  unfold AccountRows.restrict
  rw [List.filter_filter]
  exact List.filter_congr fun row _ => Bool.and_self _

/-- The window is no loss to the preview. -/
theorem previewCcReconciliation_eq :
    previewCcReconciliation db masks parsed =
      (ccStmtDateRange parsed).map (ccPreview db masks parsed) := by
  unfold previewCcReconciliation
  cases hrange : ccStmtDateRange parsed with
  | none => rfl
  | some range =>
    dsimp only
    rw [if_neg (not_lt.mpr (le_of_dateSpan hrange)), ccPreview_inBuffer hrange]
    rfl

/-- What the entries state is what the rows of the statement state. -/
theorem mem_stated {entry : StatedRow} (db : AccountRows) (masks : List String)
    (parsed : ParsedCcStatement) :
    entry ∈ (reconcileStatement db masks parsed).matched.map (·.line.stated) ++
        (reconcileStatement db masks parsed).missing.map (·.line.stated) ↔
      entry ∈ (stmtLines parsed).map (·.stated) := by
  have hp := (reconciliation_perm db masks parsed).map (·.stated)
  rw [List.map_append, List.map_map, List.map_map] at hp
  exact hp.mem_iff

/-- **The preview of a card statement tells what reconciling it with the whole account tells**:
every row is counted once, and extra are the transactions of the range that are not matched and
that no row of the statement can be. -/
theorem previewCcReconciliation_spec (db : AccountRows) (masks : List String)
    (parsed : ParsedCcStatement) :
    reconcileStatement (retryRows db parsed) masks parsed = reconcileStatement db masks parsed ∧
    previewCcReconciliation db masks parsed =
      (ccStmtDateRange parsed).map (ccPreview db masks parsed) ∧
    ∀ range, ∃ extra : List Nat, extra.Pairwise (· < ·) ∧
      (ccPreview db masks parsed range).extraCount = extra.length ∧
      (ccPreview db masks parsed range).extraTransactionIds = extra.take rowLimit ∧
      (∀ id, id ∈ extra ↔ ∃ row ∈ db.rows, row.id = id ∧
        (∀ entry ∈ (reconcileStatement db masks parsed).matched, entry.dbTxnId ≠ id) ∧
        (∃ date, row.transactionDate = some date ∧ range.1 ≤ date ∧ date ≤ range.2) ∧
        NotStated ((stmtLines parsed).map (·.stated)) row) ∧
      Counts (ccPreview db masks parsed range) (·.line) (·.line) (stmtLines parsed) ∧
      (ccPreview db masks parsed range).matchedCount +
          (ccPreview db masks parsed range).missingCount +
          (ccPreview db masks parsed range).ambiguousCount = (stmtLines parsed).length := by
  refine ⟨reconcileStatement_retryRows, previewCcReconciliation_eq, fun range => ?_⟩
  have hcounts : Counts (ccPreview db masks parsed range) (·.line) (·.line) (stmtLines parsed) :=
    counts_reconciliationPreview (reconciliation_perm db masks parsed)
  refine ⟨_, sorted_extraIds db _, rfl, rfl, fun id => ?_, hcounts, hcounts.sum⟩
  exact mem_extraIds_of_entries fun _ => mem_stated db masks parsed

end

/-! ### A bank statement -/

section

variable [UnicodeTables] [Readers] {db : AccountRows} {document : BankStatementDocument}
  {parsed : ParsedBankStatement} {range : Int × Int} {row : BankRow}

/-- A row is no further from the range than the buffer less the day it may be off by. -/
def DatedNear (range : Int × Int) (row : BankRow) : Prop :=
  range.1 - 6 ≤ row.txnDate ∧ row.txnDate ≤ range.2 + 6

instance (range : Int × Int) (row : BankRow) : Decidable (DatedNear range row) :=
  inferInstanceAs (Decidable (_ ∧ _))

omit [UnicodeTables] [Readers] in
theorem mem_statementReferences {reference : String} :
    reference ∈ statementReferences parsed ↔
      reference ≠ "" ∧ ∃ txn ∈ parsed.transactions, txn.referenceNumber = some reference := by
  simp only [statementReferences, List.mem_dedup, List.mem_filter, List.mem_filterMap,
    decide_eq_true_eq, and_comm]

theorem txn_mem_of_parsedRows (h : row ∈ parsedRows parsed) : row.txn ∈ parsed.transactions := by
  obtain ⟨line, hl, hread⟩ := List.mem_filterMap.mp h
  obtain ⟨p, hp, rfl⟩ := List.mem_map.mp hl
  rw [line_of_readRow hread]
  exact List.fst_mem_of_mem_zipIdx hp

/-- A transaction that shares the reference of a row was asked for by it. -/
theorem reference_asked {dbTxn : Transaction} (hr : row ∈ parsedRows parsed)
    (h : SharesReference row.txn dbTxn) :
    dbTxn.referenceNumber.any (· ∈ statementReferences parsed) = true := by
  obtain ⟨hne, href, -⟩ := h
  cases hreference : row.txn.referenceNumber with
  | none => exact absurd (by rw [hreference]; rfl) hne
  | some reference =>
    rw [hreference] at hne
    rw [href, hreference, Option.any_some, decide_eq_true_eq]
    exact mem_statementReferences.mpr ⟨hne, row.txn, txn_mem_of_parsedRows hr, hreference⟩

omit [UnicodeTables] [Readers] in
theorem inBuffer_of_inWindow (hnear : DatedNear range row) {dbTxn : Transaction}
    (h : InWindow dbTxn row.txnDate row.amount row.txn.direction) :
    inBuffer range dbTxn = true := by
  obtain ⟨day, ⟨hlo, hhi⟩, hdated, -⟩ := h
  obtain ⟨hnearlo, hnearhi⟩ := hnear
  exact inBuffer_of_near hdated (by unfold stmtReconcileDateBufferDays; omega)
    (by unfold stmtReconcileDateBufferDays; omega)

omit [UnicodeTables] [Readers] in
theorem SameEvidence.of_perm {db db' : AccountRows} (h : db.rows.Perm db'.rows) (row : BankRow) :
    SameEvidence db db' row where
  reference := h.filter _
  window _ _ := h.filter _

/-- The window and the references keep what decides about a row. -/
theorem sameEvidence_bankCandidates (hr : row ∈ parsedRows parsed) (hnear : DatedNear range row) :
    SameEvidence (bankCandidates db range (statementReferences parsed)) db row := by
  have hkeep : SameEvidence (db.restrict fun dbTxn => inBuffer range dbTxn ||
      dbTxn.referenceNumber.any (· ∈ statementReferences parsed)) db row :=
    sameEvidence_restrict
      (fun dbTxn hs => by rw [reference_asked hr hs, Bool.or_true])
      (fun dbTxn hw => by rw [inBuffer_of_inWindow hnear hw, Bool.true_or])
  have hperm : SameEvidence (bankCandidates db range (statementReferences parsed))
      (db.restrict fun dbTxn => inBuffer range dbTxn ||
        dbTxn.referenceNumber.any (· ∈ statementReferences parsed)) row :=
    .of_perm (candidate_rows_perm db.rows _ _) row
  exact ⟨hperm.reference.trans hkeep.reference, fun offset ho =>
    (hperm.window offset ho).trans (hkeep.window offset ho)⟩

theorem bankPreview_bankCandidates (hnear : ∀ row ∈ parsedRows parsed, DatedNear range row) :
    bankPreview (bankCandidates db range (statementReferences parsed)) parsed range =
      bankPreview db parsed range := by
  have hrecon : reconcileBankStatement (bankCandidates db range (statementReferences parsed)) parsed =
      reconcileBankStatement db parsed :=
    reconcileBankStatement_congr fun row hr => sameEvidence_bankCandidates hr (hnear row hr)
  unfold bankPreview
  dsimp only
  rw [hrecon]
  refine congrArg _ (extraIds_perm (.of_eq ?_))
  unfold bankCandidates
  rw [List.filter_append, List.filter_filter, List.filter_filter]
  have hfar : (db.rows.filter fun row => inBuffer range row && (!inBuffer range row &&
      row.referenceNumber.any (· ∈ statementReferences parsed))) = [] := by
    refine List.filter_eq_nil_iff.mpr fun row _ => ?_
    cases inBuffer range row <;> simp
  rw [hfar, List.append_nil]
  exact List.filter_congr fun row _ => Bool.and_self _

theorem mem_bankStated {entry : StatedRow} (db : AccountRows) (parsed : ParsedBankStatement) :
    entry ∈ (reconcileBankStatement db parsed).matched.map (·.row.toBankLine.stated) ++
        (reconcileBankStatement db parsed).missing.map (·.line.stated) ↔
      entry ∈ (bankLines parsed).map (·.stated) := by
  have hp := (bankReconciliation_perm db parsed).map (·.stated)
  rw [List.map_append, List.map_map, List.map_map] at hp
  exact hp.mem_iff

/-- **So does the preview of a bank statement**, when its rows are dated near the range: the
transactions it asks for by reference are all the window leaves out. -/
theorem previewBankReconciliation_spec (db : AccountRows) (document : BankStatementDocument)
    {range : Int × Int} (hrange : bankStmtDateRange document = some range)
    (horder : range.1 ≤ range.2)
    (hfew : (statementReferences document.toParsedBankStatement).length ≤ referenceLimit)
    (hnear : ∀ row ∈ parsedRows document.toParsedBankStatement, DatedNear range row) :
    ∃ preview, previewBankReconciliation db document = some preview ∧
      preview = bankPreview db document.toParsedBankStatement range ∧
      Counts preview (·.row.toBankLine) (·.line) (bankLines document.toParsedBankStatement) ∧
      preview.matchedCount + preview.missingCount + preview.ambiguousCount =
        (bankLines document.toParsedBankStatement).length ∧
      ∃ extra : List Nat, extra.Pairwise (· < ·) ∧ preview.extraCount = extra.length ∧
        preview.extraTransactionIds = extra.take rowLimit ∧
        ∀ id, id ∈ extra ↔ ∃ row ∈ db.rows, row.id = id ∧
          (∀ entry ∈ (reconcileBankStatement db document.toParsedBankStatement).matched,
            entry.dbTxnId ≠ id) ∧
          (∃ date, row.transactionDate = some date ∧ range.1 ≤ date ∧ date ≤ range.2) ∧
          NotStated ((bankLines document.toParsedBankStatement).map (·.stated)) row := by
  have hcounts : Counts (bankPreview db document.toParsedBankStatement range) (·.row.toBankLine)
      (·.line) (bankLines document.toParsedBankStatement) :=
    counts_reconciliationPreview (bankReconciliation_perm db _)
  refine ⟨_, ?_, rfl, hcounts, hcounts.sum, _, sorted_extraIds db _, rfl, rfl, fun id => ?_⟩
  · unfold previewBankReconciliation
    rw [hrange]
    dsimp only
    rw [if_neg (not_lt.mpr horder), if_neg (not_lt.mpr hfew), bankPreview_bankCandidates hnear]
  · exact mem_extraIds_of_entries fun _ => mem_bankStated db _

end

/-- One row, whose alert is dated two months late and carries its reference. -/
def lateAlertDocument : BankStatementDocument where
  bank := some "hdfc"
  accountNumber := none
  accountHolderName := none
  transactions := [⟨"05/03/2024", "100.00", .debit, none, none, some "R1", none, none⟩]
  statementPeriodStart := some "01/03/2024"
  statementPeriodEnd := some "31/03/2024"

def lateAlertRows : AccountRows where
  rows := [{ alertRow 1 739010 100 .debit "SHOP" with referenceNumber := some "R1" },
    alertRow 2 738950 250 .debit "CAFE"]
  nodup_ids := by decide

theorem previewBankReconciliation_spec_lateAlert :
    let _ := asciiTables; let _ := plainReaders
    ∃ preview, previewBankReconciliation lateAlertRows lateAlertDocument = some preview ∧
      preview.matchedCount + preview.missingCount + preview.ambiguousCount = 1 := by
  let _ := asciiTables
  let _ := plainReaders
  have hrange : bankStmtDateRange lateAlertDocument = some (738946, 738976) := by decide
  obtain ⟨preview, hsome, -, -, hcount, -⟩ := previewBankReconciliation_spec lateAlertRows
    lateAlertDocument hrange (by decide) (by decide) (by decide)
  exact ⟨preview, hsome, hcount⟩

end FinancialDashboard.Statements
