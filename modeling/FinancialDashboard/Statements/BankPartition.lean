import FinancialDashboard.Statements.Bank
import Mathlib.Data.List.Range

/-!
# Bank statements: a partition, and what is absent

* `reconcileBankStatement_partition`: every row of the statement is matched or missing,
  and only once; no transaction is claimed twice, and each is one its row could claim; a
  row that could be read is left for import exactly when no transaction shares its
  reference and none in its window is compatible; a claim that is given up is not.
-/

namespace FinancialDashboard.Statements

open PyText Transactions FirstCome

/-! ### The rows of the statement -/

section

variable [UnicodeTables] [Readers] {parsed : ParsedBankStatement} {line : BankLine} {row : BankRow}

omit [UnicodeTables] [Readers] in
theorem nodup_bankStmtIdx (parsed : ParsedBankStatement) :
    ((bankLines parsed).map (·.stmtIdx)).Nodup := by
  have he : (bankLines parsed).map (·.stmtIdx) = List.range parsed.transactions.length := by
    rw [bankLines, List.map_map, List.range_eq_range']
    exact List.zipIdx_map_snd 0 _
  rw [he]
  exact List.nodup_range

omit [UnicodeTables] [Readers] in
theorem nodup_bankLines (parsed : ParsedBankStatement) : (bankLines parsed).Nodup :=
  (nodup_bankStmtIdx parsed).of_map _

theorem line_of_readRow (h : readRow line = some row) : row.toBankLine = line := by
  unfold readRow at h
  split at h
  · cases h
    rfl
  · cases h

theorem readRow_of_mem (h : row ∈ parsedRows parsed) :
    row.toBankLine ∈ bankLines parsed ∧ readRow row.toBankLine = some row := by
  obtain ⟨line, hl, hr⟩ := List.mem_filterMap.mp h
  rw [line_of_readRow hr]
  exact ⟨hl, hr⟩

theorem row_eq_of_stmtIdx {a b : BankRow} (ha : a ∈ parsedRows parsed)
    (hb : b ∈ parsedRows parsed) (h : a.stmtIdx = b.stmtIdx) : a = b := by
  obtain ⟨hal, har⟩ := readRow_of_mem ha
  obtain ⟨hbl, hbr⟩ := readRow_of_mem hb
  have hline : a.toBankLine = b.toBankLine :=
    List.inj_on_of_nodup_map (nodup_bankStmtIdx parsed) hal hbl h
  rw [hline, hbr] at har
  exact (Option.some.inj har).symm

/-- Read and unread lines are the lines. -/
theorem readRow_perm (parsed : ParsedBankStatement) :
    ((parsedRows parsed).map (·.toBankLine) ++
      (bankLines parsed).filter fun line => (readRow line).isNone).Perm (bankLines parsed) := by
  have h := filterMap_perm (f := readRow) (k := id) (g := BankRow.toBankLine)
    (bankLines parsed) fun line _ row hr => line_of_readRow hr
  rw [List.map_id, List.map_id] at h
  exact h

end

/-! ### The passes -/

section

variable [Readers] {db : AccountRows} {holder : List String} {consumed : List Transaction}
  {row : BankRow} {dbTxn : Transaction} {offset : Int}

omit [Readers] in
theorem takeSoleUnconsumed_eq_some {candidates : List Transaction}
    (h : takeSoleUnconsumed candidates consumed = some dbTxn) :
    dbTxn ∈ candidates ∧ dbTxn ∉ consumed := by
  unfold takeSoleUnconsumed at h
  split at h
  next only ho =>
    cases h
    have hm : dbTxn ∈ [dbTxn] := List.mem_cons_self
    rw [← ho, List.mem_filter, decide_eq_true_eq] at hm
    exact hm
  next => cases h

theorem mem_compatible :
    dbTxn ∈ (compatibleCandidates db holder consumed row offset).compatible ↔
      (dbTxn ∈ db.rows ∧ HasKey dbTxn (row.txnDate + offset) row.amount row.txn.direction) ∧
        dbTxn ∉ consumed ∧
          isStatementCandidateCompatible holder row.txn dbTxn (offset ≠ 0) = true := by
  simp only [compatibleCandidates, List.mem_filter, mem_bucket, Bool.and_eq_true,
    decide_eq_true_eq]

omit [Readers] in
theorem selectUniqueCompatible_eq_some {candidates : CompatibleCandidates}
    (hs : ∀ t ∈ candidates.strong, t ∈ candidates.compatible)
    (h : selectUniqueCompatible candidates = some dbTxn) : dbTxn ∈ candidates.compatible := by
  unfold selectUniqueCompatible at h
  split at h
  next only ho =>
    cases h
    have hm : dbTxn ∈ [dbTxn] := List.mem_cons_self
    rw [← ho] at hm
    split_ifs at hm
    · exact hs dbTxn hm
    · exact hm
  next => cases h

theorem mem_fuzzySet :
    dbTxn ∈ fuzzySet db holder row ↔ dbTxn ∈ db.rows ∧ ∃ offset ∈ dateOffsets,
      HasKey dbTxn (row.txnDate + offset) row.amount row.txn.direction ∧
        isStatementCandidateCompatible holder row.txn dbTxn (offset ≠ 0) = true := by
  simp only [fuzzySet, List.mem_flatMap, mem_compatible, List.not_mem_nil, not_false_eq_true,
    true_and]
  constructor
  · rintro ⟨offset, ho, ⟨hm, hk⟩, hc⟩
    exact ⟨hm, offset, ho, hk, hc⟩
  · rintro ⟨hm, offset, ho, hk, hc⟩
    exact ⟨offset, ho, ⟨hm, hk⟩, hc⟩

omit [Readers] in
theorem fair_pickByReference (db : AccountRows) :
    Fair (fun row dbTxn => dbTxn ∈ compatibleByReference db row) (pickByReference db) :=
  ⟨fun h => (takeSoleUnconsumed_eq_some h).2, fun h => (takeSoleUnconsumed_eq_some h).1⟩

theorem fair_pickByDate (db : AccountRows) (holder : List String) :
    Fair (fun row dbTxn => dbTxn ∈ fuzzySet db holder row) (pickByDate db holder) := by
  have picked : ∀ {consumed row dbTxn}, pickByDate db holder consumed row = some dbTxn →
      ∃ offset ∈ dateOffsets,
        dbTxn ∈ (compatibleCandidates db holder consumed row offset).compatible := by
    intro consumed row dbTxn h
    obtain ⟨offset, ho, hs⟩ := List.exists_of_findSome?_eq_some h
    refine ⟨offset, ho, selectUniqueCompatible_eq_some (fun t ht => ?_) hs⟩
    exact List.mem_of_mem_filter ht
  constructor
  · intro consumed row dbTxn h
    obtain ⟨offset, -, hm⟩ := picked h
    exact (mem_compatible.mp hm).2.1
  · intro consumed row dbTxn h
    obtain ⟨offset, ho, hm⟩ := picked h
    obtain ⟨⟨hdb, hk⟩, -, hc⟩ := mem_compatible.mp hm
    exact mem_fuzzySet.mpr ⟨hdb, offset, ho, hk, hc⟩

end

/-! ### Claims -/

section

variable [Readers] {db : AccountRows} {holder : List String} {rows : List BankRow}
  {claim : BankRow × Transaction}

theorem claims_perm (db : AccountRows) (holder : List String) (rows : List BankRow) :
    ((claims db holder rows).map Prod.fst ++ (datePass db holder rows).refused).Perm rows :=
  rounds_perm (serve_perm (pickByReference db) [] rows)

/-- What a row could claim is what keeps it from being new. -/
theorem mem_candidates_of_contention {row : BankRow} {id : Nat}
    (h : id ∈ contentionSet db holder row) : id ∈ bankCandidateSet db holder row := by
  obtain ⟨dbTxn, hm, rfl⟩ := List.mem_map.mp h
  refine List.mem_map_of_mem ?_
  rcases List.mem_append.mp hm with hm | hm
  · exact List.mem_append_left _ (List.mem_of_mem_filter hm)
  · exact List.mem_append_right _ hm

theorem claim_spec (h : claim ∈ claims db holder rows) :
    claim.1 ∈ rows ∧ claim.2 ∈ db.rows ∧ claim.2.id ∈ contentionSet db holder claim.1 := by
  have hrow : claim.1 ∈ rows :=
    (claims_perm db holder rows).subset (List.mem_append_left _ (List.mem_map_of_mem h))
  rcases List.mem_append.mp h with h | h
  · have hr := served_reaches (fair_pickByReference db) h
    refine ⟨hrow, List.mem_of_mem_filter (List.mem_of_mem_filter hr), ?_⟩
    exact List.mem_map_of_mem (List.mem_append_left _ hr)
  · have hr := served_reaches (fair_pickByDate db holder) h
    exact ⟨hrow, (mem_fuzzySet.mp hr).1, List.mem_map_of_mem (List.mem_append_right _ hr)⟩

theorem nodup_claims (db : AccountRows) (holder : List String) (rows : List BankRow) :
    ((claims db holder rows).map (·.2.id)).Nodup := by
  have hn : ((claims db holder rows).map Prod.snd).Nodup :=
    nodup_rounds (fair_pickByDate db holder) (nodup_served (fair_pickByReference db) [] rows)
  have he : (claims db holder rows).map (·.2.id) =
      ((claims db holder rows).map Prod.snd).map (·.id) := by
    rw [List.map_map]
    rfl
  rw [he]
  refine List.Nodup.map_on (fun a ha b hb hid => ?_) hn
  obtain ⟨c, hc, rfl⟩ := List.mem_map.mp ha
  obtain ⟨d, hd, rfl⟩ := List.mem_map.mp hb
  exact AccountRows.eq_of_id (claim_spec hc).2.1 (claim_spec hd).2.1 hid

end

/-! ### The reconciliation -/

section

variable [UnicodeTables] [Readers] {db : AccountRows} {holder : List String}
  {parsed : ParsedBankStatement} {rows : List BankRow} {row : BankRow}
  {claim : BankRow × Transaction}

theorem standingClaim_eq_some (h : standingClaim db holder rows row = some claim) :
    claim ∈ claims db holder rows ∧ claim.1.stmtIdx = row.stmtIdx ∧
      isContestedClaim db holder rows claim = false := by
  obtain ⟨hf, hc⟩ := Option.filter_eq_some_iff.mp h
  rw [claimOf] at hf
  exact ⟨List.mem_of_find?_eq_some hf, by simpa using List.find?_some hf, by simpa using hc⟩

/-- The claim filed under the index of a row is the claim of the row. -/
theorem fst_of_standing (hr : row ∈ parsedRows parsed)
    (h : standingClaim db holder (parsedRows parsed) row = some claim) : claim.1 = row := by
  obtain ⟨hm, hidx, -⟩ := standingClaim_eq_some h
  exact row_eq_of_stmtIdx (claim_spec hm).1 hr hidx

/-- A contested claim leaves its row without one. -/
theorem standingClaim_of_contested (hm : claim ∈ claims db holder (parsedRows parsed))
    (hc : isContestedClaim db holder (parsedRows parsed) claim = true) :
    standingClaim db holder (parsedRows parsed) claim.1 = none := by
  cases h : standingClaim db holder (parsedRows parsed) claim.1 with
  | none => rfl
  | some other =>
    obtain ⟨ho, -, hoc⟩ := standingClaim_eq_some h
    have hrow : other.1 = claim.1 := fst_of_standing (claim_spec hm).1 h
    have hn : ((claims db holder (parsedRows parsed)).map Prod.fst).Nodup := by
      have hrows : (parsedRows parsed).Nodup := by
        refine List.Nodup.filterMap (fun a b c hac hbc => ?_) (nodup_bankLines parsed)
        rw [← line_of_readRow hac, line_of_readRow hbc]
      exact List.Nodup.of_append_left
        ((claims_perm db holder (parsedRows parsed)).nodup_iff.mpr hrows)
    rw [List.inj_on_of_nodup_map hn ho hm hrow, hc] at hoc
    cases hoc

theorem bankReconciliation_perm (db : AccountRows) (parsed : ParsedBankStatement) :
    ((reconcileBankStatement db parsed).matched.map (·.row.toBankLine) ++
      (reconcileBankStatement db parsed).missing.map (·.line)).Perm (bankLines parsed) := by
  let rows := parsedRows parsed
  let standing := standingClaim db (holderNameTokens parsed.accountHolderName) rows
  let unread := (bankLines parsed).filter fun line => (readRow line).isNone
  let refused := (rows.filter fun row => (standing row).isNone).map (·.toBankLine)
  have hmatched := filterMap_perm (k := (·.toBankLine)) (g := (·.row.toBankLine))
    (f := fun row => (standing row).map fun claim =>
      bankMatchedEntry db (holderNameTokens parsed.accountHolderName) rows row claim.2)
    rows fun row _ entry he => by
      obtain ⟨claim, -, rfl⟩ := Option.map_eq_some_iff.mp he
      rfl
  have hmissing : (reconcileBankStatement db parsed).missing.map (·.line) = unread ++ refused := by
    simp only [reconcileBankStatement, List.map_append, List.map_map]
    congr 1
    exact List.map_id _
  simp only [Option.isNone_map] at hmatched
  rw [hmissing]
  refine (List.perm_append_comm.append_left _).trans ?_
  rw [← List.append_assoc]
  exact (hmatched.append_right unread).trans (readRow_perm parsed)

/-- A transaction of the account that could be the row by its date. -/
def CompatibleInWindow (holder : List String) (row : BankRow) (dbTxn : Transaction) : Prop :=
  ∃ day, WithinADay day row.txnDate ∧ HasKey dbTxn day row.amount row.txn.direction ∧
    isStatementCandidateCompatible holder row.txn dbTxn (day ≠ row.txnDate) = true

omit [UnicodeTables] in
theorem mem_fuzzySet_iff {dbTxn : Transaction} :
    dbTxn ∈ fuzzySet db holder row ↔ dbTxn ∈ db.rows ∧ CompatibleInWindow holder row dbTxn := by
  rw [mem_fuzzySet]
  refine and_congr_right fun _ => ?_
  have hoff : ∀ offset : Int,
      decide (row.txnDate + offset ≠ row.txnDate) = decide (offset ≠ 0) := by
    intro offset
    rw [decide_eq_decide]
    omega
  constructor
  · rintro ⟨offset, ho, hk, hc⟩
    exact ⟨row.txnDate + offset, withinADay_iff.mpr ⟨offset, ho, rfl⟩, hk, (hoff offset).symm ▸ hc⟩
  · rintro ⟨day, hw, hk, hc⟩
    obtain ⟨offset, ho, rfl⟩ := withinADay_iff.mp hw
    exact ⟨offset, ho, hk, hoff offset ▸ hc⟩

omit [UnicodeTables] in
theorem mem_bankCandidateSet {id : Nat} :
    id ∈ bankCandidateSet db holder row ↔ ∃ dbTxn ∈ db.rows, dbTxn.id = id ∧
      (SharesReference row.txn dbTxn ∨ CompatibleInWindow holder row dbTxn) := by
  simp only [bankCandidateSet, referenceEvidence, List.mem_map, List.mem_append, List.mem_filter,
    decide_eq_true_eq, mem_fuzzySet_iff]
  constructor
  · rintro ⟨dbTxn, ⟨hm, hs⟩ | ⟨hm, hc⟩, rfl⟩
    · exact ⟨dbTxn, hm, rfl, .inl hs⟩
    · exact ⟨dbTxn, hm, rfl, .inr hc⟩
  · rintro ⟨dbTxn, hm, rfl, hs | hc⟩
    · exact ⟨dbTxn, .inl ⟨hm, hs⟩, rfl⟩
    · exact ⟨dbTxn, .inr ⟨hm, hc⟩, rfl⟩

omit [UnicodeTables] in
theorem bankCandidateSet_eq_nil_iff :
    bankCandidateSet db holder row = [] ↔
      ∀ dbTxn ∈ db.rows, ¬ SharesReference row.txn dbTxn ∧ ¬ CompatibleInWindow holder row dbTxn := by
  rw [List.eq_nil_iff_forall_not_mem]
  constructor
  · intro h dbTxn hm
    exact ⟨fun hs => h dbTxn.id (mem_bankCandidateSet.mpr ⟨dbTxn, hm, rfl, .inl hs⟩),
      fun hc => h dbTxn.id (mem_bankCandidateSet.mpr ⟨dbTxn, hm, rfl, .inr hc⟩)⟩
  · intro h id hid
    obtain ⟨dbTxn, hm, -, hs | hc⟩ := mem_bankCandidateSet.mp hid
    · exact (h dbTxn hm).1 hs
    · exact (h dbTxn hm).2 hc

theorem importable_bankMissedEntry (hr : row ∈ parsedRows parsed) :
    (bankMissedEntry db holder rows row).importable = true ↔ bankCandidateSet db holder row = [] := by
  have hread : (readRow row.toBankLine).isSome = true := by
    rw [(readRow_of_mem hr).2]
    rfl
  simp only [BankMissingEntry.importable, bankMissedEntry, hread, Bool.and_true, contendedMiss,
    Bool.not_eq_true', decide_eq_false_iff_not, ne_eq, not_not]

/-- What the reconciliation of a bank statement guarantees. -/
structure BankPartition (db : AccountRows) (parsed : ParsedBankStatement) : Prop where
  /-- Every line comes out once. -/
  lines : ((reconcileBankStatement db parsed).matched.map (·.row.toBankLine) ++
    (reconcileBankStatement db parsed).missing.map (·.line)).Perm (bankLines parsed)
  nodup_lines : (bankLines parsed).Nodup
  nodup_claims :
    ((claims db (holderNameTokens parsed.accountHolderName) (parsedRows parsed)).map
      (·.2.id)).Nodup
  /-- A claim is drawn from what its row could claim. -/
  drawn : ∀ claim ∈ claims db (holderNameTokens parsed.accountHolderName) (parsedRows parsed),
    claim.2.id ∈ contentionSet db (holderNameTokens parsed.accountHolderName) claim.1
  matched_claims : ∀ entry ∈ (reconcileBankStatement db parsed).matched,
    ∃ claim ∈ claims db (holderNameTokens parsed.accountHolderName) (parsedRows parsed),
      claim.1 = entry.row ∧ claim.2.id = entry.dbTxnId
  /-- Importable is absent. -/
  importable_iff : ∀ entry ∈ (reconcileBankStatement db parsed).missing, ∀ row,
    readRow entry.line = some row →
      (entry.importable = true ↔
        ∀ dbTxn ∈ db.rows, ¬ SharesReference row.txn dbTxn ∧
          ¬ CompatibleInWindow (holderNameTokens parsed.accountHolderName) row dbTxn)
  /-- A claim that is given up leaves a row nobody imports. -/
  demoted : ∀ claim ∈ claims db (holderNameTokens parsed.accountHolderName) (parsedRows parsed),
    isContestedClaim db (holderNameTokens parsed.accountHolderName) (parsedRows parsed) claim =
        true →
      ∃ entry ∈ (reconcileBankStatement db parsed).missing,
        entry.line = claim.1.toBankLine ∧ entry.importable = false

/-- **A bank statement is partitioned, its claims are injective, and importable means
absent.** -/
theorem reconcileBankStatement_partition (db : AccountRows) (parsed : ParsedBankStatement) :
    BankPartition db parsed where
  lines := bankReconciliation_perm db parsed
  nodup_lines := nodup_bankLines parsed
  nodup_claims := nodup_claims db _ _
  drawn claim hm := (claim_spec hm).2.2
  matched_claims := by
    intro entry he
    obtain ⟨row, hr, hs⟩ := List.mem_filterMap.mp he
    obtain ⟨claim, hc, rfl⟩ := Option.map_eq_some_iff.mp hs
    exact ⟨claim, (standingClaim_eq_some hc).1, fst_of_standing hr hc, rfl⟩
  importable_iff := by
    intro entry he row hread
    rcases List.mem_append.mp he with he | he
    · -- A line that could not be read has no row.
      obtain ⟨line, hl, rfl⟩ := List.mem_map.mp he
      have hnone := (List.mem_filter.mp hl).2
      rw [show (unreadEntry line).line = line from rfl] at hread
      rw [hread] at hnone
      cases hnone
    · obtain ⟨other, ho, rfl⟩ := List.mem_map.mp he
      have hm : other ∈ parsedRows parsed := List.mem_of_mem_filter ho
      have hother := (readRow_of_mem hm).2
      rw [show (bankMissedEntry db _ _ other).line = other.toBankLine from rfl, hother] at hread
      cases hread
      rw [importable_bankMissedEntry hm, bankCandidateSet_eq_nil_iff]
  demoted := by
    intro claim hm hc
    have hrow := (claim_spec hm).1
    refine ⟨_, List.mem_append_right _ (List.mem_map_of_mem (List.mem_filter.mpr
      ⟨hrow, by rw [standingClaim_of_contested hm hc]; rfl⟩)), rfl, ?_⟩
    rw [Bool.eq_false_iff, ne_eq, importable_bankMissedEntry hrow]
    exact List.ne_nil_of_mem (mem_candidates_of_contention (claim_spec hm).2.2)

end

end FinancialDashboard.Statements
