import FinancialDashboard.Statements.BankPartition
import FinancialDashboard.Statements.CcPartition

/-!
# The ledger rows a statement is compared with

An import reconciles a statement with every transaction of the account; a retry and the
preview ask the database for some of them.  Which of them a reconciliation can do without
is a matter of what its rows reach.

* `reconcileStatement_restrict`: for a card statement, transactions that no row reaches do
  not matter.
* `reconcileBankStatement_congr`: for a bank statement, neither does the order of the others.
-/

namespace FinancialDashboard.Statements

open PyText Transactions FirstCome

namespace AccountRows

/-- The transactions of the account that a query keeps. -/
def restrict (db : AccountRows) (keep : Transaction → Bool) : AccountRows where
  rows := db.rows.filter keep
  nodup_ids := db.nodup_ids.sublist (List.filter_sublist.map _)

theorem mem_restrict {db : AccountRows} {keep : Transaction → Bool} {row : Transaction} :
    row ∈ (db.restrict keep).rows ↔ row ∈ db.rows ∧ keep row = true := List.mem_filter

/-- A transaction that is kept is found as before. -/
theorem byId_restrict {db : AccountRows} {keep : Transaction → Bool} {row : Transaction}
    (hm : row ∈ db.rows) (hk : keep row = true) :
    (db.restrict keep).byId row.id = db.byId row.id := by
  rw [byId_of_mem hm, byId_of_mem (mem_restrict.mpr ⟨hm, hk⟩)]

end AccountRows

theorem bucket_restrict {rows : List Transaction} {keep : Transaction → Bool} {date : Int}
    {amount : Amount} {direction : Direction}
    (h : ∀ row, HasKey row date amount direction → keep row = true) :
    bucket (rows.filter keep) date amount direction = bucket rows date amount direction := by
  unfold bucket
  rw [List.filter_filter]
  refine List.filter_congr fun row _ => ?_
  by_cases hkey : HasKey row date amount direction
  · rw [h row hkey, Bool.and_true]
  · rw [decide_eq_false hkey, Bool.false_and]

/-! ### A card statement -/

section

variable [UnicodeTables] [NarrationTables] [Readers] {db : AccountRows} {masks : List String}
  {keep : Transaction → Bool} {lines : List Line} {contested entries : List MatchedEntry}
  {entry : MatchedEntry} {line : Line} {row : StmtTxn}

/-- What a row reaches is kept. -/
def KeepsReach (keep : Transaction → Bool) (row : StmtTxn) : Prop :=
  ∀ dbTxn, Reaches row dbTxn → keep dbTxn = true

omit [NarrationTables] in
theorem reaches_of_key {amount : Amount} {date offset : Int} {dbTxn : Transaction}
    (hi : identity row.txn = some (amount, date)) (ho : offset ∈ dateOffsets)
    (h : HasKey dbTxn (date + offset) amount row.direction) : Reaches row dbTxn :=
  ⟨amount, date, hi, inWindow_iff.mpr ⟨offset, ho, h⟩⟩

omit [NarrationTables] in
theorem candidateSet_restrict (h : KeepsReach keep row) :
    candidateSet (db.restrict keep) row = candidateSet db row := by
  unfold candidateSet
  cases hi : identity row.txn with
  | none => rfl
  | some p =>
    obtain ⟨amount, date⟩ := p
    refine List.flatMap_congr fun offset ho => congrArg _ (bucket_restrict fun dbTxn hkey => ?_)
    exact h dbTxn (reaches_of_key hi ho hkey)

omit [NarrationTables] in
theorem pick_restrict (h : KeepsReach keep line.toStmtTxn) (taken : List Transaction) :
    pick (db.restrict keep) masks taken line = pick db masks taken line := by
  unfold pick
  cases hi : identity line.txn with
  | none => rfl
  | some p =>
    obtain ⟨amount, date⟩ := p
    dsimp only
    have hpick : ∀ offset ∈ dateOffsets,
        pickFrom (db.restrict keep) masks taken (date + offset) amount line.direction =
          pickFrom db masks taken (date + offset) amount line.direction := by
      intro offset ho
      unfold pickFrom AccountRows.restrict
      rw [List.filter_comm, bucket_restrict fun dbTxn hkey => h dbTxn (reaches_of_key hi ho hkey)]
    simp only [dateOffsets, List.findSome?_cons, List.findSome?_nil, List.forall_mem_cons,
      List.not_mem_nil, false_implies, implies_true, and_true] at hpick ⊢
    rw [hpick.1, hpick.2.1, hpick.2.2]

omit [NarrationTables] in
theorem greedy_restrict (h : ∀ line ∈ lines, KeepsReach keep line.toStmtTxn) :
    greedy (db.restrict keep) masks lines = greedy db masks lines :=
  serve_congr (fun line hl taken => pick_restrict (h line hl) taken) []

omit [NarrationTables] in
theorem greedyMatched_restrict (h : ∀ line ∈ lines, KeepsReach keep line.toStmtTxn) :
    greedyMatched (db.restrict keep) masks lines = greedyMatched db masks lines := by
  unfold greedyMatched
  rw [greedy_restrict h]
  refine List.map_congr_left fun p hp => ?_
  obtain ⟨line, dbTxn⟩ := p
  have hl : line ∈ lines := (serve_perm (pick db masks) [] lines).subset
    (List.mem_append_left _ (List.mem_map_of_mem hp))
  change matchedEntry (db.restrict keep) line dbTxn = matchedEntry db line dbTxn
  unfold matchedEntry
  rw [candidateSet_restrict (h line hl)]

omit [NarrationTables] in
/-- A transaction that some row reaches is found as before. -/
theorem byId_of_candidate {cid : Nat} (h : KeepsReach keep row) (hc : cid ∈ candidateSet db row) :
    (db.restrict keep).byId cid = db.byId cid := by
  obtain ⟨dbTxn, hm, rfl, hr⟩ := mem_candidateSet.mp hc
  exact AccountRows.byId_restrict hm (h dbTxn hr)

omit [NarrationTables] in
theorem isContested_restrict (h : ∀ line ∈ lines, KeepsReach keep line.toStmtTxn)
    (he : entry ∈ greedyMatched db masks lines) :
    isContested (db.restrict keep) masks lines entry = isContested db masks lines entry := by
  have hrivals : reachingRivals (db.restrict keep) lines entry = reachingRivals db lines entry :=
    List.filter_congr fun other ho => by rw [candidateSet_restrict (h other ho)]
  have hmask : cardMaskOf (db.restrict keep) entry.dbTxnId = cardMaskOf db entry.dbTxnId := by
    obtain ⟨dbTxn, hid, ht⟩ := mayTake_of_greedy he
    unfold cardMaskOf
    rw [← hid, AccountRows.byId_restrict ht.mem (h entry.line (line_mem_of_greedy he) dbTxn ht.reaches)]
  unfold isContested rivals
  rw [hrivals, hmask]

omit [NarrationTables] in
theorem contestedEntries_restrict (h : ∀ line ∈ lines, KeepsReach keep line.toStmtTxn) :
    contestedEntries (db.restrict keep) masks lines = contestedEntries db masks lines := by
  unfold contestedEntries
  rw [greedyMatched_restrict h]
  exact List.filter_congr fun entry he => isContested_restrict h he

/-! ### Its contested entries -/

omit [NarrationTables] in
theorem tieGroups_restrict (h : ∀ entry ∈ contested, KeepsReach keep entry.line.toStmtTxn) :
    tieGroups (db.restrict keep) contested = tieGroups db contested := by
  have hroots : tieRoots (db.restrict keep) contested = tieRoots db contested := by
    unfold tieRoots
    refine congrArg (fun f => List.foldl f _ _) (funext fun roots => funext fun p => ?_)
    obtain ⟨i, j⟩ := p
    dsimp only
    cases hi : contested[i]? with
    | none => rfl
    | some a =>
      cases hj : contested[j]? with
      | none => rfl
      | some b =>
        dsimp only
        unfold sameTie
        rw [candidateSet_restrict (h a (List.mem_of_getElem? hi)),
          candidateSet_restrict (h b (List.mem_of_getElem? hj))]
  unfold tieGroups
  rw [hroots]

theorem rowNamesCandidate_restrict {cid : Nat} (h : KeepsReach keep row)
    (hc : cid ∈ candidateSet db row) :
    rowNamesCandidate (db.restrict keep) row cid = rowNamesCandidate db row cid := by
  unfold rowNamesCandidate
  rw [byId_of_candidate h hc]

theorem assigned_restrict (h : KeepsReach keep entry.line.toStmtTxn) (ids : List Nat) :
    assigned (db.restrict keep) ids entry = assigned db ids entry := by
  unfold assigned
  rw [candidateSet_restrict h, List.filter_congr fun cid hc => rowNamesCandidate_restrict h hc]

theorem namingRows_restrict (h : ∀ line ∈ lines, KeepsReach keep line.toStmtTxn) (ids : List Nat)
    (cid : Nat) :
    namingRows (db.restrict keep) lines ids cid = namingRows db lines ids cid := by
  have hrows : contestingRows (db.restrict keep) lines ids = contestingRows db lines ids :=
    List.filter_congr fun other ho => by rw [candidateSet_restrict (h other ho)]
  unfold namingRows
  rw [hrows]
  refine List.filter_congr fun other ho => ?_
  have hother := h other (List.mem_of_mem_filter ho)
  rw [candidateSet_restrict hother]
  by_cases hc : cid ∈ candidateSet db other.toStmtTxn
  · rw [rowNamesCandidate_restrict hother hc]
  · rw [decide_eq_false hc, Bool.false_and, Bool.false_and]

theorem groupResolves_restrict (h : ∀ line ∈ lines, KeepsReach keep line.toStmtTxn)
    (he : ∀ entry ∈ entries, KeepsReach keep entry.line.toStmtTxn) :
    groupResolves (db.restrict keep) lines entries = groupResolves db lines entries := by
  have hassigned : ∀ ids, ∀ entry ∈ entries,
      assigned (db.restrict keep) ids entry = assigned db ids entry :=
    fun ids entry hm => assigned_restrict (he entry hm) ids
  refine Bool.eq_iff_iff.mpr ?_
  simp only [groupResolves, namingRows_restrict h, Bool.and_eq_true, List.all_eq_true,
    List.any_eq_true, decide_eq_true_eq]
  refine and_congr_left' (and_congr (and_congr_right' ?_) ?_)
  · exact forall₂_congr fun entry hm => by rw [hassigned _ entry hm]
  · refine forall₂_congr fun cid _ => exists_congr fun entry => and_congr_right fun hm => ?_
    rw [hassigned _ entry hm]

theorem reassign_restrict (h : KeepsReach keep entry.line.toStmtTxn) (ids : List Nat) :
    reassign (db.restrict keep) ids entry = reassign db ids entry := by
  unfold reassign
  rw [assigned_restrict h]
  cases ha : assigned db ids entry with
  | none => rfl
  | some cid =>
    simp only [Option.bind_eq_bind, Option.bind_some]
    rw [byId_of_candidate h (assigned_eq_some ha).2.1]

theorem resolveContested_restrict (h : ∀ line ∈ lines, KeepsReach keep line.toStmtTxn)
    (hc : ∀ entry ∈ contested, entry.line ∈ lines) :
    resolveContestedByCounterparty (db.restrict keep) lines contested =
      resolveContestedByCounterparty db lines contested := by
  have hreach : ∀ entry ∈ contested, KeepsReach keep entry.line.toStmtTxn :=
    fun entry he => h entry.line (hc entry he)
  unfold resolveContestedByCounterparty
  rw [tieGroups_restrict hreach]
  refine List.flatMap_congr fun entries hg => ?_
  have hentries : ∀ entry ∈ entries, KeepsReach keep entry.line.toStmtTxn :=
    fun entry he => hreach entry (mem_contested_of_group hg he)
  rw [groupResolves_restrict h hentries]
  by_cases hres : groupResolves db lines entries = true
  · rw [if_pos hres, if_pos hres]
    exact List.filterMap_congr fun entry he => reassign_restrict (hentries entry he) _
  · rw [if_neg hres, if_neg hres]

/-! ### The whole reconciliation -/

/-- **Transactions that no row reaches do not matter.** -/
theorem reconcileStatement_restrict {parsed : ParsedCcStatement}
    (h : ∀ line ∈ stmtLines parsed, KeepsReach keep line.toStmtTxn) :
    reconcileStatement (db.restrict keep) masks parsed = reconcileStatement db masks parsed := by
  have hline : ∀ entry ∈ contestedEntries db masks (stmtLines parsed),
      entry.line ∈ stmtLines parsed :=
    fun entry he => line_mem_of_greedy (mem_contestedEntries.mp he).1
  have hresolved : ∀ entry, resolvedEntry (db.restrict keep) masks (stmtLines parsed) entry =
      resolvedEntry db masks (stmtLines parsed) entry := by
    intro entry
    unfold resolvedEntry
    rw [contestedEntries_restrict h, resolveContested_restrict h hline]
  have hdemoted : demotedEntries (db.restrict keep) masks (stmtLines parsed) =
      demotedEntries db masks (stmtLines parsed) := by
    unfold demotedEntries
    rw [contestedEntries_restrict h]
    exact List.filter_congr fun entry _ => by rw [hresolved entry]
  unfold reconcileStatement
  dsimp only
  rw [greedyMatched_restrict h, greedy_restrict h, hdemoted]
  congr 1
  · refine List.filterMap_congr fun entry he => ?_
    unfold keptEntry
    rw [isContested_restrict h he, hresolved entry]
  · congr 2
    · refine List.map_congr_left fun line hl => ?_
      have hm : line ∈ stmtLines parsed :=
        (greedy_perm db masks (stmtLines parsed)).subset (List.mem_append_right _ hl)
      unfold missedEntry
      rw [candidateSet_restrict (h line hm)]
    · refine List.map_congr_left fun entry he => ?_
      unfold demotedEntry
      rw [candidateSet_restrict (h entry.line (hline entry (List.mem_of_mem_filter he)))]

end

/-! ### A bank statement -/

section

variable [UnicodeTables] [Readers] {db db' : AccountRows} {holder : List String}
  {row : BankRow} {rows : List BankRow} {consumed : List Transaction}

/-- A row finds the same transactions in both, in whatever order. -/
structure SameEvidence (db db' : AccountRows) (row : BankRow) : Prop where
  reference : (referenceEvidence db row).Perm (referenceEvidence db' row)
  window : ∀ offset ∈ dateOffsets,
    (bucket db.rows (row.txnDate + offset) row.amount row.txn.direction).Perm
      (bucket db'.rows (row.txnDate + offset) row.amount row.txn.direction)

omit [UnicodeTables] [Readers] in
theorem eq_singleton_perm {l l' : List Transaction} (h : l.Perm l') {only : Transaction} :
    l = [only] ↔ l' = [only] := by
  constructor
  · rintro rfl
    exact List.perm_singleton.mp h.symm
  · rintro rfl
    exact List.perm_singleton.mp h

omit [UnicodeTables] [Readers] in
/-- What decides alone does so in any order. -/
theorem takeSoleUnconsumed_perm {candidates candidates' : List Transaction}
    (h : candidates.Perm candidates') :
    takeSoleUnconsumed candidates consumed = takeSoleUnconsumed candidates' consumed := by
  have hf := h.filter (· ∉ consumed)
  unfold takeSoleUnconsumed
  split
  next only ho => rw [(eq_singleton_perm hf).mp ho]
  next hne =>
    split
    next only ho => exact absurd ((eq_singleton_perm hf).mpr ho) (hne only)
    next => rfl

omit [UnicodeTables] [Readers] in
theorem selectUniqueCompatible_perm {a b : CompatibleCandidates} (hs : a.strong.Perm b.strong)
    (hc : a.compatible.Perm b.compatible) :
    selectUniqueCompatible a = selectUniqueCompatible b := by
  have hdecide : (if a.strong ≠ [] then a.strong else a.compatible).Perm
      (if b.strong ≠ [] then b.strong else b.compatible) := by
    by_cases h : a.strong = []
    · have hb : b.strong = [] := List.nil_perm.mp (h ▸ hs)
      rw [if_neg (not_not_intro h), if_neg (not_not_intro hb)]
      exact hc
    · have hb : b.strong ≠ [] := fun hb => h (List.perm_nil.mp (hb ▸ hs))
      rw [if_pos h, if_pos hb]
      exact hs
  unfold selectUniqueCompatible
  split
  next only ho => rw [(eq_singleton_perm hdecide).mp ho]
  next hne =>
    split
    next only ho => exact absurd ((eq_singleton_perm hdecide).mpr ho) (hne only)
    next => rfl

namespace SameEvidence

omit [UnicodeTables] [Readers] in
theorem compatibleByReference (h : SameEvidence db db' row) :
    (compatibleByReference db row).Perm (compatibleByReference db' row) := h.reference.filter _

omit [UnicodeTables] in
theorem compatibleCandidates (h : SameEvidence db db' row) {offset : Int}
    (ho : offset ∈ dateOffsets) :
    (compatibleCandidates db holder consumed row offset).compatible.Perm
      (compatibleCandidates db' holder consumed row offset).compatible := (h.window offset ho).filter _

omit [UnicodeTables] in
theorem pickByDate (h : SameEvidence db db' row) (consumed : List Transaction) :
    pickByDate db holder consumed row = pickByDate db' holder consumed row := by
  have hselect : ∀ offset ∈ dateOffsets,
      selectUniqueCompatible (Statements.compatibleCandidates db holder consumed row offset) =
        selectUniqueCompatible (Statements.compatibleCandidates db' holder consumed row offset) :=
    fun offset ho =>
      selectUniqueCompatible_perm ((h.compatibleCandidates ho).filter _) (h.compatibleCandidates ho)
  unfold Statements.pickByDate
  simp only [dateOffsets, List.findSome?_cons, List.findSome?_nil, List.forall_mem_cons,
    List.not_mem_nil, false_implies, implies_true, and_true] at hselect ⊢
  rw [hselect.1, hselect.2.1, hselect.2.2]

omit [UnicodeTables] in
theorem fuzzySet (h : SameEvidence db db' row) :
    (fuzzySet db holder row).Perm (fuzzySet db' holder row) :=
  List.Perm.flatMap_left _ fun _ ho => h.compatibleCandidates ho

omit [UnicodeTables] in
theorem bankCandidateSet (h : SameEvidence db db' row) :
    (bankCandidateSet db holder row).Perm (bankCandidateSet db' holder row) :=
  (h.reference.append h.fuzzySet).map _

omit [UnicodeTables] in
theorem mem_contentionSet (h : SameEvidence db db' row) {id : Nat} :
    id ∈ contentionSet db holder row ↔ id ∈ contentionSet db' holder row :=
  ((h.compatibleByReference.append h.fuzzySet).map _).mem_iff

end SameEvidence

omit [UnicodeTables] [Readers] in
theorem candidateEvidence_perm {candidates candidates' : List Nat}
    (h : candidates.Perm candidates') (reason : DecisionReason) (gates : List String) :
    candidateEvidence candidates reason gates = candidateEvidence candidates' reason gates := by
  have hsorted : candidates.dedup.insertionSort (· ≤ ·) = candidates'.dedup.insertionSort (· ≤ ·) :=
    List.Perm.eq_of_pairwise' (List.pairwise_insertionSort _ _) (List.pairwise_insertionSort _ _)
      (((List.perm_insertionSort _ _).trans h.dedup).trans (List.perm_insertionSort _ _).symm)
  unfold candidateEvidence
  rw [hsorted]

omit [UnicodeTables] [Readers] in
theorem referencePass_congr (h : ∀ row ∈ rows, SameEvidence db db' row) :
    referencePass db rows = referencePass db' rows :=
  serve_congr (fun row hr _ => takeSoleUnconsumed_perm (h row hr).compatibleByReference) []

omit [UnicodeTables] in
theorem datePass_congr (h : ∀ row ∈ rows, SameEvidence db db' row) :
    datePass db holder rows = datePass db' holder rows := by
  unfold datePass secondRound
  rw [referencePass_congr h]
  refine serve_congr (fun row hr consumed => ?_) _
  have hm : row ∈ rows := (serve_perm (pickByReference db') [] rows).subset
    (List.mem_append_right _ hr)
  exact (h row hm).pickByDate consumed

omit [UnicodeTables] in
theorem claims_congr (h : ∀ row ∈ rows, SameEvidence db db' row) :
    claims db holder rows = claims db' holder rows := by
  unfold claims
  rw [referencePass_congr h, datePass_congr h]

theorem standingClaim_congr (h : ∀ row ∈ rows, SameEvidence db db' row) (row : BankRow) :
    standingClaim db holder rows row = standingClaim db' holder rows row := by
  have hcontested : ∀ claim,
      isContestedClaim db holder rows claim = isContestedClaim db' holder rows claim := by
    intro claim
    refine Bool.eq_iff_iff.mpr ?_
    simp only [isContestedClaim, List.any_eq_true, Bool.and_eq_true, decide_eq_true_eq]
    refine exists_congr fun other => and_congr_right fun ho => and_congr_left' ?_
    rw [(h other ho).mem_contentionSet]
  unfold standingClaim claimOf
  rw [claims_congr h]
  simp only [hcontested]

/-- **A bank statement comes out alike where its rows find the same transactions.** -/
theorem reconcileBankStatement_congr {parsed : ParsedBankStatement}
    (h : ∀ row ∈ parsedRows parsed, SameEvidence db db' row) :
    reconcileBankStatement db parsed = reconcileBankStatement db' parsed := by
  unfold reconcileBankStatement
  dsimp only
  simp only [standingClaim_congr h]
  congr 1
  · refine List.filterMap_congr fun row hr => congrArg (Option.map · _) (funext fun claim => ?_)
    unfold bankMatchedEntry
    rw [candidateEvidence_perm (h row hr).bankCandidateSet, referencePass_congr h]
  · refine congrArg _ (List.map_congr_left fun row hr => ?_)
    have hset : (bankCandidateSet db (holderNameTokens parsed.accountHolderName) row).Perm
        (bankCandidateSet db' (holderNameTokens parsed.accountHolderName) row) :=
      (h row (List.mem_of_mem_filter hr)).bankCandidateSet
    have hempty : (bankCandidateSet db (holderNameTokens parsed.accountHolderName) row = []) =
        (bankCandidateSet db' (holderNameTokens parsed.accountHolderName) row = []) :=
      propext ⟨fun he => List.nil_perm.mp (he ▸ hset), fun he => List.perm_nil.mp (he ▸ hset)⟩
    unfold bankMissedEntry contendedMiss claimOf
    simp only [ne_eq, hempty, claims_congr h, candidateEvidence_perm hset]

omit [UnicodeTables] [Readers] in
/-- What decides nothing about a row is left out. -/
theorem sameEvidence_restrict {keep : Transaction → Bool}
    (hr : ∀ dbTxn, SharesReference row.txn dbTxn → keep dbTxn = true)
    (hw : ∀ dbTxn, InWindow dbTxn row.txnDate row.amount row.txn.direction → keep dbTxn = true) :
    SameEvidence (db.restrict keep) db row where
  reference := by
    unfold referenceEvidence AccountRows.restrict
    rw [List.filter_filter, List.filter_congr fun dbTxn _ => ?_]
    by_cases hs : SharesReference row.txn dbTxn
    · rw [hr dbTxn hs, Bool.and_true]
    · rw [decide_eq_false hs, Bool.false_and]
  window offset ho := by
    unfold AccountRows.restrict
    rw [bucket_restrict fun dbTxn hk => hw dbTxn (inWindow_iff.mpr ⟨offset, ho, hk⟩)]

end

end FinancialDashboard.Statements
