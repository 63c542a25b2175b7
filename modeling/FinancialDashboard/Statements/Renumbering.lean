import FinancialDashboard.Statements.BankPartition
import FinancialDashboard.Statements.CcPartition

/-!
# Other numbers, and rows that cannot be read

A row that cannot be read reaches no transaction.  A statement with it and one without
it differ in the numbers of the rows behind it, and neither reconciler reads more of a
number than which row it is of and which comes first.

* `filter_insertionSort`, `zipIdx_eraseIdx`: what is left out of a sorted and of a
  numbered list.
* `matched_renumber`, `missing_renumber`: a card statement under other numbers.
* `matched_keep`, `missing_keep`: a card statement without rows that cannot be read.
* `bankMatched_renumber`, `bankMissed_renumber`: a bank statement under other numbers.
-/

namespace FinancialDashboard.Statements

open PyText Transactions FirstCome

/-! ### Lists -/

section

variable {α : Type} {r : α → α → Prop} [DecidableRel r]

theorem filter_orderedInsert_of_neg {p : α → Bool} {a : α} (h : ¬ p a = true) (l : List α) :
    (l.orderedInsert r a).filter p = l.filter p := by
  induction l with
  | nil => rw [List.orderedInsert_nil, List.filter_cons_of_neg h]
  | cons b rest ih =>
    by_cases hab : r a b
    · rw [List.orderedInsert_cons_of_le r rest hab, List.filter_cons_of_neg h]
    · rw [List.orderedInsert_of_not_le r rest hab, List.filter_cons, List.filter_cons, ih]

/-- Where all that is kept comes later, what is inserted comes first. -/
theorem orderedInsert_of_forall {a : α} {l : List α} (h : ∀ b ∈ l, r a b) :
    l.orderedInsert r a = a :: l := by
  cases l with
  | nil => rfl
  | cons b rest => exact List.orderedInsert_cons_of_le r rest (h b List.mem_cons_self)

theorem filter_orderedInsert_of_pos [IsTrans α r] {p : α → Bool} {a : α} (h : p a = true)
    {l : List α} (hl : l.Pairwise r) :
    (l.orderedInsert r a).filter p = (l.filter p).orderedInsert r a := by
  induction l with
  | nil => rw [List.orderedInsert_nil, List.filter_cons_of_pos h, List.filter_nil]; rfl
  | cons b rest ih =>
    obtain ⟨hb, hrest⟩ := List.pairwise_cons.mp hl
    by_cases hab : r a b
    · rw [List.orderedInsert_cons_of_le r rest hab, List.filter_cons_of_pos h,
        orderedInsert_of_forall fun c hc => ?_]
      rcases List.mem_cons.mp (List.mem_of_mem_filter hc) with rfl | hc
      · exact hab
      · exact IsTrans.trans _ _ _ hab (hb c hc)
    · rw [List.orderedInsert_of_not_le r rest hab]
      by_cases hpb : p b = true
      · rw [List.filter_cons_of_pos hpb, List.filter_cons_of_pos hpb,
          List.orderedInsert_of_not_le r _ hab, ih hrest]
      · rw [List.filter_cons_of_neg hpb, List.filter_cons_of_neg hpb, ih hrest]

/-- **A part of a list is sorted as the list is.** -/
theorem filter_insertionSort [Std.Total r] [IsTrans α r] (p : α → Bool) (l : List α) :
    (l.insertionSort r).filter p = (l.filter p).insertionSort r := by
  induction l with
  | nil => rfl
  | cons a rest ih =>
    rw [List.insertionSort_cons]
    by_cases h : p a = true
    · rw [filter_orderedInsert_of_pos h (List.pairwise_insertionSort r rest), ih,
        List.filter_cons_of_pos h, List.insertionSort_cons]
    · rw [filter_orderedInsert_of_neg h, ih, List.filter_cons_of_neg h]

end

/-- The number of a row among all, from its number without row `k`. -/
def shift (k : Nat) (idx : Nat) : Nat := if idx < k then idx else idx + 1

theorem shift_strictMono (k : Nat) : StrictMono (shift k) := by
  intro a b h
  unfold shift
  split_ifs <;> omega

/-- **The numbers of a list without its row `k`.** -/
theorem zipIdx_eraseIdx {α : Type} (l : List α) (k start : Nat) :
    ((l.eraseIdx k).zipIdx start).map (Prod.map id (shift (start + k))) =
      (l.zipIdx start).filter (·.2 ≠ start + k) := by
  induction l generalizing k start with
  | nil => rfl
  | cons a rest ih =>
    cases k with
    | zero =>
      have hlater : ∀ entry ∈ rest.zipIdx (start + 1), entry.2 ≠ start := by
        rintro ⟨b, j⟩ hmem
        have := (List.mem_zipIdx hmem).1
        exact fun h => by simp only at h; omega
      rw [List.eraseIdx_cons_zero, List.zipIdx_cons, List.filter_cons_of_neg (by simp),
        List.filter_eq_self.mpr fun entry hmem => by simpa using hlater entry hmem,
        Nat.add_zero, List.zipIdx_succ]
      refine List.map_congr_left fun entry hmem => ?_
      obtain ⟨b, j⟩ := entry
      have hle := (List.mem_zipIdx hmem).1
      simp only [Prod.map, id, shift, if_neg (show ¬ j < start by omega)]
    | succ k =>
      have hhead : shift (start + (k + 1)) start = start := by
        rw [shift, if_pos (by omega)]
      have hnext : start + (k + 1) = start + 1 + k := by omega
      rw [List.eraseIdx_cons_succ, List.zipIdx_cons, List.zipIdx_cons, List.map_cons,
        List.filter_cons_of_pos (by simp), hnext, ih k (start + 1), ← hnext]
      simp only [Prod.map, id, hhead]

/-! ### Card rows under other numbers -/

def Line.renumber (σ : Nat → Nat) (line : Line) : Line := { line with stmtIdx := σ line.stmtIdx }

def MatchedEntry.renumber (σ : Nat → Nat) (entry : MatchedEntry) : MatchedEntry :=
  { entry with line := entry.line.renumber σ }

def MissingEntry.renumber (σ : Nat → Nat) (entry : MissingEntry) : MissingEntry :=
  { entry with line := entry.line.renumber σ }

section

variable [UnicodeTables] [NarrationTables] [Readers] {db : AccountRows} {masks : List String}
  {lines : List Line} {contested : List MatchedEntry} {entry : MatchedEntry} {σ : Nat → Nat}

omit [NarrationTables] in
theorem greedy_renumber (σ : Nat → Nat) (db : AccountRows) (masks : List String)
    (lines : List Line) :
    greedy db masks (lines.map (Line.renumber σ)) =
      ⟨(greedy db masks lines).served.map (Prod.map (Line.renumber σ) id),
        (greedy db masks lines).refused.map (Line.renumber σ)⟩ :=
  serve_map _ (fun _ _ => rfl) [] lines

omit [NarrationTables] in
theorem greedyMatched_renumber :
    greedyMatched db masks (lines.map (Line.renumber σ)) =
      (greedyMatched db masks lines).map (MatchedEntry.renumber σ) := by
  rw [greedyMatched, greedyMatched, greedy_renumber, List.map_map, List.map_map]
  rfl

omit [NarrationTables] in
theorem reachingRivals_renumber (hσ : StrictMono σ) :
    reachingRivals db (lines.map (Line.renumber σ)) (entry.renumber σ) =
      (reachingRivals db lines entry).map (Line.renumber σ) := by
  unfold reachingRivals
  rw [List.filter_map]
  refine congrArg _ (List.filter_congr fun other _ => ?_)
  change (decide (σ other.stmtIdx ≠ σ entry.line.stmtIdx) && _) =
    (decide (other.stmtIdx ≠ entry.line.stmtIdx) && _)
  rw [decide_eq_decide.mpr hσ.injective.ne_iff]
  rfl

omit [NarrationTables] in
theorem rivals_renumber (hσ : StrictMono σ) :
    rivals db masks (lines.map (Line.renumber σ)) (entry.renumber σ) =
      (rivals db masks lines entry).map (Line.renumber σ) := by
  unfold rivals
  dsimp only
  rw [reachingRivals_renumber hσ, List.filter_map]
  by_cases h :
      confirmedSameCard entry.line.txn.cardNumber (cardMaskOf db entry.dbTxnId) masks = true
  · rw [if_pos h]
    exact if_pos h
  · rw [if_neg h]
    exact if_neg h

omit [NarrationTables] in
theorem isContested_renumber (hσ : StrictMono σ) :
    isContested db masks (lines.map (Line.renumber σ)) (entry.renumber σ) =
      isContested db masks lines entry := by
  rw [isContested, isContested, rivals_renumber hσ, List.any_map]
  rfl

omit [NarrationTables] in
theorem contestedEntries_renumber (hσ : StrictMono σ) :
    contestedEntries db masks (lines.map (Line.renumber σ)) =
      (contestedEntries db masks lines).map (MatchedEntry.renumber σ) := by
  rw [contestedEntries, contestedEntries, greedyMatched_renumber, List.filter_map]
  exact congrArg _ (List.filter_congr fun _ _ => isContested_renumber hσ)

omit [NarrationTables] in
theorem tieRoots_renumber :
    tieRoots db (contested.map (MatchedEntry.renumber σ)) = tieRoots db contested := by
  unfold tieRoots
  rw [List.length_map]
  refine congrArg (fun f => List.foldl f _ _) (funext fun roots => funext fun (i, j) => ?_)
  dsimp only
  rw [List.getElem?_map, List.getElem?_map]
  cases contested[i]? <;> cases contested[j]? <;> rfl

omit [NarrationTables] in
theorem tieGroups_renumber :
    tieGroups db (contested.map (MatchedEntry.renumber σ)) =
      (tieGroups db contested).map (List.map (MatchedEntry.renumber σ)) := by
  unfold tieGroups
  dsimp only
  rw [tieRoots_renumber, List.map_map]
  refine List.map_congr_left fun root _ => ?_
  rw [List.zip_map_left, List.filter_map, List.map_map, Function.comp_apply, List.map_map]
  rfl

theorem groupResolves_renumber {entries : List MatchedEntry} :
    groupResolves db (lines.map (Line.renumber σ)) (entries.map (MatchedEntry.renumber σ)) =
      groupResolves db lines entries := by
  have hids : (entries.map (MatchedEntry.renumber σ)).map (·.dbTxnId) =
      entries.map (·.dbTxnId) := by
    rw [List.map_map]
    rfl
  have hnaming : ∀ ids cid, (namingRows db (lines.map (Line.renumber σ)) ids cid).length =
      (namingRows db lines ids cid).length := by
    intro ids cid
    unfold namingRows contestingRows
    rw [List.filter_map, List.filter_map, List.length_map]
    rfl
  unfold groupResolves
  dsimp only
  rw [hids, List.length_map, List.all_map]
  simp only [hnaming, List.any_map]
  rfl

theorem reassign_renumber {ids : List Nat} :
    reassign db ids (entry.renumber σ) = (reassign db ids entry).map (MatchedEntry.renumber σ) := by
  unfold reassign
  rw [show assigned db ids (entry.renumber σ) = assigned db ids entry from rfl]
  cases assigned db ids entry with
  | none => rfl
  | some cid =>
    simp only [Option.bind_eq_bind, Option.bind_some]
    cases db.byId cid <;> rfl

theorem resolveContested_renumber :
    resolveContestedByCounterparty db (lines.map (Line.renumber σ))
        (contested.map (MatchedEntry.renumber σ)) =
      (resolveContestedByCounterparty db lines contested).map (MatchedEntry.renumber σ) := by
  unfold resolveContestedByCounterparty
  rw [tieGroups_renumber, List.flatMap_map, List.map_flatMap]
  refine List.flatMap_congr fun entries _ => ?_
  rw [groupResolves_renumber, List.map_map]
  by_cases h : groupResolves db lines entries = true
  · rw [if_pos h, if_pos h, List.filterMap_map, List.map_filterMap]
    exact List.filterMap_congr fun e _ => reassign_renumber
  · rw [if_neg h, if_neg h]
    rfl

theorem resolvedEntry_renumber (hσ : StrictMono σ) :
    resolvedEntry db masks (lines.map (Line.renumber σ)) (entry.renumber σ) =
      (resolvedEntry db masks lines entry).map (MatchedEntry.renumber σ) := by
  unfold resolvedEntry
  rw [contestedEntries_renumber hσ, resolveContested_renumber, List.find?_map]
  refine congrArg _ (congrArg (fun p => List.find? p _) (funext fun other => ?_))
  exact decide_eq_decide.mpr hσ.injective.eq_iff

theorem keptEntry_renumber (hσ : StrictMono σ) :
    keptEntry db masks (lines.map (Line.renumber σ)) (entry.renumber σ) =
      (keptEntry db masks lines entry).map (MatchedEntry.renumber σ) := by
  rw [keptEntry, keptEntry, isContested_renumber hσ, resolvedEntry_renumber hσ]
  by_cases h : isContested db masks lines entry = true
  · rw [if_pos h, if_pos h]
  · rw [if_neg h, if_neg h]
    rfl

/-- What a card statement matches. -/
theorem matched_renumber (hσ : StrictMono σ) :
    (greedyMatched db masks (lines.map (Line.renumber σ))).filterMap
        (keptEntry db masks (lines.map (Line.renumber σ))) =
      ((greedyMatched db masks lines).filterMap (keptEntry db masks lines)).map
        (MatchedEntry.renumber σ) := by
  rw [greedyMatched_renumber, List.filterMap_map, List.map_filterMap]
  exact List.filterMap_congr fun _ _ => keptEntry_renumber hσ

theorem demotedEntries_renumber (hσ : StrictMono σ) :
    demotedEntries db masks (lines.map (Line.renumber σ)) =
      (demotedEntries db masks lines).map (MatchedEntry.renumber σ) := by
  rw [demotedEntries, demotedEntries, contestedEntries_renumber hσ, List.filter_map]
  refine congrArg _ (List.filter_congr fun e _ => ?_)
  rw [Function.comp_apply, resolvedEntry_renumber hσ, Option.isNone_map]

/-- What it misses, in the order of the sheet. -/
theorem missing_renumber (hσ : StrictMono σ) :
    ((greedy db masks (lines.map (Line.renumber σ))).refused.map (missedEntry db) ++
        (demotedEntries db masks (lines.map (Line.renumber σ))).map (demotedEntry db)).insertionSort
          (fun a b => a.line.stmtIdx ≤ b.line.stmtIdx) =
      (((greedy db masks lines).refused.map (missedEntry db) ++
        (demotedEntries db masks lines).map (demotedEntry db)).insertionSort
          fun a b => a.line.stmtIdx ≤ b.line.stmtIdx).map (MissingEntry.renumber σ) := by
  have hmissed : ∀ line : Line,
      missedEntry db (line.renumber σ) = (missedEntry db line).renumber σ := by
    intro line
    unfold missedEntry
    dsimp only
    by_cases h : (identity line.txn).isSome = true
    · rw [if_pos h]
      exact if_pos h
    · rw [if_neg h]
      exact if_neg h
  rw [List.map_insertionSort (fun a b : MissingEntry => a.line.stmtIdx ≤ b.line.stmtIdx)
      (fun a b : MissingEntry => a.line.stmtIdx ≤ b.line.stmtIdx) (MissingEntry.renumber σ) _
      fun a _ b _ => hσ.le_iff_le.symm,
    greedy_renumber, demotedEntries_renumber hσ, List.map_append, List.map_map, List.map_map,
    List.map_map, List.map_map]
  rw [show missedEntry db ∘ Line.renumber σ = MissingEntry.renumber σ ∘ missedEntry db from
    funext hmissed]
  rfl

end

/-! ### Card rows that cannot be read -/

section

variable [UnicodeTables] [NarrationTables] [Readers] {db : AccountRows} {masks : List String}
  {lines : List Line} {contested : List MatchedEntry} {entry : MatchedEntry} {keep : Line → Bool}

omit [NarrationTables] in
theorem candidateSet_of_unread {row : StmtTxn} (h : identity row.txn = none) :
    candidateSet db row = [] := by
  rw [candidateSet, h]

omit [NarrationTables] in
/-- A row that reaches a transaction is kept. -/
theorem keep_of_reaches (hk : ∀ line, keep line = false → identity line.txn = none) {line : Line}
    {cid : Nat} (h : cid ∈ candidateSet db line.toStmtTxn) : keep line = true := by
  cases hkeep : keep line with
  | true => rfl
  | false =>
    rw [candidateSet_of_unread (hk line hkeep)] at h
    cases h

omit [NarrationTables] in
theorem greedy_keep (hk : ∀ line, keep line = false → identity line.txn = none) :
    greedy db masks (lines.filter keep) =
      ⟨(greedy db masks lines).served, (greedy db masks lines).refused.filter keep⟩ :=
  serve_filter (fun taken line hkeep => by rw [pick, hk line hkeep]) [] lines

omit [NarrationTables] in
theorem greedyMatched_keep (hk : ∀ line, keep line = false → identity line.txn = none) :
    greedyMatched db masks (lines.filter keep) = greedyMatched db masks lines := by
  rw [greedyMatched, greedyMatched, greedy_keep hk]

omit [NarrationTables] in
theorem reachingRivals_keep (hk : ∀ line, keep line = false → identity line.txn = none) :
    reachingRivals db (lines.filter keep) entry = reachingRivals db lines entry := by
  unfold reachingRivals
  rw [List.filter_filter]
  refine List.filter_congr fun other _ => ?_
  by_cases h : entry.dbTxnId ∈ candidateSet db other.toStmtTxn
  · rw [keep_of_reaches hk h, Bool.and_true]
  · simp [h]

omit [NarrationTables] in
theorem isContested_keep (hk : ∀ line, keep line = false → identity line.txn = none) :
    isContested db masks (lines.filter keep) entry = isContested db masks lines entry := by
  rw [isContested, isContested, rivals, rivals, reachingRivals_keep hk]

omit [NarrationTables] in
theorem contestedEntries_keep (hk : ∀ line, keep line = false → identity line.txn = none) :
    contestedEntries db masks (lines.filter keep) = contestedEntries db masks lines := by
  rw [contestedEntries, contestedEntries, greedyMatched_keep hk]
  exact List.filter_congr fun _ _ => isContested_keep hk

omit [NarrationTables] in
theorem contestingRows_keep (hk : ∀ line, keep line = false → identity line.txn = none)
    (ids : List Nat) : contestingRows db (lines.filter keep) ids = contestingRows db lines ids := by
  unfold contestingRows
  rw [List.filter_filter]
  refine List.filter_congr fun other _ => ?_
  by_cases h : ∃ cid ∈ ids, cid ∈ candidateSet db other.toStmtTxn
  · obtain ⟨cid, -, hcid⟩ := h
    rw [keep_of_reaches hk hcid, Bool.and_true]
  · have hnone : (ids.any (· ∈ candidateSet db other.toStmtTxn)) = false := by
      rw [List.any_eq_false]
      exact fun cid hmem hcid => h ⟨cid, hmem, of_decide_eq_true hcid⟩
    rw [hnone, Bool.false_and]

theorem resolveContested_keep (hk : ∀ line, keep line = false → identity line.txn = none) :
    resolveContestedByCounterparty db (lines.filter keep) contested =
      resolveContestedByCounterparty db lines contested := by
  unfold resolveContestedByCounterparty
  refine List.flatMap_congr fun entries _ => ?_
  have hresolves :
      groupResolves db (lines.filter keep) entries = groupResolves db lines entries := by
    unfold groupResolves namingRows
    simp only [contestingRows_keep hk]
  rw [hresolves]

theorem resolvedEntry_keep (hk : ∀ line, keep line = false → identity line.txn = none) :
    resolvedEntry db masks (lines.filter keep) entry = resolvedEntry db masks lines entry := by
  rw [resolvedEntry, resolvedEntry, contestedEntries_keep hk, resolveContested_keep hk]

/-- What a card statement matches. -/
theorem matched_keep (hk : ∀ line, keep line = false → identity line.txn = none) :
    (greedyMatched db masks (lines.filter keep)).filterMap
        (keptEntry db masks (lines.filter keep)) =
      (greedyMatched db masks lines).filterMap (keptEntry db masks lines) := by
  rw [greedyMatched_keep hk]
  refine List.filterMap_congr fun e _ => ?_
  rw [keptEntry, keptEntry, isContested_keep hk, resolvedEntry_keep hk]

theorem demotedEntries_keep (hk : ∀ line, keep line = false → identity line.txn = none) :
    demotedEntries db masks (lines.filter keep) = demotedEntries db masks lines := by
  rw [demotedEntries, demotedEntries, contestedEntries_keep hk]
  exact List.filter_congr fun e _ => by rw [resolvedEntry_keep hk]

/-- What it misses: a demoted row had won a transaction. -/
theorem missing_keep (hk : ∀ line, keep line = false → identity line.txn = none) :
    ((greedy db masks (lines.filter keep)).refused.map (missedEntry db) ++
        (demotedEntries db masks (lines.filter keep)).map (demotedEntry db)).insertionSort
          (fun a b => a.line.stmtIdx ≤ b.line.stmtIdx) =
      (((greedy db masks lines).refused.map (missedEntry db) ++
        (demotedEntries db masks lines).map (demotedEntry db)).insertionSort
          fun a b => a.line.stmtIdx ≤ b.line.stmtIdx).filter fun e => keep e.line := by
  have hdemoted : ((demotedEntries db masks lines).map (demotedEntry db)).filter
      (fun e => keep e.line) = (demotedEntries db masks lines).map (demotedEntry db) := by
    refine List.filter_eq_self.mpr fun e he => ?_
    obtain ⟨won, hwon, rfl⟩ := List.mem_map.mp he
    obtain ⟨dbTxn, -, htake⟩ :=
      mayTake_of_greedy (mem_contestedEntries.mp (List.mem_of_mem_filter hwon)).1
    exact keep_of_reaches hk (mem_candidateSet.mpr ⟨dbTxn, htake.mem, rfl, htake.reaches⟩)
  have hmissed : (fun e : MissingEntry => keep e.line) ∘ missedEntry db = keep :=
    funext fun line => congrArg keep (line_missedEntry line)
  rw [filter_insertionSort, List.filter_append, hdemoted, List.filter_map, hmissed,
    greedy_keep hk, demotedEntries_keep hk]

end

/-! ### Bank rows under other numbers -/

def BankLine.renumber (σ : Nat → Nat) (line : BankLine) : BankLine :=
  { line with stmtIdx := σ line.stmtIdx }

def BankRow.renumber (σ : Nat → Nat) (row : BankRow) : BankRow :=
  { row with stmtIdx := σ row.stmtIdx }

def BankMatchedEntry.renumber (σ : Nat → Nat) (entry : BankMatchedEntry) : BankMatchedEntry :=
  { entry with row := entry.row.renumber σ }

def BankMissingEntry.renumber (σ : Nat → Nat) (entry : BankMissingEntry) : BankMissingEntry :=
  { entry with line := entry.line.renumber σ }

section

variable [UnicodeTables] [Readers] {db : AccountRows} {holder : List String}
  {rows : List BankRow} {row : BankRow} {claim : BankRow × Transaction} {σ : Nat → Nat}

theorem readRow_renumber (line : BankLine) :
    readRow (line.renumber σ) = (readRow line).map (BankRow.renumber σ) := by
  have htxn : (line.renumber σ).txn = line.txn := rfl
  unfold readRow
  rw [htxn]
  cases parseAmount line.txn.amount <;> cases parseDate line.txn.date <;> rfl

omit [UnicodeTables] [Readers] in
theorem referencePass_renumber (σ : Nat → Nat) (db : AccountRows) (rows : List BankRow) :
    referencePass db (rows.map (BankRow.renumber σ)) =
      ⟨(referencePass db rows).served.map (Prod.map (BankRow.renumber σ) id),
        (referencePass db rows).refused.map (BankRow.renumber σ)⟩ :=
  serve_map _ (fun _ _ => rfl) [] rows

omit [UnicodeTables] in
theorem claims_renumber :
    claims db holder (rows.map (BankRow.renumber σ)) =
      (claims db holder rows).map (Prod.map (BankRow.renumber σ) id) := by
  have hgiven : (referencePass db (rows.map (BankRow.renumber σ))).given =
      (referencePass db rows).given := by
    rw [referencePass_renumber, Outcome.given, List.map_map]
    rfl
  have hdate : datePass db holder (rows.map (BankRow.renumber σ)) =
      ⟨(datePass db holder rows).served.map (Prod.map (BankRow.renumber σ) id),
        (datePass db holder rows).refused.map (BankRow.renumber σ)⟩ := by
    unfold datePass secondRound
    rw [hgiven, referencePass_renumber]
    exact serve_map _ (fun _ _ => rfl) _ _
  rw [claims, claims, hdate, referencePass_renumber, List.map_append]

theorem isContestedClaim_renumber (hσ : StrictMono σ) :
    isContestedClaim db holder (rows.map (BankRow.renumber σ))
        (Prod.map (BankRow.renumber σ) id claim) = isContestedClaim db holder rows claim := by
  unfold isContestedClaim
  rw [List.any_map]
  refine congrArg (fun p => List.any rows p) (funext fun other => ?_)
  change (decide (σ other.stmtIdx ≠ σ claim.1.stmtIdx) && _ && _) =
    (decide (other.stmtIdx ≠ claim.1.stmtIdx) && _ && _)
  rw [decide_eq_decide.mpr hσ.injective.ne_iff]
  rfl

omit [UnicodeTables] in
theorem claimOf_renumber (hσ : StrictMono σ) :
    claimOf db holder (rows.map (BankRow.renumber σ)) (row.renumber σ) =
      (claimOf db holder rows row).map (Prod.map (BankRow.renumber σ) id) := by
  rw [claimOf, claimOf, claims_renumber, List.find?_map]
  refine congrArg _ (congrArg (fun p => List.find? p _) (funext fun other => ?_))
  exact decide_eq_decide.mpr hσ.injective.eq_iff

theorem standingClaim_renumber (hσ : StrictMono σ) :
    standingClaim db holder (rows.map (BankRow.renumber σ)) (row.renumber σ) =
      (standingClaim db holder rows row).map (Prod.map (BankRow.renumber σ) id) := by
  rw [standingClaim, standingClaim, claimOf_renumber hσ]
  cases claimOf db holder rows row with
  | none => rfl
  | some claim =>
    rw [Option.map_some, Option.filter_some, Option.filter_some, isContestedClaim_renumber hσ]
    cases isContestedClaim db holder rows claim <;> rfl

/-- What a bank statement matches. -/
theorem bankMatched_renumber (hσ : StrictMono σ) :
    ((rows.map (BankRow.renumber σ)).filterMap fun row =>
        (standingClaim db holder (rows.map (BankRow.renumber σ)) row).map fun claim =>
          bankMatchedEntry db holder (rows.map (BankRow.renumber σ)) row claim.2) =
      (rows.filterMap fun row => (standingClaim db holder rows row).map fun claim =>
        bankMatchedEntry db holder rows row claim.2).map (BankMatchedEntry.renumber σ) := by
  have hentry : ∀ row dbTxn, bankMatchedEntry db holder (rows.map (BankRow.renumber σ))
      (row.renumber σ) dbTxn = (bankMatchedEntry db holder rows row dbTxn).renumber σ := by
    intro row dbTxn
    have hany : ((referencePass db (rows.map (BankRow.renumber σ))).served.any
        (·.1.stmtIdx = (row.renumber σ).stmtIdx)) =
          (referencePass db rows).served.any (·.1.stmtIdx = row.stmtIdx) := by
      rw [referencePass_renumber, List.any_map]
      exact congrArg (fun p => List.any _ p)
        (funext fun other => decide_eq_decide.mpr hσ.injective.eq_iff)
    unfold bankMatchedEntry
    rw [hany]
    rfl
  rw [List.filterMap_map, List.map_filterMap]
  refine List.filterMap_congr fun row _ => ?_
  rw [Function.comp_apply, standingClaim_renumber hσ, Option.map_map, Option.map_map]
  cases standingClaim db holder rows row with
  | none => rfl
  | some claim => exact congrArg some (hentry row claim.2)

/-- What it refuses. -/
theorem bankMissed_renumber (hσ : StrictMono σ) :
    ((rows.map (BankRow.renumber σ)).filter fun row =>
        (standingClaim db holder (rows.map (BankRow.renumber σ)) row).isNone).map
          (bankMissedEntry db holder (rows.map (BankRow.renumber σ))) =
      ((rows.filter fun row => (standingClaim db holder rows row).isNone).map
        (bankMissedEntry db holder rows)).map (BankMissingEntry.renumber σ) := by
  have hentry : ∀ row, bankMissedEntry db holder (rows.map (BankRow.renumber σ))
      (row.renumber σ) = (bankMissedEntry db holder rows row).renumber σ := by
    intro row
    unfold bankMissedEntry
    rw [claimOf_renumber hσ, Option.isSome_map]
    rfl
  rw [List.filter_map, List.map_map, List.map_map]
  rw [show bankMissedEntry db holder (rows.map (BankRow.renumber σ)) ∘ BankRow.renumber σ =
    BankMissingEntry.renumber σ ∘ bankMissedEntry db holder rows from funext hentry]
  refine congrArg _ (List.filter_congr fun row _ => ?_)
  rw [Function.comp_apply, standingClaim_renumber hσ, Option.isNone_map]

end

end FinancialDashboard.Statements
