import FinancialDashboard.Statements.CreditCard
import Mathlib.Data.List.Perm.Subperm
import Mathlib.Data.List.Range

/-!
# Card statements: a partition and an injective matching

* `reconcileStatement_partition`: every row of the statement is matched or missing, and
  only once; no transaction is matched twice; a matched pair agrees on amount and
  direction, lies in the window and keeps to the account's cards.
* `absent_of_importable`: a row left for import has no transaction of the account in
  its window.
-/

namespace FinancialDashboard.Statements

open PyText Transactions FirstCome

/-! ### The rows of the statement -/

section

variable [UnicodeTables]

/-- What is dropped are tagged credits, each with a debit twin of its own. -/
theorem dropClaimedTwins_perm (twins : List TwinKey) (credits : List CcTransaction) :
    ∃ dropped, (dropClaimedTwins twins credits ++ dropped).Perm credits ∧
      (∀ txn ∈ dropped, isInternalTransferCredit txn = true) ∧
      (dropped.map ledgerTwinKey).Subperm twins := by
  induction credits generalizing twins with
  | nil => exact ⟨[], by simp [dropClaimedTwins], by simp, List.nil_subperm⟩
  | cons txn rest ih =>
    by_cases h : (isInternalTransferCredit txn && ledgerTwinKey txn ∈ twins) = true
    · obtain ⟨dropped, hp, ht, hs⟩ := ih (twins.erase (ledgerTwinKey txn))
      rw [Bool.and_eq_true, decide_eq_true_eq] at h
      refine ⟨txn :: dropped, ?_, ?_, ?_⟩
      · simp only [dropClaimedTwins, h.1, h.2, decide_true, Bool.and_self, if_true]
        exact List.perm_middle.trans (hp.cons txn)
      · intro other hm
        rcases List.mem_cons.mp hm with rfl | hm
        · exact h.1
        · exact ht other hm
      · exact ((List.subperm_cons _).mpr hs).trans (List.perm_cons_erase h.2).symm.subperm
    · obtain ⟨dropped, hp, ht, hs⟩ := ih twins
      refine ⟨dropped, ?_, ht, hs⟩
      simp only [dropClaimedTwins, h]
      exact hp.cons txn

theorem map_stmtIdx_stmtLines (parsed : ParsedCcStatement) :
    (stmtLines parsed).map (·.stmtIdx) = List.range (stmtTxns parsed).length := by
  rw [stmtLines, List.map_map, List.range_eq_range']
  exact List.zipIdx_map_snd 0 _

theorem map_toStmtTxn_stmtLines (parsed : ParsedCcStatement) :
    (stmtLines parsed).map (·.toStmtTxn) = stmtTxns parsed := by
  rw [stmtLines, List.map_map]
  exact List.zipIdx_map_fst 0 _

theorem nodup_stmtIdx (parsed : ParsedCcStatement) :
    ((stmtLines parsed).map (·.stmtIdx)).Nodup := by
  rw [map_stmtIdx_stmtLines]
  exact List.nodup_range

theorem nodup_stmtLines (parsed : ParsedCcStatement) : (stmtLines parsed).Nodup :=
  (nodup_stmtIdx parsed).of_map _

theorem line_eq_of_stmtIdx {parsed : ParsedCcStatement} {a b : Line} (ha : a ∈ stmtLines parsed)
    (hb : b ∈ stmtLines parsed) (h : a.stmtIdx = b.stmtIdx) : a = b :=
  List.inj_on_of_nodup_map (nodup_stmtIdx parsed) ha hb h

end

/-! ### Candidates -/

section

variable [UnicodeTables] [Readers] {db : AccountRows} {row : StmtTxn} {cid : Nat}

/-- The transaction lies in the window of the statement row. -/
def Reaches (row : StmtTxn) (dbTxn : Transaction) : Prop :=
  ∃ amount date, identity row.txn = some (amount, date) ∧
    InWindow dbTxn date amount row.direction

omit [UnicodeTables] [Readers] in
theorem mem_reachable {amount : Amount} {direction : Direction} {date : Int} :
    cid ∈ reachable db amount direction date ↔
      ∃ dbTxn ∈ db.rows, dbTxn.id = cid ∧ InWindow dbTxn date amount direction := by
  simp only [reachable, List.mem_flatMap, List.mem_map, mem_bucket, inWindow_iff]
  constructor
  · rintro ⟨offset, ho, dbTxn, ⟨hm, hk⟩, rfl⟩
    exact ⟨dbTxn, hm, rfl, offset, ho, hk⟩
  · rintro ⟨dbTxn, hm, rfl, offset, ho, hk⟩
    exact ⟨offset, ho, dbTxn, ⟨hm, hk⟩, rfl⟩

theorem mem_candidateSet :
    cid ∈ candidateSet db row ↔ ∃ dbTxn ∈ db.rows, dbTxn.id = cid ∧ Reaches row dbTxn := by
  unfold candidateSet Reaches
  cases identity row.txn with
  | none => simp
  | some p =>
    obtain ⟨amount, date⟩ := p
    simp only [mem_reachable, Option.some.injEq, Prod.mk.injEq]
    constructor
    · rintro ⟨dbTxn, hm, hid, hw⟩
      exact ⟨dbTxn, hm, hid, amount, date, ⟨rfl, rfl⟩, hw⟩
    · rintro ⟨dbTxn, hm, hid, _, _, ⟨rfl, rfl⟩, hw⟩
      exact ⟨dbTxn, hm, hid, hw⟩

end

/-! ### The greedy pass -/

section

variable [UnicodeTables] [Readers] {db : AccountRows} {masks : List String}

/-- What the picker lets a row have. -/
structure MayTake (db : AccountRows) (masks : List String) (row : StmtTxn)
    (dbTxn : Transaction) : Prop where
  mem : dbTxn ∈ db.rows
  reaches : Reaches row dbTxn
  compatible : ccCardCompatible dbTxn.cardMask masks = true

theorem fair_pick (db : AccountRows) (masks : List String) :
    Fair (fun line dbTxn => MayTake db masks line.toStmtTxn dbTxn) (pick db masks) := by
  have picked : ∀ {taken line dbTxn}, pick db masks taken line = some dbTxn →
      dbTxn ∉ taken ∧ MayTake db masks line.toStmtTxn dbTxn := by
    intro taken line dbTxn h
    unfold pick at h
    cases hi : identity line.txn with
    | none =>
      rw [hi] at h
      cases h
    | some p =>
      obtain ⟨amount, date⟩ := p
      rw [hi] at h
      obtain ⟨offset, ho, hf⟩ := List.exists_of_findSome?_eq_some h
      have hm := List.mem_of_find?_eq_some hf
      have hc := List.find?_some hf
      rw [mem_bucket, List.mem_filter, decide_eq_true_eq] at hm
      obtain ⟨⟨hdb, hfree⟩, hk⟩ := hm
      exact ⟨hfree, hdb, ⟨amount, date, hi, inWindow_iff.mpr ⟨offset, ho, hk⟩⟩, hc⟩
  exact ⟨fun h => (picked h).1, fun h => (picked h).2⟩

theorem mem_greedyMatched {lines : List Line} {entry : MatchedEntry} :
    entry ∈ greedyMatched db masks lines ↔
      ∃ p ∈ (greedy db masks lines).served, matchedEntry db p.1 p.2 = entry := by
  simp [greedyMatched, List.mem_map]

theorem mayTake_of_greedy {lines : List Line} {entry : MatchedEntry}
    (h : entry ∈ greedyMatched db masks lines) :
    ∃ dbTxn, dbTxn.id = entry.dbTxnId ∧ MayTake db masks entry.line.toStmtTxn dbTxn := by
  obtain ⟨p, hp, rfl⟩ := mem_greedyMatched.mp h
  exact ⟨p.2, rfl, served_reaches (fair_pick db masks) hp⟩

/-- **The greedy pass gives no transaction out twice.** -/
theorem nodup_greedyMatched (db : AccountRows) (masks : List String) (lines : List Line) :
    ((greedyMatched db masks lines).map (·.dbTxnId)).Nodup := by
  have hn := nodup_served (fair_pick db masks) [] lines
  have he : (greedyMatched db masks lines).map (·.dbTxnId) =
      (greedy db masks lines).given.map (·.id) := by
    simp only [greedyMatched, Outcome.given, List.map_map]
    rfl
  rw [he]
  refine List.Nodup.map_on (fun a ha b hb hid => ?_) hn
  have inDb : ∀ c ∈ (greedy db masks lines).given, c ∈ db.rows := by
    intro c hc
    obtain ⟨p, hp, rfl⟩ := List.mem_map.mp hc
    exact (served_reaches (fair_pick db masks) hp).mem
  exact AccountRows.eq_of_id (inDb a ha) (inDb b hb) hid

theorem greedy_perm (db : AccountRows) (masks : List String) (lines : List Line) :
    ((greedyMatched db masks lines).map (·.line) ++ (greedy db masks lines).refused).Perm
      lines := by
  have he : (greedyMatched db masks lines).map (·.line) =
      (greedy db masks lines).served.map Prod.fst := by
    simp only [greedyMatched, List.map_map]
    rfl
  rw [he]
  exact serve_perm (pick db masks) [] lines

theorem line_mem_of_greedy {lines : List Line} {entry : MatchedEntry}
    (h : entry ∈ greedyMatched db masks lines) : entry.line ∈ lines :=
  (greedy_perm db masks lines).subset
    (List.mem_append_left _ (List.mem_map_of_mem h))

end

/-! ### Reassigned entries -/

section

variable [UnicodeTables] [NarrationTables] [Readers] {db : AccountRows} {masks : List String}
  {lines : List Line} {contested : List MatchedEntry} {entry resolved : MatchedEntry}

/-- What an entry is reassigned on: its row reaches and names the transaction, no other
row of the statement does, and a contested entry had won it. -/
structure ResolvedTo (db : AccountRows) (lines : List Line) (contested : List MatchedEntry)
    (entry : MatchedEntry) : Prop where
  reaches : entry.dbTxnId ∈ candidateSet db entry.line.toStmtTxn
  names : rowNamesCandidate db entry.line.toStmtTxn entry.dbTxnId = true
  only : ∀ other ∈ lines, entry.dbTxnId ∈ candidateSet db other.toStmtTxn →
    rowNamesCandidate db other.toStmtTxn entry.dbTxnId = true → other = entry.line
  won : ∃ winner ∈ contested, winner.dbTxnId = entry.dbTxnId

theorem assigned_eq_some {ids : List Nat} {cid : Nat} (h : assigned db ids entry = some cid) :
    cid ∈ ids ∧ cid ∈ candidateSet db entry.line.toStmtTxn ∧
      rowNamesCandidate db entry.line.toStmtTxn cid = true := by
  unfold assigned at h
  split at h
  next named hn =>
    split_ifs at h with hids
    cases h
    have hm : cid ∈ [cid] := List.mem_cons_self
    rw [← hn, List.mem_filter] at hm
    exact ⟨hids, hm⟩
  next => cases h

theorem reassign_eq_some {ids : List Nat} (h : reassign db ids entry = some resolved) :
    assigned db ids entry = some resolved.dbTxnId ∧ resolved.line = entry.line := by
  unfold reassign at h
  cases ha : assigned db ids entry with
  | none => simp [ha] at h
  | some cid =>
    cases hb : db.byId cid with
    | none => simp [ha, hb] at h
    | some dbTxn =>
      simp only [ha, hb, Option.bind_eq_bind, Option.bind_some, Option.pure_def,
        Option.some.injEq] at h
      cases h
      exact ⟨congrArg some (AccountRows.mem_of_byId hb).2.symm, rfl⟩

omit [NarrationTables] in
theorem mem_contested_of_group {entries : List MatchedEntry}
    (h : entries ∈ tieGroups db contested) (he : entry ∈ entries) : entry ∈ contested := by
  obtain ⟨root, -, rfl⟩ := List.mem_map.mp h
  obtain ⟨p, hp, rfl⟩ := List.mem_map.mp he
  exact (List.of_mem_zip (List.mem_of_mem_filter hp)).1

theorem naming_unique {ids : List Nat} {cid : Nat} {a b : Line} (hc : cid ∈ ids)
    (hone : (namingRows db lines ids cid).length = 1)
    (ha : a ∈ lines) (har : cid ∈ candidateSet db a.toStmtTxn)
    (han : rowNamesCandidate db a.toStmtTxn cid = true)
    (hb : b ∈ lines) (hbr : cid ∈ candidateSet db b.toStmtTxn)
    (hbn : rowNamesCandidate db b.toStmtTxn cid = true) : a = b := by
  obtain ⟨only, ho⟩ := List.length_eq_one_iff.mp hone
  have naming : ∀ c ∈ lines, cid ∈ candidateSet db c.toStmtTxn →
      rowNamesCandidate db c.toStmtTxn cid = true → c = only := by
    intro c hl hr hn
    have hm : c ∈ namingRows db lines ids cid := by
      simp only [namingRows, contestingRows, List.mem_filter, List.any_eq_true,
        decide_eq_true_eq, Bool.and_eq_true]
      exact ⟨⟨hl, cid, hc, hr⟩, hr, hn⟩
    rw [ho] at hm
    exact List.mem_singleton.mp hm
  rw [naming a ha har han, naming b hb hbr hbn]

theorem resolvedTo_of_mem (hl : ∀ winner ∈ contested, winner.line ∈ lines)
    (h : resolved ∈ resolveContestedByCounterparty db lines contested) :
    resolved.line ∈ lines ∧ ResolvedTo db lines contested resolved := by
  obtain ⟨entries, hg, hr⟩ := List.mem_flatMap.mp h
  by_cases hres : groupResolves db lines entries = true
  swap
  · rw [if_neg hres] at hr
    cases hr
  rw [if_pos hres] at hr
  obtain ⟨winner, hw, hre⟩ := List.mem_filterMap.mp hr
  obtain ⟨ha, hline⟩ := reassign_eq_some hre
  obtain ⟨hids, hreach, hnames⟩ := assigned_eq_some ha
  rw [← hline] at hreach hnames
  have hlines : resolved.line ∈ lines := by
    rw [hline]
    exact hl winner (mem_contested_of_group hg hw)
  simp only [groupResolves, Bool.and_eq_true, List.all_eq_true, decide_eq_true_eq] at hres
  have hone := hres.2 _ hids
  refine ⟨hlines, hreach, hnames, fun other ho hor hon => ?_, ?_⟩
  · exact naming_unique hids hone ho hor hon hlines hreach hnames
  · obtain ⟨first, hf, hid⟩ := List.mem_map.mp hids
    exact ⟨first, mem_contested_of_group hg hf, hid⟩

end

/-! ### The reconciliation -/

section

variable [UnicodeTables] [NarrationTables] [Readers] {db : AccountRows} {masks : List String}
  {parsed : ParsedCcStatement} {entry kept : MatchedEntry}

omit [NarrationTables] in
theorem mem_contestedEntries {lines : List Line} :
    entry ∈ contestedEntries db masks lines ↔
      entry ∈ greedyMatched db masks lines ∧ isContested db masks lines entry = true :=
  List.mem_filter

theorem resolvedEntry_eq_some (hm : entry ∈ greedyMatched db masks (stmtLines parsed))
    (h : resolvedEntry db masks (stmtLines parsed) entry = some kept) :
    kept.line = entry.line ∧
      ResolvedTo db (stmtLines parsed) (contestedEntries db masks (stmtLines parsed)) kept := by
  have hl : ∀ winner ∈ contestedEntries db masks (stmtLines parsed),
      winner.line ∈ stmtLines parsed :=
    fun winner hw => line_mem_of_greedy (mem_contestedEntries.mp hw).1
  rw [resolvedEntry] at h
  obtain ⟨hk, hr⟩ := resolvedTo_of_mem hl (List.mem_of_find?_eq_some h)
  have hidx : kept.line.stmtIdx = entry.line.stmtIdx := by simpa using List.find?_some h
  exact ⟨line_eq_of_stmtIdx hk (line_mem_of_greedy hm) hidx, hr⟩

/-- How a match comes out: as the greedy pass made it, nobody contesting it, or
reassigned. -/
theorem matched_cases (h : kept ∈ (reconcileStatement db masks parsed).matched) :
    (kept ∈ greedyMatched db masks (stmtLines parsed) ∧
        isContested db masks (stmtLines parsed) kept = false) ∨
      ResolvedTo db (stmtLines parsed) (contestedEntries db masks (stmtLines parsed)) kept := by
  obtain ⟨entry, he, hk⟩ := List.mem_filterMap.mp h
  unfold keptEntry at hk
  split_ifs at hk with hc
  · exact .inr (resolvedEntry_eq_some he hk).2
  · cases hk
    exact .inl ⟨he, Bool.eq_false_iff.mpr hc⟩

theorem line_of_keptEntry (hm : entry ∈ greedyMatched db masks (stmtLines parsed))
    (h : keptEntry db masks (stmtLines parsed) entry = some kept) : kept.line = entry.line := by
  unfold keptEntry at h
  split_ifs at h
  · exact (resolvedEntry_eq_some hm h).1
  · cases h
    rfl

theorem isNone_keptEntry {lines : List Line} :
    (keptEntry db masks lines entry).isNone =
      (isContested db masks lines entry && (resolvedEntry db masks lines entry).isNone) := by
  rw [keptEntry]
  by_cases hc : isContested db masks lines entry = true
  · rw [if_pos hc, hc, Bool.true_and]
  · rw [if_neg hc, Bool.eq_false_iff.mpr hc]
    rfl

theorem demotedEntries_eq (lines : List Line) :
    demotedEntries db masks lines =
      (greedyMatched db masks lines).filter fun e => (keptEntry db masks lines e).isNone := by
  unfold demotedEntries contestedEntries
  rw [List.filter_filter]
  refine List.filter_congr fun e _ => ?_
  rw [isNone_keptEntry, Bool.and_comm]

omit [NarrationTables] in
theorem line_missedEntry (line : Line) : (missedEntry db line).line = line := by
  unfold missedEntry
  dsimp only
  split_ifs <;> rfl

theorem missing_perm :
    ((reconcileStatement db masks parsed).missing.map (·.line)).Perm
      ((greedy db masks (stmtLines parsed)).refused ++
        (demotedEntries db masks (stmtLines parsed)).map (·.line)) := by
  refine ((List.perm_insertionSort _ _).map _).trans ?_
  rw [List.map_append, List.map_map, List.map_map]
  have hm : ((·.line) ∘ missedEntry db) = id := funext line_missedEntry
  rw [hm, List.map_id]
  exact .refl _

theorem reconciliation_perm (db : AccountRows) (masks : List String)
    (parsed : ParsedCcStatement) :
    ((reconcileStatement db masks parsed).matched.map (·.line) ++
      (reconcileStatement db masks parsed).missing.map (·.line)).Perm (stmtLines parsed) := by
  have hkept := filterMap_perm (greedyMatched db masks (stmtLines parsed))
    fun e he k (hk : keptEntry db masks (stmtLines parsed) e = some k) => line_of_keptEntry he hk
  rw [← demotedEntries_eq] at hkept
  refine (missing_perm.append_left _).trans ?_
  refine (List.perm_append_comm.append_left _).trans ?_
  rw [← List.append_assoc]
  exact (hkept.append_right _).trans (greedy_perm db masks (stmtLines parsed))

/-- Two matches that end on one transaction are of one row. -/
theorem line_eq_of_dbTxnId {a b : MatchedEntry}
    (ha : a ∈ (reconcileStatement db masks parsed).matched)
    (hb : b ∈ (reconcileStatement db masks parsed).matched) (hid : a.dbTxnId = b.dbTxnId) :
    a.line = b.line := by
  have hinj : ∀ {x y}, x ∈ greedyMatched db masks (stmtLines parsed) →
      y ∈ greedyMatched db masks (stmtLines parsed) → x.dbTxnId = y.dbTxnId → x = y :=
    fun hx hy => List.inj_on_of_nodup_map (nodup_greedyMatched db masks (stmtLines parsed)) hx hy
  -- What is reassigned a contested entry had won, so no uncontested one holds it.
  have apart : ∀ {x y : MatchedEntry}, x ∈ greedyMatched db masks (stmtLines parsed) →
      isContested db masks (stmtLines parsed) x = false →
      ResolvedTo db (stmtLines parsed) (contestedEntries db masks (stmtLines parsed)) y →
      x.dbTxnId ≠ y.dbTxnId := by
    intro x y hx hc hy he
    obtain ⟨winner, hw, hwid⟩ := hy.won
    obtain ⟨hwm, hwc⟩ := mem_contestedEntries.mp hw
    rw [hinj hx hwm (he.trans hwid.symm), hwc] at hc
    cases hc
  have inLines : ∀ {x}, x ∈ (reconcileStatement db masks parsed).matched →
      x.line ∈ stmtLines parsed := fun hx =>
    (reconciliation_perm db masks parsed).subset
      (List.mem_append_left _ (List.mem_map_of_mem hx))
  rcases matched_cases ha with ⟨ha, hac⟩ | har <;> rcases matched_cases hb with ⟨hb, hbc⟩ | hbr
  · rw [hinj ha hb hid]
  · exact absurd hid (apart ha hac hbr)
  · exact absurd hid.symm (apart hb hbc har)
  · exact hbr.only a.line (inLines ha) (hid ▸ har.reaches) (hid ▸ har.names)

theorem nodup_matched (db : AccountRows) (masks : List String) (parsed : ParsedCcStatement) :
    ((reconcileStatement db masks parsed).matched.map (·.dbTxnId)).Nodup := by
  have hlines : ((reconcileStatement db masks parsed).matched.map (·.line)).Nodup :=
    List.Nodup.of_append_left
      ((reconciliation_perm db masks parsed).nodup_iff.mpr (nodup_stmtLines parsed))
  refine List.Nodup.map_on (fun a ha b hb hid => ?_) hlines.of_map
  exact List.inj_on_of_nodup_map hlines ha hb (line_eq_of_dbTxnId ha hb hid)

/-- Every match is one the picker allows, also after it was reassigned. -/
theorem mayTake_of_matched (h : kept ∈ (reconcileStatement db masks parsed).matched) :
    ∃ dbTxn, dbTxn.id = kept.dbTxnId ∧ MayTake db masks kept.line.toStmtTxn dbTxn := by
  rcases matched_cases h with ⟨hg, -⟩ | hr
  · exact mayTake_of_greedy hg
  · -- The row reaches the transaction; that the cards allow it, its first winner tells.
    obtain ⟨dbTxn, hm, hid, hreach⟩ := mem_candidateSet.mp hr.reaches
    obtain ⟨winner, hw, hwid⟩ := hr.won
    obtain ⟨wonTxn, hwon, htake⟩ := mayTake_of_greedy (mem_contestedEntries.mp hw).1
    have he : wonTxn = dbTxn :=
      AccountRows.eq_of_id htake.mem hm (hwon.trans (hwid.trans hid.symm))
    exact ⟨dbTxn, hid, hm, hreach, he ▸ htake.compatible⟩

/-- A match as the statement and the account have it: one amount, one direction, dates at
most a day apart, and a card of the account. -/
def SoundMatch (db : AccountRows) (masks : List String) (entry : MatchedEntry) : Prop :=
  ∃ dbTxn ∈ db.rows, dbTxn.id = entry.dbTxnId ∧
    parseAmount entry.line.txn.amount = some (.finite dbTxn.amount) ∧
    dbTxn.direction = entry.line.direction.value ∧
    (∃ day date, dbTxn.transactionDate = some day ∧
      parseDate entry.line.txn.date = some date ∧ WithinADay day date) ∧
    ccCardCompatible dbTxn.cardMask masks = true

omit [NarrationTables] in
theorem soundMatch_of_mayTake {dbTxn : Transaction} (hid : dbTxn.id = entry.dbTxnId)
    (h : MayTake db masks entry.line.toStmtTxn dbTxn) : SoundMatch db masks entry := by
  obtain ⟨amount, date, hi, day, hw, hday, hamount, hdir⟩ := h.reaches
  obtain ⟨hread, hdate⟩ := textIdentity_eq_some.mp hi
  exact ⟨dbTxn, h.mem, hid, hamount ▸ hread, hdir, ⟨day, date, hday, hdate, hw⟩, h.compatible⟩

/-- **A card statement is partitioned, and its matching is injective and sound.**  The
rows it drops are tagged credits, each with a debit twin of its own. -/
theorem reconcileStatement_partition (db : AccountRows) (masks : List String)
    (parsed : ParsedCcStatement) :
    ((reconcileStatement db masks parsed).matched.map (·.line) ++
        (reconcileStatement db masks parsed).missing.map (·.line)).Perm (stmtLines parsed) ∧
      (stmtLines parsed).Nodup ∧
      (∃ twins, (dropClaimedTwins (parsed.transactions.map ledgerTwinKey)
          parsed.paymentsRefunds ++ twins).Perm parsed.paymentsRefunds ∧
        (∀ txn ∈ twins, isInternalTransferCredit txn = true) ∧
        (twins.map ledgerTwinKey).Subperm (parsed.transactions.map ledgerTwinKey)) ∧
      ((reconcileStatement db masks parsed).matched.map (·.dbTxnId)).Nodup ∧
      ∀ entry ∈ (reconcileStatement db masks parsed).matched, SoundMatch db masks entry := by
  refine ⟨reconciliation_perm db masks parsed, nodup_stmtLines parsed,
    dropClaimedTwins_perm _ _, nodup_matched db masks parsed, fun entry he => ?_⟩
  obtain ⟨dbTxn, hid, ht⟩ := mayTake_of_matched he
  exact soundMatch_of_mayTake hid ht

/-! ### What may be imported -/

omit [NarrationTables] in
theorem importable_missedEntry (line : Line) :
    (missedEntry db line).importable = true ↔
      (identity line.txn).isSome = true ∧ candidateSet db line.toStmtTxn = [] := by
  rw [MissingEntry.importable, line_missedEntry, missedEntry]
  by_cases hid : (identity line.txn).isSome = true
  · simp [hid, contendedMiss]
  · simp [hid]

theorem candidateSet_ne_nil_of_matched
    (h : entry ∈ (reconcileStatement db masks parsed).matched) :
    candidateSet db entry.line.toStmtTxn ≠ [] := by
  obtain ⟨dbTxn, -, ht⟩ := mayTake_of_matched h
  exact List.ne_nil_of_mem (mem_candidateSet.mpr ⟨dbTxn, ht.mem, rfl, ht.reaches⟩)

/-- A missing row is left for import exactly when it can be read and has no candidate. -/
theorem importable_iff {missed : MissingEntry}
    (h : missed ∈ (reconcileStatement db masks parsed).missing) :
    missed.importable = true ↔
      (identity missed.line.txn).isSome = true ∧ candidateSet db missed.line.toStmtTxn = [] := by
  rcases List.mem_append.mp ((List.mem_insertionSort _).mp h) with h | h
  · obtain ⟨line, -, rfl⟩ := List.mem_map.mp h
    rw [importable_missedEntry, line_missedEntry]
  · -- What was demoted had won a transaction.
    obtain ⟨entry, he, rfl⟩ := List.mem_map.mp h
    have hg := (mem_contestedEntries.mp (List.mem_of_mem_filter he)).1
    obtain ⟨dbTxn, -, ht⟩ := mayTake_of_greedy hg
    have hc : dbTxn.id ∈ candidateSet db entry.line.toStmtTxn :=
      mem_candidateSet.mpr ⟨dbTxn, ht.mem, rfl, ht.reaches⟩
    constructor
    · intro hi
      cases hi
    · rintro ⟨-, hn⟩
      exact absurd hn (List.ne_nil_of_mem hc)

/-- **No import of a known row.**  Whatever the other rows took, whatever the cards and
whatever was demoted: a row left for import has a readable amount and date, and no
transaction of the account has them, its direction included, within a day. -/
theorem absent_of_importable {missed : MissingEntry}
    (h : missed ∈ (reconcileStatement db masks parsed).missing)
    (hi : missed.importable = true) :
    ∃ amount date, identity missed.line.txn = some (amount, date) ∧
      ∀ dbTxn ∈ db.rows, ¬ InWindow dbTxn date amount missed.line.direction := by
  obtain ⟨hread, hempty⟩ := (importable_iff h).mp hi
  obtain ⟨⟨amount, date⟩, hp⟩ := Option.isSome_iff_exists.mp hread
  refine ⟨amount, date, hp, fun dbTxn hm hw => ?_⟩
  have hmem : dbTxn.id ∈ candidateSet db missed.line.toStmtTxn :=
    mem_candidateSet.mpr ⟨dbTxn, hm, rfl, amount, date, hp, hw⟩
  rw [hempty] at hmem
  cases hmem

end

/-- A purchase the account has, and one it does not have. -/
def twoPurchases : ParsedCcStatement where
  bank := "hdfc"
  transactions :=
    [⟨"05/01/2026", "450.00", "SWIGGY BANGALORE", none, none, none⟩,
      ⟨"07/01/2026", "450.00", "ZOMATO", none, none, none⟩]
  paymentsRefunds := []

def oneAlert : AccountRows where
  rows := [alertRow 1 (ordinal 2026 1 5) 450 .debit "Swiggy"]
  nodup_ids := by decide

theorem absent_of_importable_zomato :
    let _ := asciiTables
    let _ := asciiNarration
    let _ := plainReaders
    ∃ missed ∈ (reconcileStatement oneAlert [] twoPurchases).missing, missed.importable = true ∧
      ∃ amount date, identity missed.line.txn = some (amount, date) ∧
        ∀ dbTxn ∈ oneAlert.rows, ¬ InWindow dbTxn date amount missed.line.direction := by
  let _ := asciiTables
  let _ := asciiNarration
  let _ := plainReaders
  have hm : ∃ missed ∈ (reconcileStatement oneAlert [] twoPurchases).missing,
      missed.importable = true := by decide +kernel
  exact hm.imp fun missed h => ⟨h.1, h.2, absent_of_importable h.1 h.2⟩

end FinancialDashboard.Statements
