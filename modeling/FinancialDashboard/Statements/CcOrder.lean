import FinancialDashboard.Statements.CcPartition

/-!
# The order of a card statement

Which row wins a transaction turns on the order of the statement.  What the winner
then writes does not: a match that stands is one whose rivals would write the same, or
one its narration singles out.

* `Stands`: why a match was neither demoted nor reassigned, or why it was reassigned,
  as a fact about the rows and not about their order.
* `refresh_of_reordered`: two orders that match a transaction refresh it alike.
-/

namespace FinancialDashboard.Statements

open PyText Transactions

/-! ### One row, two orders -/

section

variable [UnicodeTables] [NarrationTables] [Readers] {db db' : AccountRows}
  {parsed parsed' : ParsedCcStatement}

omit [UnicodeTables] [NarrationTables] [Readers] in
theorem AccountRows.byId_perm (h : db.rows.Perm db'.rows) (id : Nat) : db.byId id = db'.byId id := by
  cases hf : db.byId id with
  | some row =>
    obtain ⟨hm, rfl⟩ := AccountRows.mem_of_byId hf
    exact (AccountRows.byId_of_mem (h.mem_iff.mp hm)).symm
  | none =>
    cases hf' : db'.byId id with
    | none => rfl
    | some row =>
      obtain ⟨hm, rfl⟩ := AccountRows.mem_of_byId hf'
      rw [AccountRows.byId_of_mem (h.mem_iff.mpr hm)] at hf
      cases hf

omit [NarrationTables] in
theorem mem_candidateSet_perm (h : db.rows.Perm db'.rows) {row : StmtTxn} {cid : Nat} :
    cid ∈ candidateSet db row ↔ cid ∈ candidateSet db' row := by
  rw [mem_candidateSet, mem_candidateSet]
  exact exists_congr fun dbTxn => and_congr_left' h.mem_iff

omit [Readers] in
theorem rowNamesCandidate_perm (h : db.rows.Perm db'.rows) (row : StmtTxn) (cid : Nat) :
    rowNamesCandidate db row cid = rowNamesCandidate db' row cid := by
  rw [rowNamesCandidate, rowNamesCandidate, AccountRows.byId_perm h]

omit [NarrationTables] [Readers] in
theorem dropClaimedTwins_of_untagged (twins : List TwinKey) {credits : List CcTransaction}
    (h : ∀ txn ∈ credits, isInternalTransferCredit txn = false) :
    dropClaimedTwins twins credits = credits := by
  induction credits with
  | nil => rfl
  | cons txn rest ih =>
    have ht : isInternalTransferCredit txn = false := h txn List.mem_cons_self
    simp only [dropClaimedTwins, ht, Bool.false_and, Bool.false_eq_true, if_false]
    rw [ih fun other ho => h other (List.mem_cons_of_mem txn ho)]

omit [NarrationTables] [Readers] in
theorem stmtTxns_perm (hd : parsed.transactions.Perm parsed'.transactions)
    (hc : parsed.paymentsRefunds.Perm parsed'.paymentsRefunds)
    (hn : ∀ txn ∈ parsed.paymentsRefunds, isInternalTransferCredit txn = false) :
    (stmtTxns parsed).Perm (stmtTxns parsed') := by
  have hn' : ∀ txn ∈ parsed'.paymentsRefunds, isInternalTransferCredit txn = false :=
    fun txn ht => hn txn (hc.mem_iff.mpr ht)
  rw [stmtTxns, stmtTxns, dropClaimedTwins_of_untagged _ hn, dropClaimedTwins_of_untagged _ hn']
  exact (hd.map _).append (hc.map _)

end

/-! ### Why a match stands -/

section

variable [UnicodeTables] [NarrationTables] [Readers] {db db' : AccountRows}
  {masks : List String} {parsed parsed' : ParsedCcStatement} {row row' : StmtTxn} {cid : Nat}

omit [NarrationTables] [Readers] in
theorem not_confirmedDifferent_of_same {card mask : Option String}
    (h : confirmedSameCard card mask masks = true) : confirmedDifferentCard card mask = false := by
  simp only [confirmedSameCard, Bool.and_eq_true] at h
  simp [confirmedDifferentCard, h.1.1]

omit [Readers] in
theorem not_confirmedDifferent_of_names (h : rowNamesCandidate db row cid = true) :
    confirmedDifferentCard row.txn.cardNumber (cardMaskOf db cid) = false := by
  unfold rowNamesCandidate at h
  rw [cardMaskOf]
  cases hb : db.byId cid with
  | none =>
    rw [hb] at h
    cases h
  | some dbTxn =>
    rw [hb] at h
    simp only [Bool.and_eq_true, Bool.not_eq_true'] at h
    exact h.1

/-- Why a row keeps a transaction, whatever the order: all who reach it would write the
same, but for those on another card where the row's own is confirmed; or the row alone
names it. -/
inductive Stands (db : AccountRows) (masks : List String) (rows : List StmtTxn) (row : StmtTxn)
    (cid : Nat) : Prop
  | agreed : cid ∈ candidateSet db row →
      (∀ other ∈ rows, cid ∈ candidateSet db other →
        refreshIdentity other.txn = refreshIdentity row.txn ∨
          (confirmedSameCard row.txn.cardNumber (cardMaskOf db cid) masks = true ∧
            confirmedDifferentCard other.txn.cardNumber (cardMaskOf db cid) = true)) →
      Stands db masks rows row cid
  | named : cid ∈ candidateSet db row → rowNamesCandidate db row cid = true →
      (∀ other ∈ rows, cid ∈ candidateSet db other →
        rowNamesCandidate db other cid = true → other = row) →
      Stands db masks rows row cid

theorem Stands.reaches {rows : List StmtTxn} (h : Stands db masks rows row cid) :
    cid ∈ candidateSet db row := by
  cases h with
  | agreed hr _ => exact hr
  | named hr _ _ => exact hr

omit [NarrationTables] in
theorem agreed_of_not_contested {entry : MatchedEntry} (hm : entry.line ∈ stmtLines parsed)
    (h : isContested db masks (stmtLines parsed) entry = false) {other : Line}
    (ho : other ∈ stmtLines parsed) (hr : entry.dbTxnId ∈ candidateSet db other.toStmtTxn) :
    refreshIdentity other.txn = refreshIdentity entry.line.txn ∨
      (confirmedSameCard entry.line.txn.cardNumber (cardMaskOf db entry.dbTxnId) masks = true ∧
        confirmedDifferentCard other.txn.cardNumber (cardMaskOf db entry.dbTxnId) = true) := by
  by_cases hidx : other.stmtIdx = entry.line.stmtIdx
  · rw [line_eq_of_stmtIdx ho hm hidx]
    exact .inl rfl
  have hreach : other ∈ reachingRivals db (stmtLines parsed) entry := by
    simp only [reachingRivals, List.mem_filter, Bool.and_eq_true, decide_eq_true_eq]
    exact ⟨ho, hidx, hr⟩
  simp only [isContested, List.any_eq_false, decide_eq_true_eq, ne_eq, not_not] at h
  rw [rivals] at h
  by_cases hs : confirmedSameCard entry.line.txn.cardNumber (cardMaskOf db entry.dbTxnId) masks = true
  · rw [if_pos hs] at h
    by_cases hd : confirmedDifferentCard other.txn.cardNumber (cardMaskOf db entry.dbTxnId) = true
    · exact .inr ⟨hs, hd⟩
    · exact .inl (h other (List.mem_filter.mpr ⟨hreach, by simpa using hd⟩))
  · rw [if_neg hs] at h
    exact .inl (h other hreach)

theorem stands_of_matched {kept : MatchedEntry}
    (h : kept ∈ (reconcileStatement db masks parsed).matched) :
    Stands db masks (stmtTxns parsed) kept.line.toStmtTxn kept.dbTxnId := by
  have hm : kept.line ∈ stmtLines parsed :=
    (reconciliation_perm db masks parsed).subset (List.mem_append_left _ (List.mem_map_of_mem h))
  -- A row of the statement is a line of it, whichever its index.
  have toLine : ∀ {other : StmtTxn}, other ∈ stmtTxns parsed →
      ∃ line ∈ stmtLines parsed, line.toStmtTxn = other := by
    intro other ho
    rw [← map_toStmtTxn_stmtLines] at ho
    exact List.mem_map.mp ho
  rcases matched_cases h with ⟨hg, hc⟩ | hr
  · obtain ⟨dbTxn, hid, ht⟩ := mayTake_of_greedy hg
    refine .agreed (mem_candidateSet.mpr ⟨dbTxn, ht.mem, hid, ht.reaches⟩) fun other ho hor => ?_
    obtain ⟨line, hl, rfl⟩ := toLine ho
    exact agreed_of_not_contested hm hc hl hor
  · refine .named hr.reaches hr.names fun other ho hor hon => ?_
    obtain ⟨line, hl, rfl⟩ := toLine ho
    exact congrArg Line.toStmtTxn (hr.only line hl hor hon)

/-! ### Two orders -/

theorem Stands.perm {rows rows' : List StmtTxn} (hdb : db.rows.Perm db'.rows)
    (hrows : rows.Perm rows') (h : Stands db masks rows row cid) :
    Stands db' masks rows' row cid := by
  have hcard : cardMaskOf db' cid = cardMaskOf db cid := by
    rw [cardMaskOf, cardMaskOf, AccountRows.byId_perm hdb]
  cases h with
  | agreed hr ha =>
    refine .agreed ((mem_candidateSet_perm hdb).mp hr) fun other ho hor => ?_
    rw [hcard]
    exact ha other (hrows.mem_iff.mpr ho) ((mem_candidateSet_perm hdb).mpr hor)
  | named hr hn hu =>
    refine .named ((mem_candidateSet_perm hdb).mp hr) ?_ fun other ho hor hon => ?_
    · rwa [← rowNamesCandidate_perm hdb]
    · rw [← rowNamesCandidate_perm hdb] at hon
      exact hu other (hrows.mem_iff.mpr ho) ((mem_candidateSet_perm hdb).mpr hor) hon

/-- Two rows that both stand on a transaction write the same to it. -/
theorem Stands.identity_eq {rows : List StmtTxn} (hr : row ∈ rows) (hr' : row' ∈ rows)
    (h : Stands db masks rows row cid) (h' : Stands db masks rows row' cid) :
    refreshIdentity row.txn = refreshIdentity row'.txn := by
  cases h with
  | agreed hreach ha =>
    rcases ha row' hr' h'.reaches with he | ⟨hsame, hdiff⟩
    · exact he.symm
    cases h' with
    | agreed hreach' ha' =>
      rcases ha' row hr hreach with he | ⟨hsame', -⟩
      · exact he
      · -- The other row is confirmed on the card, so it is not confirmed on another.
        rw [not_confirmedDifferent_of_same hsame'] at hdiff
        cases hdiff
    | named _ hn' _ =>
      rw [not_confirmedDifferent_of_names hn'] at hdiff
      cases hdiff
  | named hreach hn hu =>
    cases h' with
    | agreed hreach' ha' =>
      rcases ha' row hr hreach with he | ⟨-, hdiff⟩
      · exact he
      · rw [not_confirmedDifferent_of_names hn] at hdiff
        cases hdiff
    | named hreach' hn' _ => rw [hu row' hr' hreach' hn']

omit [NarrationTables] [Readers] in
/-- All a refresh writes is the identity. -/
theorem enrichCard_congr {txn txn' : CcTransaction} (h : refreshIdentity txn = refreshIdentity txn')
    (dbTxn : Transaction) : enrichCard txn dbTxn = enrichCard txn' dbTxn := by
  unfold enrichCard
  unfold refreshIdentity at h
  rw [h]

/-- **The order of the rows does not decide what is written.**  Two orders of one
statement, none of whose credits is tagged as an internal transfer, that both match a
transaction, match it to rows of one refresh identity, and refresh it alike. -/
theorem refresh_of_reordered (hdb : db.rows.Perm db'.rows)
    (hd : parsed.transactions.Perm parsed'.transactions)
    (hc : parsed.paymentsRefunds.Perm parsed'.paymentsRefunds)
    (hn : ∀ txn ∈ parsed.paymentsRefunds, isInternalTransferCredit txn = false)
    {entry entry' : MatchedEntry} (he : entry ∈ (reconcileStatement db masks parsed).matched)
    (he' : entry' ∈ (reconcileStatement db' masks parsed').matched)
    (hid : entry.dbTxnId = entry'.dbTxnId) :
    refreshIdentity entry.line.txn = refreshIdentity entry'.line.txn ∧
      ∀ dbTxn, enrichCard entry.line.txn dbTxn = enrichCard entry'.line.txn dbTxn := by
  have hrows := stmtTxns_perm hd hc hn
  have rowOf : ∀ {account statement} {kept : MatchedEntry},
      kept ∈ (reconcileStatement account masks statement).matched →
        kept.line.toStmtTxn ∈ stmtTxns statement := by
    intro account statement kept hk
    rw [← map_toStmtTxn_stmtLines]
    exact List.mem_map_of_mem ((reconciliation_perm account masks statement).subset
      (List.mem_append_left _ (List.mem_map_of_mem hk)))
  have hs := (stands_of_matched he).perm hdb hrows
  have hs' := stands_of_matched he'
  rw [hid] at hs
  have hidentity := hs.identity_eq (hrows.mem_iff.mp (rowOf he)) (rowOf he') hs'
  exact ⟨hidentity, enrichCard_congr hidentity⟩

end

/-- Two purchases of one amount on one day. -/
def swiggyFirst : ParsedCcStatement where
  bank := "hdfc"
  transactions :=
    [⟨"05/01/2026", "450.00", "SWIGGY BANGALORE", none, none, none⟩,
      ⟨"05/01/2026", "450.00", "ZOMATO ONLINE", none, none, none⟩]
  paymentsRefunds := []

def zomatoFirst : ParsedCcStatement where
  bank := "hdfc"
  transactions := swiggyFirst.transactions.reverse
  paymentsRefunds := []

def twoAlerts : AccountRows where
  rows :=
    [alertRow 1 (ordinal 2026 1 5) 450 .debit "Swiggy",
      alertRow 2 (ordinal 2026 1 5) 450 .debit "Zomato"]
  nodup_ids := by decide

theorem refresh_of_reordered_swiggy :
    let _ := asciiTables
    let _ := asciiNarration
    let _ := plainReaders
    ∃ entry ∈ (reconcileStatement twoAlerts [] swiggyFirst).matched,
      ∃ entry' ∈ (reconcileStatement twoAlerts [] zomatoFirst).matched,
        (entry.dbTxnId = 1 ∧ entry'.dbTxnId = 1) ∧
          refreshIdentity entry.line.txn = refreshIdentity entry'.line.txn ∧
          ∀ dbTxn, enrichCard entry.line.txn dbTxn = enrichCard entry'.line.txn dbTxn := by
  let _ := asciiTables
  let _ := asciiNarration
  let _ := plainReaders
  have hm : ∃ entry ∈ (reconcileStatement twoAlerts [] swiggyFirst).matched,
      entry.dbTxnId = 1 := by decide +kernel
  have hm' : ∃ entry ∈ (reconcileStatement twoAlerts [] zomatoFirst).matched,
      entry.dbTxnId = 1 := by decide +kernel
  obtain ⟨entry, he, h⟩ := hm
  obtain ⟨entry', he', h'⟩ := hm'
  have hd : swiggyFirst.transactions.Perm zomatoFirst.transactions := (List.reverse_perm _).symm
  have hc : swiggyFirst.paymentsRefunds.Perm zomatoFirst.paymentsRefunds := .refl _
  have hn : ∀ txn ∈ swiggyFirst.paymentsRefunds, isInternalTransferCredit txn = false :=
    fun _ ht => absurd ht List.not_mem_nil
  exact ⟨entry, he, entry', he', ⟨h, h'⟩,
    refresh_of_reordered (.refl _) hd hc hn he he' (h.trans h'.symm)⟩

end FinancialDashboard.Statements
