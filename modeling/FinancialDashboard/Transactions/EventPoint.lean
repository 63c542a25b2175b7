import FinancialDashboard.Lib.Posting
import FinancialDashboard.Lib.Transition
import FinancialDashboard.Transactions.EmailPipeline
import FinancialDashboard.Transactions.Enrichment

/-!
# The point in time of an enriched row

A row states a date and a time, and a second message enriches them as two fields.  Where the
dates agree this gives the pair of one of the two messages.  Where they differ, or one is
absent, the row may end up with the date of one message and the time of the other.

* `date_of_applied`, `time_of_applied`: the two fields after the diff.
* `stated_iff`: the pair is that of a single message if and only if the row is not one of
  five kinds.
-/

namespace FinancialDashboard.Transactions

open PyTime PyText

/-- The date and the time. -/
def TxnData.point (data : TxnData) : Option Int × Option TimeOfDay :=
  (data.transactionDate, data.transactionTime)

/-- A single source stated the point in time of the row: the row before, or the message; the
date of the row with the time of the message counts where the dates agree. -/
def Stated (row : Transaction) (txn : TxnData) (row' : Transaction) : Prop :=
  row'.point = row.point ∨ row'.point = txn.point ∨
    row'.point = (row.transactionDate, txn.transactionTime) ∧
      txn.transactionDate = row.transactionDate

/-- The row keeps its date against a different one. -/
def KeepsDate (channel : Channel) (date incoming : Int) : Prop :=
  channel = .sms ∨ date < incoming

/-- The points in time, of a row and of a message, that are spliced. -/
inductive Splices (old new : Option Int × Option TimeOfDay) (channel : Channel)
    (kind : MatchKind) : Prop
  /-- The row keeps its date, and its open time is filled from another day. -/
  | filled {d D : Int} {n : TimeOfDay} (hold : old = (some d, none))
      (hnew : new = (some D, some n)) (hne : d ≠ D) (hkeeps : KeepsDate channel d D)
  /-- The row keeps its date, and its time is corrected by an alias from another day. -/
  | corrected {d D : Int} {o n : TimeOfDay} (hold : old = (some d, some o))
      (hnew : new = (some D, some n)) (hne : d ≠ D) (hkeeps : KeepsDate channel d D)
      (htime : o ≠ n) (hkind : kind = .amPmAlias)
  /-- An email without a time moves the row to an earlier day, and the time stays. -/
  | moved {d D : Int} {o : TimeOfDay} (hold : old = (some d, some o))
      (hnew : new = (some D, none)) (hlt : D < d) (hemail : channel = .email)
  /-- A row without a date gets one from a message without a time, and keeps its own time. -/
  | dated {D : Int} {o : TimeOfDay} (hold : old = (none, some o))
      (hnew : new = (some D, none))
  /-- A row without a date gets one, and keeps its own time against another one. -/
  | datedAgainst {D : Int} {o n : TimeOfDay} (hold : old = (none, some o))
      (hnew : new = (some D, some n)) (htime : o ≠ n) (hkind : kind ≠ .amPmAlias)
      (hkeeps : channel = .sms ∨ o.micros < n.micros)

section

variable [UnicodeTables] {row : Transaction} {txn : TxnData} {channel : Channel}
  {kind : MatchKind} {D : Int}

/-! ### The two fields after the diff -/

/-- The row after the diff that a match of this kind applies. -/
def appliedTo (row : Transaction) (txn : TxnData) (channel : Channel) (kind : MatchKind) :
    Transaction :=
  applyDiff row txn channel (computeAppliedEnrichmentDiff row txn channel kind)

theorem applied_date : (computeAppliedEnrichmentDiff row txn channel kind).transactionDate =
    .of row.transactionDate txn.transactionDate
      fun old new => decide (channel = .email) && !(decide (old < new)) := by
  unfold computeAppliedEnrichmentDiff
  dsimp only
  split
  · split_ifs
    · rfl
    · rfl
  · rfl

/-- The alias is one more rule that lets the time be overwritten. -/
theorem applied_time : (computeAppliedEnrichmentDiff row txn channel kind).transactionTime =
    .of row.transactionTime txn.transactionTime fun old new =>
      decide (kind = .amPmAlias) ||
        decide (channel = .email) && incomingTimeIsEarlier row txn old new := by
  have hcanonical : (computeEnrichmentDiff row txn channel).transactionTime =
      .of row.transactionTime txn.transactionTime
        fun old new => decide (channel = .email) && incomingTimeIsEarlier row txn old new := rfl
  unfold computeAppliedEnrichmentDiff
  dsimp only
  cases kind with
  | standard => exact hcanonical
  | refAmountMismatch => exact hcanonical
  | amPmAlias =>
    cases hnew : txn.transactionTime with
    | none =>
      rw [hnew] at hcanonical
      exact hcanonical
    | some n =>
      cases hold : row.transactionTime with
      | none =>
        rw [hnew, hold] at hcanonical
        exact hcanonical
      | some o =>
        dsimp only
        split_ifs with hne
        · unfold FieldChange.of
          dsimp only
          rw [if_neg hne]
          exact (if_pos rfl).symm
        · rw [hcanonical, hnew, hold, FieldChange.of_of_eq (.inr (by rw [not_ne_iff.mp hne])),
            FieldChange.of_of_eq (.inr (by rw [not_ne_iff.mp hne]))]

/-- The date of the row afterwards. -/
theorem date_of_applied (hD : txn.transactionDate = some D) :
    (appliedTo row txn channel kind).transactionDate =
      match row.transactionDate with
      | none => some D
      | some d => some (if channel = .email ∧ D < d then D else d) := by
  show (computeAppliedEnrichmentDiff row txn channel kind).transactionDate.apply
    row.transactionDate = _
  rw [applied_date, FieldChange.apply_of, hD]
  cases row.transactionDate with
  | none => rfl
  | some d =>
    dsimp only
    refine congrArg some ?_
    by_cases hearlier : channel = .email ∧ D < d
    · rw [if_pos hearlier, if_pos (by simp [hearlier.1, hearlier.2.le])]
    · rw [if_neg hearlier]
      split_ifs with hrule
      · rw [Bool.and_eq_true, decide_eq_true_eq, Bool.not_eq_true', decide_eq_false_iff_not]
          at hrule
        have hle : ¬ D < d := fun hlt => hearlier ⟨hrule.1, hlt⟩
        omega
      · rfl

/-- The time of the row afterwards. -/
theorem time_of_applied :
    (appliedTo row txn channel kind).transactionTime =
      match row.transactionTime, txn.transactionTime with
      | old, none => old
      | none, some n => some n
      | some o, some n =>
        some (if kind = .amPmAlias ∨ channel = .email ∧ incomingTimeIsEarlier row txn o n = true
          then n else o) := by
  show (computeAppliedEnrichmentDiff row txn channel kind).transactionTime.apply
    row.transactionTime = _
  rw [applied_time, FieldChange.apply_of]
  simp only [Bool.or_eq_true, Bool.and_eq_true, decide_eq_true_eq]
  cases row.transactionTime with
  | none =>
    cases txn.transactionTime with
    | none => rfl
    | some n => rfl
  | some o =>
    cases txn.transactionTime with
    | none => rfl
    | some n => rfl

/-! ### When the pair is that of one source -/

theorem point_of_applied (row : Transaction) (channel : Channel) (kind : MatchKind)
    (hD : txn.transactionDate = some D) :
    (appliedTo row txn channel kind).point =
      ((match row.transactionDate with
        | none => some D
        | some d => some (if channel = .email ∧ D < d then D else d)),
      match row.transactionTime, txn.transactionTime with
      | old, none => old
      | none, some n => some n
      | some o, some n =>
        some (if kind = .amPmAlias ∨ channel = .email ∧ incomingTimeIsEarlier row txn o n = true
          then n else o)) :=
  Prod.ext (date_of_applied hD) time_of_applied

omit [UnicodeTables] in
theorem KeepsDate.not_moved {d : Int} (h : KeepsDate channel d D) :
    ¬ (channel = .email ∧ D < d) := by
  rintro ⟨rfl, hlt⟩
  rcases h with hsms | hgt
  · cases hsms
  · omega

omit [UnicodeTables] in
/-- A date and a time that are not those of either source. -/
theorem not_stated_of_ne {row' : Transaction} (hrow : row'.point ≠ row.point)
    (htxn : row'.point ≠ txn.point) : ¬ Stated row txn row' := by
  rintro (h | h | ⟨h, hdate⟩)
  · exact hrow h
  · exact htxn h
  · rw [← hdate] at h
    exact htxn h

/-- A spliced pair is that of no source. -/
theorem Splices.not_stated (h : Splices row.point txn.point channel kind) :
    ¬ Stated row txn (appliedTo row txn channel kind) := by
  cases h with
  | @filled d D n hrow htxn hne hkeeps =>
    obtain ⟨hd, ht⟩ := Prod.mk.inj hrow
    obtain ⟨hD, hn⟩ := Prod.mk.inj htxn
    have hpoint : (appliedTo row txn channel kind).point = (some d, some n) := by
      rw [point_of_applied row channel kind hD, hd, ht, hn]
      dsimp only
      rw [if_neg hkeeps.not_moved]
    apply not_stated_of_ne
    · rw [hpoint, hrow]
      simp
    · rw [hpoint, htxn]
      simp [hne]
  | @corrected d D o n hrow htxn hne hkeeps htime hkind =>
    obtain ⟨hd, ht⟩ := Prod.mk.inj hrow
    obtain ⟨hD, hn⟩ := Prod.mk.inj htxn
    have hpoint : (appliedTo row txn channel kind).point = (some d, some n) := by
      rw [point_of_applied row channel kind hD, hd, ht, hn]
      dsimp only
      rw [if_neg hkeeps.not_moved, if_pos (.inl hkind)]
    apply not_stated_of_ne
    · rw [hpoint, hrow]
      simp [htime.symm]
    · rw [hpoint, htxn]
      simp [hne]
  | @moved d D o hrow htxn hlt hemail =>
    obtain ⟨hd, ht⟩ := Prod.mk.inj hrow
    obtain ⟨hD, hn⟩ := Prod.mk.inj htxn
    have hpoint : (appliedTo row txn channel kind).point = (some D, some o) := by
      rw [point_of_applied row channel kind hD, hd, ht, hn]
      dsimp only
      rw [if_pos ⟨hemail, hlt⟩]
    apply not_stated_of_ne
    · rw [hpoint, hrow]
      simp [hlt.ne]
    · rw [hpoint, htxn]
      simp
  | @dated D o hrow htxn =>
    obtain ⟨hd, ht⟩ := Prod.mk.inj hrow
    obtain ⟨hD, hn⟩ := Prod.mk.inj htxn
    have hpoint : (appliedTo row txn channel kind).point = (some D, some o) := by
      rw [point_of_applied row channel kind hD, hd, ht, hn]
    apply not_stated_of_ne
    · rw [hpoint, hrow]
      simp
    · rw [hpoint, htxn]
      simp
  | @datedAgainst D o n hrow htxn htime hkind hkeeps =>
    obtain ⟨hd, ht⟩ := Prod.mk.inj hrow
    obtain ⟨hD, hn⟩ := Prod.mk.inj htxn
    have hearlier : ¬ (kind = .amPmAlias ∨
        channel = .email ∧ incomingTimeIsEarlier row txn o n = true) := by
      rintro (halias | ⟨hemail, hrule⟩)
      · exact hkind halias
      · rw [earlier_iff_of_undated hd] at hrule
        rcases hkeeps with hsms | hlt
        · exact absurd (hsms.symm.trans hemail) (by decide)
        · omega
    have hpoint : (appliedTo row txn channel kind).point = (some D, some o) := by
      rw [point_of_applied row channel kind hD, hd, ht, hn]
      dsimp only
      rw [if_neg hearlier]
    apply not_stated_of_ne
    · rw [hpoint, hrow]
      simp
    · rw [hpoint, htxn]
      simp [htime]

omit [UnicodeTables] in
theorem keepsDate_of_not_moved {d : Int} (hne : d ≠ D) (h : ¬ (channel = .email ∧ D < d)) :
    KeepsDate channel d D := by
  unfold KeepsDate
  cases channel with
  | sms => exact .inl rfl
  | email =>
    right
    by_contra hle
    exact h ⟨rfl, by omega⟩

omit [UnicodeTables] in
/-- A time on an earlier day is earlier. -/
theorem earlier_of_date_lt {d : Int} {o n : TimeOfDay} (hd : row.transactionDate = some d)
    (hD : txn.transactionDate = some D) (hlt : D < d) :
    incomingTimeIsEarlier row txn o n = true := by
  rw [earlier_iff hd, hD]
  have hn := n.lt
  unfold combine
  unfold days hours minutes seconds at hn ⊢
  dsimp only [Option.getD_some]
  omega

omit [UnicodeTables] in
theorem not_earlier_of_date_lt {d : Int} {o n : TimeOfDay} (hd : row.transactionDate = some d)
    (hD : txn.transactionDate = some D) (hlt : d < D) :
    ¬ incomingTimeIsEarlier row txn o n = true := by
  rw [earlier_iff hd, hD]
  have ho := o.lt
  unfold combine
  unfold days hours minutes seconds at ho ⊢
  dsimp only [Option.getD_some]
  omega

/-- The row has a date of its own. -/
theorem splices_of_dated {d : Int} (hd : row.transactionDate = some d)
    (hD : txn.transactionDate = some D)
    (h : ¬ Stated row txn (appliedTo row txn channel kind)) :
    Splices row.point txn.point channel kind := by
  have hpoint := point_of_applied row channel kind hD
  rw [hd] at hpoint
  dsimp only at hpoint
  cases hn : txn.transactionTime with
  | none =>
    by_cases hmoved : channel = .email ∧ D < d
    · cases ht : row.transactionTime with
      | none =>
        refine absurd (.inr (.inl ?_)) h
        rw [hpoint, hn, ht, if_pos hmoved]
        exact (Prod.ext hD hn).symm
      | some o => exact .moved (Prod.ext hd ht) (Prod.ext hD hn) hmoved.2 hmoved.1
    · refine absurd (.inl ?_) h
      rw [hpoint, hn, if_neg hmoved]
      exact Prod.ext hd.symm rfl
  | some n =>
    cases ht : row.transactionTime with
    | none =>
      rw [hn, ht] at hpoint
      dsimp only at hpoint
      by_cases hmoved : channel = .email ∧ D < d
      · refine absurd (.inr (.inl ?_)) h
        rw [hpoint, if_pos hmoved]
        exact (Prod.ext hD hn).symm
      · by_cases heq : d = D
        · refine absurd (.inr (.inl ?_)) h
          rw [hpoint, if_neg hmoved, heq]
          exact (Prod.ext hD hn).symm
        · exact .filled (Prod.ext hd ht) (Prod.ext hD hn) heq (keepsDate_of_not_moved heq hmoved)
    | some o =>
      rw [hn, ht] at hpoint
      dsimp only at hpoint
      by_cases heq : d = D
      · -- on one day either time is stated with the date
        subst heq
        rw [if_neg fun hmoved => lt_irrefl d hmoved.2] at hpoint
        split_ifs at hpoint
        · exact absurd (.inr (.inl (hpoint.trans (Prod.ext hD hn).symm))) h
        · exact absurd (.inl (hpoint.trans (Prod.ext hd ht).symm)) h
      · by_cases hmoved : channel = .email ∧ D < d
        · rw [if_pos hmoved, if_pos (.inr ⟨hmoved.1, earlier_of_date_lt hd hD hmoved.2⟩)] at hpoint
          exact absurd (.inr (.inl (hpoint.trans (Prod.ext hD hn).symm))) h
        · have hkeeps := keepsDate_of_not_moved heq hmoved
          rw [if_neg hmoved] at hpoint
          by_cases htime : o = n
          · rw [htime, ite_self, ← htime] at hpoint
            exact absurd (.inl (hpoint.trans (Prod.ext hd ht).symm)) h
          · by_cases hkind : kind = .amPmAlias
            · exact .corrected (Prod.ext hd ht) (Prod.ext hD hn) heq hkeeps htime hkind
            · have hlater : ¬ (kind = .amPmAlias ∨
                  channel = .email ∧ incomingTimeIsEarlier row txn o n = true) := by
                rintro (halias | ⟨hemail, hearlier⟩)
                · exact hkind halias
                · rcases hkeeps with hsms | hlt
                  · exact absurd (hsms.symm.trans hemail) (by decide)
                  · exact not_earlier_of_date_lt hd hD hlt hearlier
              rw [if_neg hlater] at hpoint
              exact absurd (.inl (hpoint.trans (Prod.ext hd ht).symm)) h

/-- The row has no date of its own. -/
theorem splices_of_undated (hd : row.transactionDate = none) (hD : txn.transactionDate = some D)
    (h : ¬ Stated row txn (appliedTo row txn channel kind)) :
    Splices row.point txn.point channel kind := by
  have hpoint := point_of_applied row channel kind hD
  rw [hd] at hpoint
  dsimp only at hpoint
  cases hn : txn.transactionTime with
  | none =>
    cases ht : row.transactionTime with
    | none =>
      rw [hn, ht] at hpoint
      exact absurd (.inr (.inl (hpoint.trans (Prod.ext hD hn).symm))) h
    | some o => exact .dated (Prod.ext hd ht) (Prod.ext hD hn)
  | some n =>
    cases ht : row.transactionTime with
    | none =>
      rw [hn, ht] at hpoint
      exact absurd (.inr (.inl (hpoint.trans (Prod.ext hD hn).symm))) h
    | some o =>
      rw [hn, ht] at hpoint
      dsimp only at hpoint
      by_cases hrule : kind = .amPmAlias ∨
          channel = .email ∧ incomingTimeIsEarlier row txn o n = true
      · rw [if_pos hrule] at hpoint
        exact absurd (.inr (.inl (hpoint.trans (Prod.ext hD hn).symm))) h
      · rw [if_neg hrule] at hpoint
        by_cases htime : o = n
        · rw [htime] at hpoint
          exact absurd (.inr (.inl (hpoint.trans (Prod.ext hD hn).symm))) h
        · refine .datedAgainst (Prod.ext hd ht) (Prod.ext hD hn) htime
            (fun hkind => hrule (.inl hkind)) ?_
          cases channel with
          | sms => exact .inl rfl
          | email =>
            right
            have hne : o.micros ≠ n.micros := fun heq => htime (TimeOfDay.ext_micros heq)
            have hlater : ¬ n.micros < o.micros := fun hlt =>
              hrule (.inr ⟨rfl, (earlier_iff_of_undated hd).mpr hlt⟩)
            omega

/-- **The row has the point in time of a single source but where it is spliced.** -/
theorem stated_applied_iff (hD : txn.transactionDate = some D) :
    Stated row txn (appliedTo row txn channel kind) ↔ ¬ Splices row.point txn.point channel kind := by
  constructor
  · intro hstated hsplices
    exact hsplices.not_stated hstated
  · intro hnot
    by_contra hstated
    cases hd : row.transactionDate with
    | none => exact hnot (splices_of_undated hd hD hstated)
    | some d => exact hnot (splices_of_dated hd hD hstated)

/-! ### A match -/

theorem applied_of_applyTransactionEnrichment {t t' : TxnTable} {sourceId : Option Nat}
    {row' : Transaction}
    (h : applyTransactionEnrichment t row txn channel sourceId kind = .ok (t', .enriched row')) :
    ∃ claimed, claimTransactionSourceSlot t row channel sourceId = some claimed ∧
      row' = appliedTo claimed txn channel kind ∧ t.updateRow row' = .ok t' := by
  unfold applyTransactionEnrichment at h
  cases hclaimed : claimTransactionSourceSlot t row channel sourceId with
  | none =>
    rw [hclaimed] at h
    cases h
  | some claimed =>
    rw [hclaimed] at h
    dsimp only at h
    obtain ⟨after, hafter, heq⟩ := Posting.bind_eq_ok.mp h
    obtain ⟨rfl, hrow⟩ := Prod.mk.inj (Except.ok.inj heq)
    obtain rfl := MergeResult.enriched.inj hrow
    exact ⟨claimed, rfl, rfl, hafter⟩

omit [UnicodeTables] in
theorem claimed_cases {t : TxnTable} {sourceId : Option Nat} {claimed : Transaction}
    (h : claimTransactionSourceSlot t row channel sourceId = some claimed) :
    claimed = row ∨ ∃ source, claimed = setSlot row channel source := by
  unfold claimTransactionSourceSlot at h
  cases sourceId with
  | none => exact .inl (Option.some.inj h).symm
  | some source =>
    dsimp only at h
    split_ifs at h
    · exact .inl (Option.some.inj h).symm
    · exact .inr ⟨source, (Option.some.inj h).symm⟩

omit [UnicodeTables] in
theorem point_of_claimed {t : TxnTable} {sourceId : Option Nat} {claimed : Transaction}
    (h : claimTransactionSourceSlot t row channel sourceId = some claimed) :
    claimed.point = row.point := by
  rcases claimed_cases h with rfl | ⟨source, rfl⟩
  · rfl
  · cases channel <;> rfl

/-- **When a match splices.**  Whatever row a dated message enriches, and whatever the kind of
the match, the row then has the point in time of a single source if and only if the two points
are not of one of five kinds. -/
theorem stated_iff {t t' : TxnTable} {sourceId : Option Nat} {row' : Transaction}
    (hdate : txn.transactionDate = some D)
    (h : applyTransactionEnrichment t row txn channel sourceId kind = .ok (t', .enriched row')) :
    Stated row txn row' ↔ ¬ Splices row.point txn.point channel kind := by
  obtain ⟨claimed, hclaimed, rfl, -⟩ := applied_of_applyTransactionEnrichment h
  have hpoint := point_of_claimed hclaimed
  have hsame : claimed.transactionDate = row.transactionDate := (Prod.mk.inj hpoint).1
  have hiff : Stated claimed txn (appliedTo claimed txn channel kind) ↔
      ¬ Splices claimed.point txn.point channel kind := stated_applied_iff hdate
  unfold Stated at hiff ⊢
  rwa [hpoint, hsame] at hiff

end

/-! ### Around midnight -/

/-- An email of the evening that states no time. -/
def eveningEmail : TxnData where
  bank := "hdfc"
  emailType := "hdfc_upi_alert"
  direction := "debit"
  amount := 500
  currency := some "INR"
  transactionDate := some 20000
  transactionTime := none
  counterparty := some "CAFE"
  cardMask := none
  accountMask := none
  referenceNumber := none
  channel := some "upi"
  balance := none
  rawDescription := none
  transactionTimeIsReceivedTime := false
  identifiesBy := .counterparty

/-- An SMS of three minutes past midnight. -/
def midnightSms : TxnData :=
  { eveningEmail with
    transactionDate := some 20001
    transactionTime := some ⟨180000000, by decide⟩ }

def eveningRow : Transaction := newRow eveningEmail .email none (some 1) 1

def eveningTable : TxnTable :=
  ⟨[eveningRow], List.pairwise_singleton _ _, List.pairwise_singleton _ _⟩

/-- The row ends up at three minutes past midnight of the day before. -/
theorem eveningRow_enriched : ∃ t' row', @applyTransactionEnrichment asciiTables eveningTable
    eveningRow midnightSms .sms (some 2) .standard = .ok (t', .enriched row') ∧
      row'.point = (some 20000, midnightSms.transactionTime) := ⟨_, _, rfl, rfl⟩

theorem stated_iff_eveningRow : ∃ t' row', @applyTransactionEnrichment asciiTables eveningTable
    eveningRow midnightSms .sms (some 2) .standard = .ok (t', .enriched row') ∧
      ¬ Stated eveningRow midnightSms row' := by
  obtain ⟨t', row', h, -⟩ := eveningRow_enriched
  refine ⟨t', row', h, fun hstated => ?_⟩
  exact (@stated_iff asciiTables _ _ _ _ _ _ _ _ _ rfl h).mp hstated
    (.filled rfl rfl (by decide) (.inl rfl))

/-- The SMS is matched to the row of the email, and gives it a point in time that neither
stated. -/
theorem spliced_at_midnight :
    ¬ ∀ (_ : UnicodeTables) (t t' : TxnTable) (row row' : Transaction) (txn : TxnData)
      (channel : Channel) (sourceId : Option Nat) (kind : MatchKind) (D : Int),
      findMatch t.rows txn channel sourceId = .matched row kind →
      txn.transactionDate = some D →
      applyTransactionEnrichment t row txn channel sourceId kind = .ok (t', .enriched row') →
      Stated row txn row' := by
  intro hall
  obtain ⟨t', row', h, hpoint⟩ := eveningRow_enriched
  have hmatch : @findMatch asciiTables eveningTable.rows midnightSms .sms (some 2) =
      .matched eveningRow .standard := by decide +kernel
  refine not_stated_of_ne ?_ ?_ (hall asciiTables eveningTable t' eveningRow row' midnightSms .sms
    (some 2) .standard 20001 hmatch rfl h)
  · rw [hpoint]
    decide
  · rw [hpoint]
    decide

end FinancialDashboard.Transactions
