import FinancialDashboard.Transactions.Merge

/-!
# What a second source may change

The rules of `compute_enrichment_diff`, field by field and over the whole row: a message
changes a row once, an SMS fills and never replaces, and an email moves a row back in time,
never forward, and leaves alone a text or a mask that says more than its own.

* `FieldChange.cases_of`: what becomes of one field.
* `FieldChange.of_apply`: what is written once is not written again.
* `notLater_of_email`: the point in time of a row.
* `computeEnrichmentDiff_improves`: the rules together.
-/

namespace FinancialDashboard.Transactions

open PyTime PyText

/-! ### One field -/

namespace FieldChange

variable {α : Type} [DecidableEq α] {old new : Option α} {overwrites again : α → α → Bool}

/-- **A field is left alone, filled, or overwritten where the rule allows it.** -/
theorem cases_of (old new : Option α) (overwrites : α → α → Bool) :
    (of old new overwrites = keep ∧ (new = none ∨ old = new ∨
      ∃ o n, old = some o ∧ new = some n ∧ o ≠ n ∧ overwrites o n = false)) ∨
    (∃ n, old = none ∧ new = some n ∧ of old new overwrites = fill n) ∨
    (∃ o n, old = some o ∧ new = some n ∧ o ≠ n ∧ overwrites o n = true ∧
      of old new overwrites = overwrite o n) := by
  unfold of
  cases new with
  | none => exact .inl ⟨rfl, .inl rfl⟩
  | some n =>
    cases old with
    | none => exact .inr (.inl ⟨n, rfl, rfl, rfl⟩)
    | some o =>
      dsimp only
      by_cases heq : o = n
      · rw [if_pos heq]
        exact .inl ⟨rfl, .inr (.inl (by rw [heq]))⟩
      · rw [if_neg heq]
        by_cases hrule : overwrites o n = true
        · rw [if_pos hrule]
          exact .inr (.inr ⟨o, n, rfl, rfl, heq, hrule, rfl⟩)
        · rw [if_neg hrule]
          exact .inl ⟨rfl, .inr (.inr ⟨o, n, rfl, rfl, heq, eq_false_of_ne_true hrule⟩)⟩

/-- The value of a field afterwards, where it had one. -/
theorem apply_of_some (o : α) (new : Option α) (overwrites : α → α → Bool) :
    (of (some o) new overwrites).apply (some o) = some o ∨
      ∃ n, new = some n ∧ o ≠ n ∧ overwrites o n = true ∧
        (of (some o) new overwrites).apply (some o) = some n := by
  rcases cases_of (some o) new overwrites with ⟨hkeep, -⟩ | ⟨n, hnone, -⟩ |
    ⟨old, n, hold, hnew, hne, hrule, hwrite⟩
  · left
    rw [hkeep]
    rfl
  · cases hnone
  · obtain rfl := Option.some.inj hold
    exact .inr ⟨n, hnew, hne, hrule, by rw [hwrite]; rfl⟩

theorem apply_of_none : (of none new overwrites).apply none = new := by
  cases new with
  | none => rfl
  | some n => rfl

theorem of_of_eq (h : new = none ∨ old = new) : of old new overwrites = keep := by
  unfold of
  cases new with
  | none => rfl
  | some n =>
    obtain rfl := h.resolve_left (Option.some_ne_none n)
    exact if_pos rfl

/-- The value of a field afterwards. -/
theorem apply_of (old new : Option α) (overwrites : α → α → Bool) :
    (of old new overwrites).apply old =
      match old, new with
      | old, none => old
      | none, some n => some n
      | some o, some n => some (if overwrites o n = true then n else o) := by
  rcases cases_of old new overwrites with ⟨hkeep, hreason⟩ | ⟨n, rfl, rfl, hfill⟩ |
    ⟨o, n, rfl, rfl, -, hrule, hwrite⟩
  · rw [hkeep]
    rcases hreason with rfl | rfl | ⟨o, n, rfl, rfl, -, hrule⟩
    · cases old <;> rfl
    · cases old with
      | none => rfl
      | some o =>
        dsimp only
        rw [ite_self]
        rfl
    · dsimp only
      rw [if_neg (hrule ▸ Bool.false_ne_true)]
      rfl
  · rw [hfill]
    rfl
  · dsimp only
    rw [hwrite, if_pos hrule]
    rfl

/-- **What is written once is not written again**, and what is left alone stays so where the
rule still forbids it. -/
theorem of_apply (h : ∀ o n, old = some o → new = some n → overwrites o n = false →
    again o n = false) : of ((of old new overwrites).apply old) new again = keep := by
  rcases cases_of old new overwrites with ⟨hkeep, hreason⟩ | ⟨n, hold, hnew, hfill⟩ |
    ⟨o, n, hold, hnew, -, -, hwrite⟩
  · rw [hkeep]
    rcases hreason with hnone | heq | ⟨o, n, hold, hnew, hne, hrule⟩
    · exact of_of_eq (.inl hnone)
    · exact of_of_eq (.inr heq)
    · show of old new again = keep
      unfold of
      rw [hold, hnew]
      dsimp only
      rw [if_neg hne, h o n hold hnew hrule]
      exact if_neg Bool.false_ne_true
  · rw [hfill, hnew]
    exact of_of_eq (.inr rfl)
  · rw [hwrite, hnew]
    exact of_of_eq (.inr rfl)

end FieldChange

/-- A value that is there stays. -/
def Stays {α : Type} (old new : Option α) : Prop := ∀ value, old = some value → new = some value

theorem stays_of_forbidden {α : Type} [DecidableEq α] {old new : Option α}
    {overwrites : α → α → Bool} (h : ∀ o n, overwrites o n = false) :
    Stays old ((FieldChange.of old new overwrites).apply old) := by
  rintro value rfl
  rcases FieldChange.apply_of_some value new overwrites with hkept | ⟨n, -, -, hrule, -⟩
  · exact hkept
  · exact absurd (hrule.symm.trans (h value n)) (by decide)

/-! ### The whole row -/

/-- The diff that changes nothing. -/
def EnrichmentDiff.unchanged : EnrichmentDiff :=
  ⟨.keep, .keep, .keep, .keep, .keep, .keep, .keep, .keep, .keep⟩

/-- The fields that an enrichment may write keep the values they have. -/
structure NothingReplaced (old new : Transaction) : Prop where
  transactionDate : Stays old.transactionDate new.transactionDate
  transactionTime : Stays old.transactionTime new.transactionTime
  counterparty : Stays old.counterparty new.counterparty
  cardMask : Stays old.cardMask new.cardMask
  accountMask : Stays old.accountMask new.accountMask
  referenceNumber : Stays old.referenceNumber new.referenceNumber
  channel : Stays old.channel new.channel
  balance : Stays old.balance new.balance
  rawDescription : Stays old.rawDescription new.rawDescription

/-- The row does not move to a later point in time; where it has a date only, or a time only,
that does not become later. -/
structure NotLater (old new : Transaction) : Prop where
  point : ∀ d t, old.transactionDate = some d → old.transactionTime = some t →
    ∃ d' t', new.transactionDate = some d' ∧ new.transactionTime = some t' ∧
      combine d' t' ≤ combine d t
  date : ∀ d, old.transactionDate = some d → ∃ d', new.transactionDate = some d' ∧ d' ≤ d
  time : old.transactionDate = none → ∀ t, old.transactionTime = some t →
    ∃ t', new.transactionTime = some t' ∧ t'.micros ≤ t.micros

/-- What the new text says is a part of what the old one says: in the form in which the two are
compared or, where that form goes by characters, as it stands. -/
def SaysLess (form : String → String) (byCharacters : String → Prop) (old new : String) : Prop :=
  form new ≠ "" ∧ form new ≠ form old ∧
    (contains (form new) (form old) = true ∨ contains new old = true ∧ byCharacters new)

/-- The new mask is another one and shows an ending of the digits of the old one. -/
def ShowsLess (old new : String) : Prop :=
  new ≠ old ∧ (endsWith old new = true ∨
    endsWith (maskDigits (some old)) (maskDigits (some new)) = true)

/-- The value of a field does not go down. -/
def NeverLess (less : String → String → Prop) (old new : Option String) : Prop :=
  ∀ o n, old = some o → new = some n → ¬ less o n

theorem neverLess_of_rule {less : String → String → Prop} {old new : Option String}
    {overwrites : String → String → Bool} (hself : ∀ o, ¬ less o o)
    (h : ∀ o n, overwrites o n = true → ¬ less o n) :
    NeverLess less old ((FieldChange.of old new overwrites).apply old) := by
  rintro o n rfl hn
  rcases FieldChange.apply_of_some o new overwrites with hkept | ⟨incoming, -, -, hrule, hwritten⟩
  · obtain rfl := Option.some.inj (hkept.symm.trans hn)
    exact hself o
  · obtain rfl := Option.some.inj (hwritten.symm.trans hn)
    exact h o incoming hrule

/-! ### Masks -/

theorem endsWith_maskDigits {old new : String} (h : endsWith old new = true) :
    endsWith (maskDigits (some old)) (maskDigits (some new)) = true := by
  unfold endsWith at h ⊢
  unfold maskDigits
  rw [List.isSuffixOf_iff_suffix] at h ⊢
  rw [String.toList_ofList, String.toList_ofList]
  exact h.filter _

/-- A mask that shows an ending of the digits of another does not overwrite it. -/
theorem not_showsLess_of_maskOverwrites {old new : String} (h : maskOverwrites old new = true) :
    ¬ ShowsLess old new := by
  rintro ⟨-, hless⟩
  have hdigits : endsWith (maskDigits (some old)) (maskDigits (some new)) = true :=
    hless.elim endsWith_maskDigits id
  unfold maskOverwrites at h
  rw [Bool.and_eq_true, decide_eq_true_eq, Bool.not_eq_true'] at h
  obtain ⟨hne, hnot⟩ := h
  unfold isMaskDowngrade at hnot
  dsimp only at hnot
  rw [hdigits, Bool.and_true, decide_eq_false_iff_not] at hnot
  have hsuffix : (maskDigits (some new)).toList <:+ (maskDigits (some old)).toList := by
    unfold endsWith at hdigits
    exact List.isSuffixOf_iff_suffix.mp hdigits
  have hlength : (maskDigits (some old)).toList.length ≤ (maskDigits (some new)).toList.length := by
    rw [String.length_toList, String.length_toList]
    exact not_lt.mp hnot
  exact hne (String.toList_inj.mp (hsuffix.eq_of_length_le hlength).symm)

section

variable [UnicodeTables]

/-! ### Texts -/

def counterpartyForm (s : String) : String := normalizeCounterparty (some s)

omit [UnicodeTables] in
/-- Only a capital sigma is lower-cased by what stands around it. -/
def SigmaFree (s : String) : Prop := 'Σ' ∉ s.toList

theorem contains_counterpartyForm {old new : String} (h : contains new old = true)
    (hsigma : SigmaFree new) : contains (counterpartyForm new) (counterpartyForm old) = true := by
  have hlower : (lower new).toList <:+: (lower old).toList := by
    rw [lower_of_notMem hsigma, String.toList_ofList]
    exact infix_lower hsigma (contains_iff.mp h)
  rw [contains_iff]
  unfold counterpartyForm normalizeCounterparty keepAlnum
  rw [String.toList_ofList, String.toList_ofList]
  exact hlower.filter _

theorem not_saysLess_of_counterparty {old new : String}
    (h : isCounterpartyDowngrade old new = false) :
    ¬ SaysLess counterpartyForm SigmaFree old new := by
  rintro ⟨hsome, hne, hpart⟩
  have hcontains : contains (counterpartyForm new) (counterpartyForm old) = true :=
    hpart.elim id fun hcut => contains_counterpartyForm hcut.1 hcut.2
  unfold isCounterpartyDowngrade at h
  dsimp only at h
  unfold counterpartyForm at hsome hne hcontains
  simp [hsome, hne, hcontains] at h

theorem not_saysLess_of_description {old new : String}
    (h : isDescriptionDowngrade old new = false) : ¬ SaysLess strip (fun _ => True) old new := by
  rintro ⟨hsome, hne, hpart⟩
  have hcontains : contains (strip new) (strip old) = true :=
    hpart.elim id fun hcut => contains_strip hcut.1
  unfold isDescriptionDowngrade at h
  dsimp only at h
  simp [hsome, hne, hcontains] at h

/-! ### The point in time -/

variable (existing : Transaction) (incoming : TxnData)

/-- The row after the diff of a message. -/
def enrichedBy (channel : Channel) : Transaction :=
  applyDiff existing incoming channel (computeEnrichmentDiff existing incoming channel)

variable {existing incoming}

theorem date_of_email : (enrichedBy existing incoming .email).transactionDate =
    (FieldChange.of existing.transactionDate incoming.transactionDate
      fun old new => !(decide (old < new))).apply existing.transactionDate := by
  unfold enrichedBy applyDiff computeEnrichmentDiff
  simp

theorem time_of_email : (enrichedBy existing incoming .email).transactionTime =
    (FieldChange.of existing.transactionTime incoming.transactionTime
      (incomingTimeIsEarlier existing incoming)).apply existing.transactionTime := by
  unfold enrichedBy applyDiff computeEnrichmentDiff
  simp

variable (incoming) in
/-- A date stays, or an earlier one takes its place. -/
theorem date_not_later {d : Int} (hd : existing.transactionDate = some d) :
    ∃ d', (enrichedBy existing incoming .email).transactionDate = some d' ∧ d' ≤ d ∧
      (d' < d → incoming.transactionDate = some d') ∧
      ∀ n, incoming.transactionDate = some n → d' ≤ n := by
  rw [date_of_email, hd]
  rcases FieldChange.apply_of_some d incoming.transactionDate fun old new => !(decide (old < new))
    with hkept | ⟨n, hn, hne, hrule, hwritten⟩
  · refine ⟨d, hkept, le_refl d, fun hlt => absurd hlt (lt_irrefl d), fun n hn => ?_⟩
    by_contra hlt
    rw [not_le] at hlt
    rw [hn] at hkept
    unfold FieldChange.of at hkept
    dsimp only at hkept
    rw [if_neg hlt.ne', if_pos (by simpa using hlt.le)] at hkept
    exact absurd (Option.some.inj hkept) hlt.ne
  · have hle : n ≤ d := by simpa using hrule
    exact ⟨n, hwritten, hle, fun _ => hn, fun m hm =>
      (Option.some.inj (hn.symm.trans hm)).le⟩

omit [UnicodeTables] in
theorem earlier_iff {d : Int} {oldTime newTime : TimeOfDay}
    (hd : existing.transactionDate = some d) :
    incomingTimeIsEarlier existing incoming oldTime newTime = true ↔
      combine (incoming.transactionDate.getD d) newTime < combine d oldTime := by
  unfold incomingTimeIsEarlier
  rw [hd]
  cases incoming.transactionDate with
  | none => exact decide_eq_true_iff
  | some n => exact decide_eq_true_iff

omit [UnicodeTables] in
theorem earlier_iff_of_undated {oldTime newTime : TimeOfDay}
    (hd : existing.transactionDate = none) :
    incomingTimeIsEarlier existing incoming oldTime newTime = true ↔
      newTime.micros < oldTime.micros := by
  unfold incomingTimeIsEarlier
  rw [hd]
  exact decide_eq_true_iff

/-- **An email does not move a row to a later point in time.** -/
theorem notLater_of_email : NotLater existing (enrichedBy existing incoming .email) where
  point := by
    intro d t hd ht
    obtain ⟨d', hd', hle, hearlier, hincoming⟩ := date_not_later incoming hd
    rw [time_of_email, ht]
    rcases FieldChange.apply_of_some t incoming.transactionTime
      (incomingTimeIsEarlier existing incoming) with hkept | ⟨n, hn, hne, hrule, hwritten⟩
    · refine ⟨d', t, hd', hkept, ?_⟩
      unfold combine days hours minutes seconds
      omega
    · refine ⟨d', n, hd', hwritten, ?_⟩
      rw [earlier_iff hd] at hrule
      refine le_trans ?_ hrule.le
      have hdate : d' ≤ incoming.transactionDate.getD d := by
        cases hin : incoming.transactionDate with
        | none => exact hle
        | some m => exact hincoming m hin
      unfold combine days hours minutes seconds
      omega
  date := by
    intro d hd
    obtain ⟨d', hd', hle, -⟩ := date_not_later incoming hd
    exact ⟨d', hd', hle⟩
  time := by
    intro hd t ht
    rw [time_of_email, ht]
    rcases FieldChange.apply_of_some t incoming.transactionTime
      (incomingTimeIsEarlier existing incoming) with hkept | ⟨n, hn, hne, hrule, hwritten⟩
    · exact ⟨t, hkept, le_refl _⟩
    · exact ⟨n, hwritten, ((earlier_iff_of_undated hd).mp hrule).le⟩

/-- **A time that is not earlier is not earlier than that of the enriched row.** -/
theorem not_earlier_again {oldTime newTime : TimeOfDay}
    (h : incomingTimeIsEarlier existing incoming oldTime newTime = false) :
    incomingTimeIsEarlier (enrichedBy existing incoming .email) incoming oldTime newTime =
      false := by
  rw [← Bool.not_eq_true] at h ⊢
  cases hd : existing.transactionDate with
  | none =>
    have hdate : (enrichedBy existing incoming .email).transactionDate =
        incoming.transactionDate := by
      rw [date_of_email, hd]
      exact FieldChange.apply_of_none
    rw [earlier_iff_of_undated hd] at h
    cases hin : incoming.transactionDate with
    | none => rwa [earlier_iff_of_undated (hdate.trans hin)]
    | some n =>
      rw [earlier_iff (hdate.trans hin), hin]
      unfold combine
      dsimp only [Option.getD_some]
      omega
  | some d =>
    obtain ⟨d', hd', hle, hearlier, -⟩ := date_not_later incoming hd
    rw [earlier_iff hd] at h
    rw [earlier_iff hd']
    rcases hle.eq_or_lt with rfl | hlt
    · exact h
    · -- an earlier date would have made the time earlier
      exfalso
      apply h
      rw [hearlier hlt]
      have hnew := newTime.lt
      unfold combine
      unfold days hours minutes seconds at hnew ⊢
      dsimp only [Option.getD_some]
      omega

/-! ### The rules together -/

/-- The same message changes nothing a second time. -/
theorem computeEnrichmentDiff_again (existing : Transaction) (incoming : TxnData)
    (channel : Channel) :
    computeEnrichmentDiff (enrichedBy existing incoming channel) incoming channel =
      .unchanged := by
  have htime : ∀ o n, existing.transactionTime = some o → incoming.transactionTime = some n →
      (decide (channel = .email) && incomingTimeIsEarlier existing incoming o n) = false →
      (decide (channel = .email) &&
        incomingTimeIsEarlier (enrichedBy existing incoming channel) incoming o n) = false := by
    intro o n _ _ h
    cases channel with
    | sms => rfl
    | email => exact not_earlier_again h
  unfold EnrichmentDiff.unchanged
  conv_lhs => unfold computeEnrichmentDiff
  rw [EnrichmentDiff.mk.injEq]
  refine ⟨?_, ?_, ?_, ?_, ?_, ?_, ?_, ?_, ?_⟩
  · exact FieldChange.of_apply fun o n _ _ h => h
  · exact FieldChange.of_apply htime
  · exact FieldChange.of_apply fun o n _ _ h => h
  · exact FieldChange.of_apply fun o n _ _ h => h
  · exact FieldChange.of_apply fun o n _ _ h => h
  · exact FieldChange.of_apply fun o n _ _ h => h
  · exact FieldChange.of_apply fun o n _ _ h => h
  · exact FieldChange.of_apply fun o n _ _ h => h
  · exact FieldChange.of_apply fun o n _ _ h => h

theorem nothingReplaced_of_sms (existing : Transaction) (incoming : TxnData) :
    NothingReplaced existing (enrichedBy existing incoming .sms) where
  transactionDate := stays_of_forbidden fun _ _ => rfl
  transactionTime := stays_of_forbidden fun _ _ => rfl
  counterparty := stays_of_forbidden fun _ _ => rfl
  cardMask := stays_of_forbidden fun _ _ => rfl
  accountMask := stays_of_forbidden fun _ _ => rfl
  referenceNumber := stays_of_forbidden fun _ _ => rfl
  channel := stays_of_forbidden fun _ _ => rfl
  balance := stays_of_forbidden fun _ _ => rfl
  rawDescription := stays_of_forbidden fun _ _ => rfl

/-- What an enrichment keeps to. -/
structure Improved (channel : Channel) (incoming : TxnData) (old new : Transaction) : Prop where
  again : computeEnrichmentDiff new incoming channel = .unchanged
  sms : channel = .sms → NothingReplaced old new
  point : channel = .email → NotLater old new
  counterparty : channel = .email →
    NeverLess (SaysLess counterpartyForm SigmaFree) old.counterparty new.counterparty
  rawDescription : channel = .email →
    NeverLess (SaysLess strip fun _ => True) old.rawDescription new.rawDescription
  cardMask : channel = .email → NeverLess ShowsLess old.cardMask new.cardMask
  accountMask : channel = .email → NeverLess ShowsLess old.accountMask new.accountMask

/-- **An enrichment is idempotent and monotone.**  Whatever the row and the message, the same
message changes nothing a second time; an SMS replaces nothing; and an email does not move the
row later, nor puts a text in the place of one that contains it, nor a mask in the place of one
that shows more. -/
theorem computeEnrichmentDiff_improves (existing : Transaction) (incoming : TxnData)
    (channel : Channel) :
    Improved channel incoming existing
      (applyDiff existing incoming channel (computeEnrichmentDiff existing incoming channel)) where
  again := computeEnrichmentDiff_again existing incoming channel
  sms := by
    rintro rfl
    exact nothingReplaced_of_sms existing incoming
  point := by
    rintro rfl
    exact notLater_of_email
  counterparty := by
    rintro rfl
    refine neverLess_of_rule (fun o hless => hless.2.1 rfl) fun o n hrule => ?_
    exact not_saysLess_of_counterparty (by simpa using hrule)
  rawDescription := by
    rintro rfl
    refine neverLess_of_rule (fun o hless => hless.2.1 rfl) fun o n hrule => ?_
    exact not_saysLess_of_description (by simpa using hrule)
  cardMask := by
    rintro rfl
    refine neverLess_of_rule (fun o hless => hless.1 rfl) fun o n hrule => ?_
    exact not_showsLess_of_maskOverwrites hrule
  accountMask := by
    rintro rfl
    refine neverLess_of_rule (fun o hless => hless.1 rfl) fun o n hrule => ?_
    exact not_showsLess_of_maskOverwrites hrule

/-- A text that is a strict substring of another, or blank where that is not. -/
def Shorter (old new : String) : Prop :=
  strip old ≠ "" ∧ new ≠ old ∧ (contains new old = true ∨ strip new = "")

end

/-- A debit as an SMS reports it. -/
def cafeDebit : TxnData where
  bank := "hdfc"
  emailType := "hdfc_card_debit"
  direction := "debit"
  amount := 250
  currency := some "INR"
  transactionDate := some 20000
  transactionTime := none
  counterparty := some "Cafe Ltd."
  cardMask := none
  accountMask := none
  referenceNumber := some "UTR123456"
  channel := none
  balance := none
  rawDescription := none
  transactionTimeIsReceivedTime := false
  identifiesBy := .counterparty

/-- The row of the SMS. -/
def cafeRow : Transaction := newRow cafeDebit .sms (some 1) none 1

/-- The same debit in an email that abbreviates. -/
def cafeEmail : TxnData :=
  { cafeDebit with
    counterparty := some "Cafe Ltd"
    referenceNumber := some "UTR123" }

/-- Two spellings of one counterparty are no loss to the rule, and a reference is taken as the
email states it: the shorter ones are stored. -/
theorem shorter_texts_stored :
    ¬ NeverLess (@Shorter asciiTables) cafeRow.counterparty
        (@enrichedBy asciiTables cafeRow cafeEmail .email).counterparty ∧
      ¬ NeverLess (@Shorter asciiTables) cafeRow.referenceNumber
        (@enrichedBy asciiTables cafeRow cafeEmail .email).referenceNumber := by
  constructor
  · intro h
    refine h "Cafe Ltd." "Cafe Ltd" rfl (by decide +kernel) ?_
    exact ⟨by decide +kernel, by decide, .inl (by decide +kernel)⟩
  · intro h
    refine h "UTR123456" "UTR123" rfl (by decide +kernel) ?_
    exact ⟨by decide +kernel, by decide, .inl (by decide +kernel)⟩

end FinancialDashboard.Transactions
