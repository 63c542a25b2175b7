import FinancialDashboard.Transactions.Matching

/-!
# Which deferred duplicates can be resolved

When `find_match` defers it lists the rows a person may choose from, and the
resolution accepts a row only if `qualifies_as_explicit_match` does.  The list
comes from the fuzzy candidates, with the balance split made, or from the rows of
an ambiguous reference, which are checked one by one.  The explicit check asks
for no more than that: its window is the wide one, and it gathers again with the
target's own currency, which is the incoming one.  But it reads the amount of the
row back, where the query compared the stored one: so it takes no candidate of an
amount with parts of a cent.

* `Undecided`: when the window leaves candidates to choose from.
* `qualifies_of_gathered`: a gathered candidate of an amount in cents qualifies, unless a
  balance contradicts it.
* `mem_ids_of_decideMatch`: what the decision defers passed the balance split.
* `deferred_qualifies_iff`: when every listed id names a row that qualifies.
* `fils_not_resolvable`: two payments alike, in fils.
-/

namespace FinancialDashboard.Transactions

open PyTime PyText

variable {rows candidates : List Transaction} {txn : TxnData} {c : Transaction}
  {channel : Channel} {sourceId : Option Nat}

/-! ### The identity gates -/

theorem currencyOrInr_ne (currency : Option String) : currencyOrInr currency ≠ "" := by
  unfold currencyOrInr
  split_ifs with h
  · decide
  · exact h

/-- A stored currency that equals an incoming one is not the empty string. -/
theorem currencyOrInr_of_coalesce {stored incoming : Option String}
    (h : coalesceCurrency stored = currencyOrInr incoming) :
    currencyOrInr stored = currencyOrInr incoming := by
  cases stored with
  | none => exact h
  | some s =>
    have hs : s = currencyOrInr incoming := h
    have hne : s ≠ "" := hs ▸ currencyOrInr_ne incoming
    calc currencyOrInr (some s) = s := if_neg hne
      _ = currencyOrInr incoming := hs

/-- The window a candidate is gathered in is no wider than the explicit one. -/
theorem minutes_windowMinutes_le (txn : TxnData) :
    minutes (windowMinutes txn) ≤ minutes fuzzyMatchWindowMinutes := by
  unfold windowMinutes
  split_ifs <;> decide

theorem windowMinutes_le (txn : TxnData) : windowMinutes txn ≤ fuzzyMatchWindowMinutes := by
  unfold windowMinutes
  split_ifs <;> decide

theorem plausibleEventTime_of_gathered {date : Int} (hdate : txn.transactionDate = some date)
    (hrange : inDateRange (dateBounds txn date) c = true)
    (hin : ∀ time, txn.transactionTime = some time → inWindow txn (combine date time) c = true) :
    plausibleEventTime c txn = true := by
  obtain ⟨d, hd, hbounds⟩ : ∃ d, c.transactionDate = some d ∧
      (dateBounds txn date).1 ≤ d ∧ d ≤ (dateBounds txn date).2 := by
    unfold inDateRange at hrange
    cases hd : c.transactionDate with
    | none => simp [hd] at hrange
    | some d => exact ⟨d, rfl, by simpa [hd] using hrange⟩
  unfold plausibleEventTime
  simp only [hdate, hd]
  unfold dateBounds at hbounds
  cases htime : txn.transactionTime with
  | none =>
    rw [htime] at hbounds
    have heq : d = date := by
      obtain ⟨h1, h2⟩ := hbounds
      dsimp only at h1 h2
      omega
    simpa using heq
  | some time =>
    rw [htime] at hbounds
    have hle := minutes_windowMinutes_le txn
    cases hstored : c.transactionTime with
    | none =>
      obtain ⟨h1, h2⟩ := hbounds
      have hlower : dateOf (combine date time - minutes fuzzyMatchWindowMinutes) ≤ d :=
        Int.le_trans (dateOf_mono (by omega)) h1
      have hupper : d ≤ dateOf (combine date time + minutes fuzzyMatchWindowMinutes) :=
        Int.le_trans h2 (dateOf_mono (by omega))
      simp [hlower, hupper]
    | some t =>
      have hwithin := hin time htime
      unfold inWindow at hwithin
      simp only [hd, hstored, Bool.and_eq_true] at hwithin
      exact within_mono (windowMinutes_le txn) hwithin.2

/-! ### What the decision defers -/

theorem balancesContradict_of_isNone {a b : Option Rat} (h : a = none ∨ b = none) :
    balancesContradict a b = false := by
  rcases h with rfl | rfl
  · cases b <;> rfl
  · cases a <;> rfl

theorem mem_sameBalance {incoming : Rat} (hbalance : quantizeBalance txn.balance = some incoming)
    (h : c ∈ sameBalance incoming candidates) :
    c ∈ candidates ∧ balancesContradict txn.balance c.balance = false := by
  obtain ⟨hc, hsame⟩ := List.mem_filter.mp h
  refine ⟨hc, ?_⟩
  rw [Bool.or_eq_true, decide_eq_true_eq] at hsame
  rcases hsame with hnone | heq
  · exact balancesContradict_of_isNone (.inr (by simpa using hnone))
  · unfold balancesContradict
    rw [hbalance, heq]
    simp

theorem decideByBalance_deferred_iff {incoming : Rat} {candidates : List Transaction} :
    (∃ kind reason ids, decideByBalance candidates incoming = .deferred kind reason ids) ↔
      sameBalance incoming candidates ≠ [] ∧
        (equalBalance incoming candidates).length ≠ 1 := by
  rw [← equalBalance_sameBalance]
  unfold decideByBalance
  split
  · rename_i hempty
    simp [hempty]
  · rename_i hsome
    split
    · rename_i c hone
      simp [hone]
    · rename_i hmany
      refine iff_of_true ⟨_, _, _, rfl⟩ ⟨hsome, fun hlength => ?_⟩
      obtain ⟨c, hc⟩ := List.length_eq_one_iff.mp hlength
      exact hmany c hc

theorem decideBySlot_eq_insert {candidates : List Transaction} :
    decideBySlot candidates channel = .insert ↔ candidates = [] := by
  unfold decideBySlot
  cases candidates with
  | nil => simp
  | cons c rest =>
    dsimp only
    split_ifs <;> simp

theorem decideBySlot_deferred_iff {candidates : List Transaction} :
    (∃ kind reason ids, decideBySlot candidates channel = .deferred kind reason ids) ↔
      candidates ≠ [] ∧
        ∀ row, ¬ (candidates = [row] ∧ row.balance = none ∧ row.slot channel = none) := by
  constructor
  · rintro ⟨kind, reason, ids, h⟩
    refine ⟨fun hempty => ?_, fun row hclean => ?_⟩
    · rw [decideBySlot_eq_insert.mpr hempty] at h
      cases h
    · rw [decideBySlot_eq_matched.mpr ⟨hclean, rfl⟩] at h
      cases h
  · rintro ⟨hsome, hunclear⟩
    cases h : decideBySlot candidates channel with
    | insert => exact absurd (decideBySlot_eq_insert.mp h) hsome
    | matched row kind => exact absurd (decideBySlot_eq_matched.mp h).1 (hunclear row)
    | deferred kind reason ids => exact ⟨kind, reason, ids, rfl⟩

theorem mem_ids_of_decideByBalance {incoming : Rat} {kind : Option MatchKind}
    {reason : DeferralReason} {ids : List Nat} {id : Nat}
    (h : decideByBalance candidates incoming = .deferred kind reason ids) (hid : id ∈ ids) :
    ∃ c ∈ sameBalance incoming candidates, c.id = id := by
  unfold decideByBalance at h
  split at h
  · cases h
  · split at h
    · cases h
    · cases h
      exact List.mem_map.mp hid

theorem mem_ids_of_decideBySlot {kind : Option MatchKind} {reason : DeferralReason}
    {ids : List Nat} {id : Nat} (h : decideBySlot candidates channel = .deferred kind reason ids)
    (hid : id ∈ ids) : ∃ c ∈ candidates, c.id = id := by
  unfold decideBySlot at h
  dsimp only at h
  split at h
  · cases h
  · split at h
    · cases h
    · cases h
      exact List.mem_map.mp hid

variable [UnicodeTables]

theorem mem_sameReference (h : c ∈ sameReference candidates txn channel sourceId) :
    c ∈ candidates := by
  unfold sameReference at h
  dsimp only at h
  split_ifs at h
  · exact h
  · exact (List.mem_filter.mp h).1

/-- **What the decision defers** is among the candidates, and no balance
contradicts it. -/
theorem mem_ids_of_decideMatch {kind : Option MatchKind} {reason : DeferralReason}
    {ids : List Nat} {id : Nat}
    (h : decideMatch candidates txn channel sourceId = .deferred kind reason ids)
    (hid : id ∈ ids) :
    ∃ c ∈ candidates, c.id = id ∧ balancesContradict txn.balance c.balance = false := by
  unfold decideMatch at h
  split at h
  · cases h
  cases hbalance : quantizeBalance txn.balance with
  | some incoming =>
    rw [hbalance] at h
    obtain ⟨c, hc, rfl⟩ := mem_ids_of_decideByBalance h hid
    obtain ⟨hmem, hok⟩ := mem_sameBalance hbalance hc
    exact ⟨c, hmem, rfl, hok⟩
  | none =>
    rw [hbalance] at h
    obtain ⟨c, hc, rfl⟩ := mem_ids_of_decideBySlot h hid
    have hnone : txn.balance = none := by simpa [quantizeBalance] using hbalance
    exact ⟨c, mem_sameReference hc, rfl, balancesContradict_of_isNone (.inl hnone)⟩

/-- The window leaves several rows, or one that is not clear: some candidate may have the
message's balance, and none or several state it; or the message states none, and there is not
one candidate without a balance whose slot is open. -/
inductive Undecided (rows : List Transaction) (txn : TxnData) (channel : Channel)
    (sourceId : Option Nat) : Prop
  | balances {incoming : Rat} (noReference : referenceRows rows txn = [])
      (stated : quantizeBalance txn.balance = some incoming)
      (left : sameBalance incoming (gatherFuzzyCandidates rows txn none) ≠ [])
      (ambiguous : (equalBalance incoming (gatherFuzzyCandidates rows txn none)).length ≠ 1)
  | slots (noReference : referenceRows rows txn = []) (unstated : quantizeBalance txn.balance = none)
      (left : sameReference (gatherFuzzyCandidates rows txn none) txn channel sourceId ≠ [])
      (unclear : ∀ row, ¬ Confirms (gatherFuzzyCandidates rows txn none) txn channel sourceId row)

theorem Undecided.noReference (h : Undecided rows txn channel sourceId) :
    referenceRows rows txn = [] := by
  cases h with
  | balances hnone => exact hnone
  | slots hnone => exact hnone

theorem Undecided.gathered (h : Undecided rows txn channel sourceId) :
    gatherFuzzyCandidates rows txn none ≠ [] := by
  intro hempty
  cases h with
  | balances _ _ hleft => simp [hempty, sameBalance] at hleft
  | slots _ _ hleft => simp [hempty, sameReference] at hleft

/-- **The decision on the window defers exactly then.** -/
theorem decideMatch_deferred_iff (hnone : referenceRows rows txn = []) :
    (∃ kind reason ids, decideMatch (gatherFuzzyCandidates rows txn none) txn channel sourceId =
      .deferred kind reason ids) ↔ Undecided rows txn channel sourceId := by
  have hcases : (∃ kind reason ids, decideMatch (gatherFuzzyCandidates rows txn none) txn channel
      sourceId = .deferred kind reason ids) ↔
      (∃ incoming, quantizeBalance txn.balance = some incoming ∧
        sameBalance incoming (gatherFuzzyCandidates rows txn none) ≠ [] ∧
          (equalBalance incoming (gatherFuzzyCandidates rows txn none)).length ≠ 1) ∨
      (quantizeBalance txn.balance = none ∧
        sameReference (gatherFuzzyCandidates rows txn none) txn channel sourceId ≠ [] ∧
        ∀ row, ¬ Confirms (gatherFuzzyCandidates rows txn none) txn channel sourceId row) := by
    unfold decideMatch Confirms
    split
    · rename_i hempty
      simp [hempty, sameBalance, sameReference]
    · cases quantizeBalance txn.balance with
      | some incoming => simpa using decideByBalance_deferred_iff
      | none => simpa using decideBySlot_deferred_iff
  rw [hcases]
  constructor
  · rintro (⟨incoming, hstated, hleft, hmany⟩ | ⟨hunstated, hleft, hunclear⟩)
    · exact .balances hnone hstated hleft hmany
    · exact .slots hnone hunstated hleft hunclear
  · intro h
    cases h with
    | balances _ hstated hleft hmany => exact .inl ⟨_, hstated, hleft, hmany⟩
    | slots _ hunstated hleft hunclear => exact .inr ⟨hunstated, hleft, hunclear⟩

/-- It never defers without candidates. -/
theorem ids_of_decideMatch {kind : Option MatchKind} {reason : DeferralReason} {ids : List Nat}
    (h : decideMatch candidates txn channel sourceId = .deferred kind reason ids) : ids ≠ [] := by
  have hbalance : ∀ {incoming}, decideByBalance candidates incoming = .deferred kind reason ids →
      ids ≠ [] := by
    intro incoming h
    unfold decideByBalance at h
    split at h
    · cases h
    · rename_i survivors hsome
      split at h
      · cases h
      · cases h
        rwa [Ne, List.map_eq_nil_iff]
  have hslot : ∀ {candidates : List Transaction},
      decideBySlot candidates channel = .deferred kind reason ids → ids ≠ [] := by
    intro candidates h
    unfold decideBySlot at h
    cases candidates with
    | nil => cases h
    | cons c rest =>
      dsimp only at h
      split_ifs at h <;> cases h <;> exact List.cons_ne_nil _ _
  unfold decideMatch at h
  split at h
  · cases h
  · cases hstated : quantizeBalance txn.balance with
    | some incoming =>
      rw [hstated] at h
      exact hbalance h
    | none =>
      rw [hstated] at h
      exact hslot h

/-! ### The whole match -/

/-- **A gathered candidate of an amount in cents qualifies**, unless both sides state a balance
and the balances differ. -/
theorem qualifies_of_gathered (hcents : InCents txn.amount)
    (hc : c ∈ gatherFuzzyCandidates rows txn none)
    (hbalance : balancesContradict txn.balance c.balance = false) :
    qualifiesAsExplicitMatch rows c txn = true := by
  obtain ⟨date, hdate, _, hkeys, hrange, hin, _⟩ := mem_gatherFuzzyCandidates hc
  obtain ⟨hbank, hdirection, hamount, hcurrency⟩ := sharesKeys_iff.mp hkeys
  have hread : c.readAmount = txn.amount := by
    rw [← hamount] at hcents ⊢
    exact hcents
  have hcurrency : coalesceCurrency c.currency = currencyOrInr txn.currency := hcurrency
  have hnormalized : normalizedCurrency c.currency = normalizedCurrency txn.currency := by
    unfold normalizedCurrency
    rw [currencyOrInr_of_coalesce hcurrency]
  have htime := plausibleEventTime_of_gathered hdate hrange hin
  -- the explicit check gathers with the target's currency, which is the incoming one
  have hsame : gatherFuzzyCandidates rows txn (some (coalesceCurrency c.currency)) =
      gatherFuzzyCandidates rows txn none := by
    unfold gatherFuzzyCandidates
    rw [hcurrency]
    rfl
  unfold qualifiesAsExplicitMatch
  rw [if_neg (by simp [hbank, hdirection, hread, hnormalized, htime]), if_neg (by simp [hbalance]),
    hsame]
  have hany : (gatherFuzzyCandidates rows txn none).any (·.id = c.id) = true :=
    List.any_eq_true.mpr ⟨c, hc, by simp⟩
  simp [hany]

theorem mem_of_mem_referenceRows (h : c ∈ referenceRows rows txn) : c ∈ rows := by
  unfold referenceRows at h
  dsimp only at h
  split_ifs at h
  · cases h
  · exact (List.mem_filter.mp (List.mem_of_mem_take h)).1

/-- What is read back has no parts of a cent, and so has what it equals. -/
theorem inCents_of_qualifies (h : qualifiesAsExplicitMatch rows c txn = true) :
    InCents txn.amount := by
  unfold qualifiesAsExplicitMatch at h
  split_ifs at h with hidentity
  have hread : c.readAmount = txn.amount := by
    by_contra hne
    exact hidentity (by simp [hne])
  exact hread ▸ c.inCents_readAmount

/-- **When every deferred duplicate can be resolved**: each id `find_match` lists names a row of
the table that the explicit check accepts for the same message, exactly if the amount is in cents
or the window leaves no candidates to choose from. -/
theorem deferred_qualifies_iff (rows : List Transaction) (txn : TxnData) (channel : Channel)
    (sourceId : Option Nat) :
    (∀ kind reason ids, findMatch rows txn channel sourceId = .deferred kind reason ids →
      ∀ id ∈ ids, ∃ row ∈ rows, row.id = id ∧ qualifiesAsExplicitMatch rows row txn = true) ↔
        (Undecided rows txn channel sourceId → InCents txn.amount) := by
  constructor
  · intro h hundecided
    obtain ⟨kind, reason, ids, hdecide⟩ :=
      (decideMatch_deferred_iff hundecided.noReference).mpr hundecided
    have hfind : findMatch rows txn channel sourceId = .deferred kind reason ids := by
      unfold findMatch
      rw [hundecided.noReference]
      dsimp only
      split
      · rename_i hempty
        exact absurd hempty hundecided.gathered
      · exact hdecide
    obtain ⟨id, rest, rfl⟩ := List.exists_cons_of_ne_nil (ids_of_decideMatch hdecide)
    obtain ⟨row, -, -, hqualifies⟩ := h kind reason _ hfind id List.mem_cons_self
    exact inCents_of_qualifies hqualifies
  · intro hcents kind reason ids h id hid
    unfold findMatch at h
    split at h
    · -- one row carries the reference: a contradiction is deferred without candidates
      unfold decideReference at h
      split_ifs at h <;> cases h <;> cases hid
    · rename_i hnone
      split at h
      · -- the alias search never defers
        unfold decideAlias at h
        split at h
        · split at h
          · cases h
          · split_ifs at h
        · cases h
      · obtain ⟨c, hc, rfl, hbalance⟩ := mem_ids_of_decideMatch h hid
        obtain ⟨_, _, hrows, _⟩ := mem_gatherFuzzyCandidates hc
        have hundecided := (decideMatch_deferred_iff hnone).mp ⟨_, _, _, h⟩
        exact ⟨c, hrows, rfl, qualifies_of_gathered (hcents hundecided) hc hbalance⟩
    · cases h
      obtain ⟨c, hc, rfl⟩ := List.mem_map.mp hid
      obtain ⟨hfound, hqualifies⟩ := List.mem_filter.mp hc
      exact ⟨c, mem_of_mem_referenceRows hfound, rfl, hqualifies⟩

/-! ### Two payments alike -/

/-- A payment of 500 at ten in the morning that states neither balance nor reference. -/
def payment : TxnData where
  bank := "hdfc"
  emailType := "hdfc_cc_debit_alert"
  direction := "debit"
  amount := 500
  currency := some "INR"
  transactionDate := some 739000
  transactionTime := some ⟨36000000000, by decide⟩
  counterparty := some "AMAZON"
  cardMask := some "XX4321"
  accountMask := none
  referenceNumber := none
  channel := some "card"
  balance := none
  rawDescription := none
  transactionTimeIsReceivedTime := false
  identifiesBy := .counterparty

/-- The row a message made, and the message that made it. -/
def stored (txn : TxnData) (id : Nat) (channel : Channel) (source : Nat) : Transaction :=
  { txn with
    id
    smsMessageId := if channel = .sms then some source else none
    emailId := if channel = .email then some source else none
    source := some channel.value }

/-- A payment of 1.254 dinars: the column keeps the fils, and Python reads 1.25 of it. -/
def inFils : TxnData := { payment with amount := 1254 / 1000, currency := some "KWD" }

def filsRows : List Transaction := [stored inFils 1 .sms 11, stored inFils 2 .sms 12]

omit [UnicodeTables] in
/-- **The third message of such a payment is put off with two rows to choose from, and neither
is accepted.** -/
theorem fils_not_resolvable :
    @findMatch asciiTables filsRows inFils .email (some 21) =
        .deferred none .multipleCandidates [1, 2] ∧
      ∀ row ∈ filsRows, @qualifiesAsExplicitMatch asciiTables filsRows row inFils = false := by
  constructor
  · decide +kernel
  · decide +kernel

end FinancialDashboard.Transactions
