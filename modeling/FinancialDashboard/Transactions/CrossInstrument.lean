import FinancialDashboard.Transactions.Resolution

/-!
# What a match agrees on

A match is one movement on one instrument only if the row and the message agree
on bank, direction, amount and currency, and neither a balance nor a readable
mask of an account or a card speaks against it.  Every search of `find_match`
checks bank, direction, amount and balance.  The rest is checked here and there:

* the reference search looks at neither the currency nor a mask, and at the amount as it
  is read back;
* the window checks the currency and the account mask, not the card mask;
* the alias search checks the currency, and no mask.

`OneInstrument` says what is left for the stored rows to be right about, and
`match_agrees_iff` that a match agrees exactly then.
-/

namespace FinancialDashboard.Transactions

open PyTime PyText

variable [UnicodeTables] {rows : List Transaction} {txn : TxnData} {row : Transaction}
  {channel : Channel} {sourceId : Option Nat}

/-- The row and the message may report one movement on one instrument. -/
structure SameInstrument (row : Transaction) (txn : TxnData) : Prop where
  bank : row.bank = txn.bank
  direction : row.direction = txn.direction
  amount : row.amount = txn.amount
  currency : currencyOrInr row.currency = currencyOrInr txn.currency
  balance : balancesContradict txn.balance row.balance = false
  account : ¬ masksConflict row.accountMask txn.accountMask
  card : ¬ masksConflict row.cardMask txn.cardMask

/-- Every row a search of the matcher can select agrees on what that search does
not check. -/
def OneInstrument (rows : List Transaction) (txn : TxnData) (channel : Channel)
    (sourceId : Option Nat) : Prop :=
  ∀ row, (ByReference rows txn row → row.amount = txn.amount ∧
      currencyOrInr row.currency = currencyOrInr txn.currency ∧
      ¬ masksConflict row.accountMask txn.accountMask ∧
      ¬ masksConflict row.cardMask txn.cardMask) ∧
    (ByWindow rows txn channel sourceId row → ¬ masksConflict row.cardMask txn.cardMask) ∧
    (ByAlias rows txn row → ¬ masksConflict row.accountMask txn.accountMask ∧
      ¬ masksConflict row.cardMask txn.cardMask)

/-! ### What each search checks -/

theorem keys_of_byReference (h : ByReference rows txn row) :
    row.bank = txn.bank ∧ row.direction = txn.direction := by
  have hmem : row ∈ referenceRows rows txn := by
    rw [h.found]
    exact List.mem_singleton_self row
  unfold referenceRows at hmem
  dsimp only at hmem
  split_ifs at hmem
  · cases hmem
  · have hkeys := (List.mem_filter.mp (List.mem_of_mem_take hmem)).2
    simp only [Bool.and_eq_true, decide_eq_true_eq] at hkeys
    exact hkeys.1

/-- The account gate lets through no two readable masks that conflict. -/
theorem not_masksConflict_of_sameAccount (h : sameAccount txn row = true) :
    ¬ masksConflict row.accountMask txn.accountMask := by
  rintro ⟨hstored, hincoming, hmatch⟩
  unfold sameAccount at h
  rw [maskMatches_comm] at hmatch
  simp [hstored, hincoming, hmatch, maskMatches_comm (normalizeMask row.accountMask)] at h

/-- The confirmed candidate is one of them, and no balance contradicts it. -/
theorem mem_of_confirms {candidates : List Transaction}
    (h : Confirms candidates txn channel sourceId row) :
    row ∈ candidates ∧ balancesContradict txn.balance row.balance = false := by
  unfold Confirms at h
  cases hbalance : quantizeBalance txn.balance with
  | some incoming =>
    rw [hbalance] at h
    have hmem : row ∈ equalBalance incoming candidates := by
      rw [h]
      exact List.mem_singleton_self row
    obtain ⟨hrow, hstated⟩ := List.mem_filter.mp hmem
    simp only [Bool.and_eq_true, decide_eq_true_eq] at hstated
    refine ⟨hrow, ?_⟩
    unfold balancesContradict
    rw [hbalance, hstated.2]
    simp
  | none =>
    rw [hbalance] at h
    obtain ⟨hone, hnone, _⟩ := h
    have hmem : row ∈ sameReference candidates txn channel sourceId := by
      rw [hone]
      exact List.mem_singleton_self row
    exact ⟨mem_sameReference hmem, balancesContradict_of_isNone (.inr hnone)⟩

theorem mem_of_byAlias (h : ByAlias rows txn row) :
    row ∈ rows ∧ sharesKeys txn (currencyOrInr txn.currency) row = true := by
  obtain ⟨date, time, _, _, hfound⟩ := h.found
  unfold findAmPmAliasMatch at hfound
  split_ifs at hfound
  split at hfound
  · rename_i c hone
    obtain rfl := Option.some.inj hfound
    have hmem : c ∈ aliasCandidates rows txn date time := by
      rw [hone]
      exact List.mem_singleton_self c
    obtain ⟨hrows, hkeys⟩ := List.mem_filter.mp (List.mem_filter.mp hmem).1
    simp only [Bool.and_eq_true] at hkeys
    exact ⟨hrows, hkeys.1.1⟩
  · cases hfound

/-! ### The three searches -/

theorem sameInstrument_of_byReference (h : ByReference rows txn row)
    (hok : OneInstrument rows txn channel sourceId) : SameInstrument row txn := by
  obtain ⟨hbank, hdirection⟩ := keys_of_byReference h
  obtain ⟨hamount, hcurrency, haccount, hcard⟩ := (hok row).1 h
  exact ⟨hbank, hdirection, hamount, hcurrency, h.balance, haccount, hcard⟩

theorem sameInstrument_of_byWindow (h : ByWindow rows txn channel sourceId row)
    (hok : OneInstrument rows txn channel sourceId) : SameInstrument row txn := by
  obtain ⟨hmem, hbalance⟩ := mem_of_confirms h.confirmed
  obtain ⟨_, _, _, hkeys, _, _, haccount⟩ := mem_gatherFuzzyCandidates hmem
  obtain ⟨hbank, hdirection, hamount, hcurrency⟩ := sharesKeys_iff.mp hkeys
  exact ⟨hbank, hdirection, hamount, currencyOrInr_of_coalesce hcurrency, hbalance,
    not_masksConflict_of_sameAccount haccount, (hok row).2.1 h⟩

theorem sameInstrument_of_byAlias (h : ByAlias rows txn row)
    (hok : OneInstrument rows txn channel sourceId) : SameInstrument row txn := by
  obtain ⟨hbank, hdirection, hamount, hcurrency⟩ := sharesKeys_iff.mp (mem_of_byAlias h).2
  obtain ⟨haccount, hcard⟩ := (hok row).2.2 h
  exact ⟨hbank, hdirection, hamount, currencyOrInr_of_coalesce hcurrency, h.balance, haccount,
    hcard⟩

/-- **When a match agrees**: whatever `find_match` returns as the match is on the
message's instrument, exactly if the rows its searches select agree on what those
searches do not check. -/
theorem match_agrees_iff (rows : List Transaction) (txn : TxnData) (channel : Channel)
    (sourceId : Option Nat) :
    (∀ row kind, findMatch rows txn channel sourceId = .matched row kind →
      SameInstrument row txn) ↔ OneInstrument rows txn channel sourceId := by
  constructor
  · intro h row
    refine ⟨fun hrow => ?_, fun hrow => ?_, fun hrow => ?_⟩
    · have hsame := h row .standard (findMatch_eq_matched_iff.mpr (.inl ⟨hrow, rfl⟩))
      exact ⟨hsame.amount, hsame.currency, hsame.account, hsame.card⟩
    · have hsame := h row .standard (findMatch_eq_matched_iff.mpr (.inr (.inl ⟨hrow, rfl⟩)))
      exact hsame.card
    · have hsame := h row .amPmAlias (findMatch_eq_matched_iff.mpr (.inr (.inr ⟨hrow, rfl⟩)))
      exact ⟨hsame.account, hsame.card⟩
  · intro hok row kind hmatch
    rcases findMatch_eq_matched_iff.mp hmatch with ⟨h, _⟩ | ⟨h, _⟩ | ⟨h, _⟩
    · exact sameInstrument_of_byReference h hok
    · exact sameInstrument_of_byWindow h hok
    · exact sameInstrument_of_byAlias h hok

/-! ### A recycled reference -/

/-- 500 dollars on one account, and 500 rupees on another, under one reference. -/
def inDollars : TxnData :=
  { payment with
    currency := some "USD", accountMask := some "XX1111", referenceNumber := some "100200300" }

def inRupees : TxnData :=
  { payment with accountMask := some "XX2222", referenceNumber := some "100200300" }

omit [UnicodeTables] in
/-- **The reference search merges them.** -/
theorem dollars_match_rupees : ∃ row,
    @findMatch asciiTables [stored inDollars 1 .sms 11] inRupees .email (some 21) =
      .matched row .standard ∧
    currencyOrInr row.currency ≠ currencyOrInr inRupees.currency ∧
    @masksConflict asciiTables row.accountMask inRupees.accountMask ∧
    ¬ @SameInstrument asciiTables row inRupees := by
  have hcurrency : currencyOrInr (some "USD") ≠ currencyOrInr (some "INR") := by decide +kernel
  refine ⟨stored inDollars 1 .sms 11, by decide +kernel, hcurrency, by decide +kernel, ?_⟩
  intro h
  exact hcurrency (@SameInstrument.currency asciiTables _ _ h)

end FinancialDashboard.Transactions
