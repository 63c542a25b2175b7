import FinancialDashboard.Transactions.CrossInstrument
import FinancialDashboard.Transactions.Enrichment
import FinancialDashboard.Transactions.Merge
import FinancialDashboard.Lib.Transition
import Mathlib.Data.List.Pairwise

/-!
# Feeding a message back

A message that already owns a row is merged again: a reparse, a second poll.  The
matcher does not look for the row that has the message's id in its slot; it looks
for the message's content, and later messages have changed the row and its
neighbours since.  So the second merge can end anywhere.

It is harmless if it merges into the message's own row, or defers.  `FoundAgain`
lists the ways the content leads back to the row, and `Defers` the ways the
decision is put off; `harmless_iff` says that these are all.  A message without a
balance and without a reference row never gets back by the window: its own slot
is filled.

* `findMatch_deferred_iff`: when the matcher defers.
* `reingest_iff`: when feeding a message back is harmless, in any state reached.
* `corrected_time_inserts_again`: two messages after which it is not.
* `oneRow_of_run`: no message gets a second row where it is fed back only then.
-/

namespace FinancialDashboard.Transactions

open PyTime PyText

/-- A parsed message, by its id on its channel. -/
structure Message where
  channel : Channel
  source : Nat
  txn : TxnData

structure MergeCall where
  channel : Channel
  txn : TxnData
  smsMessageId : Option Nat
  emailId : Option Nat
  forceNew : Bool

/-- The call the pipelines make: a message brings the id of its own channel only. -/
def Message.call (m : Message) (forceNew : Bool) : MergeCall :=
  match m.channel with
  | .sms => ⟨.sms, m.txn, some m.source, none, forceNew⟩
  | .email => ⟨.email, m.txn, none, some m.source, forceNew⟩

/-- The message's id is in the row's slot. -/
def Owns (m : Message) (row : Transaction) : Prop := row.slot m.channel = some m.source

instance (m : Message) (row : Transaction) : Decidable (Owns m row) :=
  inferInstanceAs (Decidable (_ = _))

/-- Nothing came of the merge but an enriched row of the message's own. -/
inductive Harmless (t : TxnTable) (m : Message) :
    Except MergeError (TxnTable × MergeResult) → Prop
  | merged {t' : TxnTable} {row o : Transaction} (mem : o ∈ t.rows) (same : o.id = row.id)
      (owns : Owns m o) (ids : t'.rows.map (·.id) = t.rows.map (·.id))
      (others : ∀ r ∈ t.rows, r.id ≠ row.id → r ∈ t'.rows) :
      Harmless t m (.ok (t', .enriched row))
  | deferred {reason : DeferralReason} {ids : List Nat} :
      Harmless t m (.ok (t, .deferred reason ids))

/-- The reference the message leaves on its row. -/
def referenceAfter (o : Transaction) (m : Message) : Option String :=
  match m.channel with
  | .sms => o.referenceNumber <|> m.txn.referenceNumber
  | .email => m.txn.referenceNumber <|> o.referenceNumber

/-- No other row has the reference the message leaves on the row `o`. -/
def KeepsIndex (t : TxnTable) (m : Message) (o : Transaction) : Prop :=
  ∀ r ∈ t.rows, r.id ≠ o.id → ¬ Clash r { o with referenceNumber := referenceAfter o m }

/-- No message is in a slot of two rows. -/
def OneRow (t : TxnTable) : Prop :=
  t.rows.Pairwise fun a b => ∀ channel source, a.slot channel = some source →
    b.slot channel ≠ some source

variable [UnicodeTables] {t : TxnTable} {m : Message} {rows : List Transaction} {txn : TxnData}
  {channel : Channel} {sourceId : Option Nat} {row o : Transaction} {kind : MatchKind}

def mergeCall (t : TxnTable) (c : MergeCall) : Except MergeError (TxnTable × MergeResult) :=
  mergeTransaction t c.channel c.txn c.smsMessageId c.emailId c.forceNew

/-- The table after the call; a failed one is rolled back. -/
def afterCall (t : TxnTable) (c : MergeCall) : TxnTable :=
  match mergeCall t c with
  | .ok (t', _) => t'
  | .error _ => t

/-- The table after the calls, from an empty one. -/
def reached (calls : List MergeCall) : TxnTable := calls.foldl afterCall .empty

/-- `merge_transaction` on the message. -/
def ingest (t : TxnTable) (m : Message) : Except MergeError (TxnTable × MergeResult) :=
  mergeCall t (m.call false)

/-! ### When the matcher defers -/

inductive Defers (rows : List Transaction) (txn : TxnData) (channel : Channel)
    (sourceId : Option Nat) : Prop
  /-- The amount or the balance of the one row with the reference is another. -/
  | contradicted {row : Transaction} (found : referenceRows rows txn = [row])
      (contradicts : row.readAmount ≠ txn.amount ∨
        balancesContradict txn.balance row.balance = true)
  | references (found : 2 ≤ (referenceRows rows txn).length)
  | undecided (window : Undecided rows txn channel sourceId)

omit [UnicodeTables] in
theorem decideReference_deferred_iff :
    (∃ kind reason ids, decideReference row txn = .deferred kind reason ids) ↔
      row.readAmount ≠ txn.amount ∨ balancesContradict txn.balance row.balance = true := by
  unfold decideReference
  split_ifs with hamount hbalance
  · simp [hamount]
  · simp [hbalance]
  · simp [hamount, hbalance]

theorem decideAlias_ne_deferred {kind : Option MatchKind} {reason : DeferralReason}
    {ids : List Nat} : decideAlias rows txn ≠ .deferred kind reason ids := by
  unfold decideAlias
  split
  · split
    · simp
    · split_ifs <;> simp
  · simp

/-- **When the matcher defers.** -/
theorem findMatch_deferred_iff :
    (∃ kind reason ids, findMatch rows txn channel sourceId = .deferred kind reason ids) ↔
      Defers rows txn channel sourceId := by
  unfold findMatch
  split
  · rename_i found hfound
    rw [decideReference_deferred_iff]
    constructor
    · exact .contradicted hfound
    · intro h
      cases h with
      | @contradicted other hother h =>
        obtain rfl : other = found := by simpa [hfound] using hother.symm
        exact h
      | references h => simp [hfound] at h
      | undecided h => exact absurd (hfound.symm.trans h.noReference) (List.cons_ne_nil _ _)
  · rename_i hnone
    split
    · rename_i hempty
      refine iff_of_false ?_ ?_
      · rintro ⟨kind, reason, ids, h⟩
        exact decideAlias_ne_deferred h
      · intro h
        cases h with
        | contradicted hfound => simp [hnone] at hfound
        | references h => simp [hnone] at h
        | undecided h => exact h.gathered hempty
    · rw [decideMatch_deferred_iff hnone]
      constructor
      · exact .undecided
      · intro h
        cases h with
        | contradicted hfound => simp [hnone] at hfound
        | references h => simp [hnone] at h
        | undecided h => exact h
  · rename_i hone hnone
    refine iff_of_true ⟨_, _, _, rfl⟩ (.references ?_)
    cases hrows : referenceRows rows txn with
    | nil => exact absurd hrows hnone
    | cons a rest =>
      cases rest with
      | nil => exact absurd hrows (hone a)
      | cons b rest => simp

/-! ### What the merge does to a matched row -/

/-- The row with the message in its slot, unless the slot is filled. -/
def claimedRow (row : Transaction) (m : Message) : Transaction :=
  if (row.slot m.channel).isSome then row else setSlot row m.channel m.source

def enrichedRow (row : Transaction) (m : Message) (kind : MatchKind) : Transaction :=
  applyDiff (claimedRow row m) m.txn m.channel
    (computeAppliedEnrichmentDiff (claimedRow row m) m.txn m.channel kind)

section

variable {row : Transaction} {kind : MatchKind}

omit [UnicodeTables] in
theorem slot_claimedRow (channel : Channel) :
    (claimedRow row m).slot channel =
      if channel = m.channel then row.slot channel <|> some m.source else row.slot channel := by
  unfold claimedRow
  cases hslot : row.slot m.channel with
  | some source =>
    by_cases hchannel : channel = m.channel
    · subst hchannel
      simp [hslot]
    · simp [hchannel]
  | none =>
    unfold setSlot Transaction.slot at *
    cases hm : m.channel <;> cases channel <;> simp_all

omit [UnicodeTables] in
theorem toTxnData_claimedRow : (claimedRow row m).toTxnData = row.toTxnData := by
  unfold claimedRow setSlot
  split_ifs
  · rfl
  · cases m.channel <;> rfl

omit [UnicodeTables] in
theorem id_claimedRow : (claimedRow row m).id = row.id := by
  unfold claimedRow setSlot
  split_ifs
  · rfl
  · cases m.channel <;> rfl

@[simp] theorem id_enrichedRow : (enrichedRow row m kind).id = row.id := id_claimedRow

@[simp] theorem bank_enrichedRow : (enrichedRow row m kind).bank = row.bank := by
  show (claimedRow row m).toTxnData.bank = row.bank
  rw [toTxnData_claimedRow]

@[simp] theorem direction_enrichedRow : (enrichedRow row m kind).direction = row.direction := by
  show (claimedRow row m).toTxnData.direction = row.direction
  rw [toTxnData_claimedRow]

@[simp] theorem amount_enrichedRow : (enrichedRow row m kind).amount = row.amount := by
  show (claimedRow row m).toTxnData.amount = row.amount
  rw [toTxnData_claimedRow]

theorem hasAmount_enrichedRow {amount : Rat} :
    (enrichedRow row m kind).HasAmount amount ↔ row.HasAmount amount := by
  unfold Transaction.HasAmount Transaction.readAmount
  rw [amount_enrichedRow]

@[simp] theorem slot_enrichedRow (channel : Channel) :
    (enrichedRow row m kind).slot channel =
      if channel = m.channel then row.slot channel <|> some m.source else row.slot channel := by
  rw [← slot_claimedRow]
  rfl

theorem referenceNumber_appliedDiff (existing : Transaction) (incoming : TxnData)
    (channel : Channel) :
    (computeAppliedEnrichmentDiff existing incoming channel kind).referenceNumber =
      .of existing.referenceNumber incoming.referenceNumber fun _ _ => channel = .email := by
  unfold computeAppliedEnrichmentDiff
  dsimp only
  split
  · split_ifs <;> rfl
  · rfl

@[simp] theorem referenceNumber_enrichedRow :
    (enrichedRow row m kind).referenceNumber = referenceAfter row m := by
  have hreference : (claimedRow row m).referenceNumber = row.referenceNumber :=
    congrArg TxnData.referenceNumber toTxnData_claimedRow
  unfold enrichedRow applyDiff referenceAfter
  dsimp only
  rw [referenceNumber_appliedDiff, FieldChange.apply_of, hreference]
  -- an email overwrites the reference at will, an SMS never
  cases m.channel with
  | email => cases row.referenceNumber <;> cases m.txn.referenceNumber <;> rfl
  | sms => cases row.referenceNumber <;> cases m.txn.referenceNumber <;> rfl

theorem clash_enrichedRow {r : Transaction} :
    Clash r (enrichedRow row m kind) ↔
      Clash r { row with referenceNumber := referenceAfter row m } := by
  simp [Clash]

omit [UnicodeTables] in
/-- Two rows of a table with one id are one. -/
theorem TxnTable.eq_of_id {r s : Transaction} (hr : r ∈ t.rows) (hs : s ∈ t.rows)
    (h : r.id = s.id) : r = s := by
  have : Std.Symm fun a b : Transaction => a.id ≠ b.id := ⟨fun _ _ h => h.symm⟩
  by_contra hne
  exact t.ids.forall hr hs hne h

omit [UnicodeTables] in
theorem TxnTable.find_of_mem {r : Transaction} {id : Nat} (hr : r ∈ t.rows) (hid : r.id = id) :
    t.rows.find? (·.id = id) = some r := by
  cases hfind : t.rows.find? (·.id = id) with
  | none => exact absurd hid (by simpa using List.find?_eq_none.mp hfind r hr)
  | some q =>
    have hq : q.id = id := by simpa using List.find?_some hfind
    exact congrArg some (TxnTable.eq_of_id (List.mem_of_find?_eq_some hfind) hr (hq.trans hid.symm))

omit [UnicodeTables] in
/-- The stored row is the one the matcher saw, so the claim succeeds. -/
theorem claimTransactionSourceSlot_of_mem (hrow : row ∈ t.rows) :
    claimTransactionSourceSlot t row m.channel (some m.source) = some (claimedRow row m) := by
  unfold claimTransactionSourceSlot claimedRow
  by_cases hslot : (row.slot m.channel).isSome
  · simp [hslot]
  · have hopen : (row.slot m.channel).isNone := by simpa using hslot
    have hany : t.rows.any (fun r => r.id = row.id &&
        ((r.slot m.channel).isNone || r.slot m.channel = some m.source)) = true :=
      List.any_eq_true.mpr ⟨row, hrow, by simp [hopen]⟩
    simp only [hslot, hany]
    simp

theorem applyTransactionEnrichment_of_mem (hrow : row ∈ t.rows) :
    applyTransactionEnrichment t row m.txn m.channel (some m.source) kind =
      (t.updateRow (enrichedRow row m kind)).map
        fun t' => (t', .enriched (enrichedRow row m kind)) := by
  unfold applyTransactionEnrichment
  rw [claimTransactionSourceSlot_of_mem hrow]
  change ((t.updateRow (enrichedRow row m kind)).bind fun t' => _) = _
  cases t.updateRow (enrichedRow row m kind) <;> rfl

end

/-! ### Feeding a message back -/

/-- The message's content leads back to the row `o`.  The window does so only by
the balance: without one it wants a row whose slot is open. -/
inductive FoundAgain (rows : List Transaction) (txn : TxnData) (o : Transaction) : Prop
  | reference (found : ByReference rows txn o)
  | balance {incoming : Rat} (noReference : referenceRows rows txn = [])
      (stated : quantizeBalance txn.balance = some incoming)
      (found : equalBalance incoming (gatherFuzzyCandidates rows txn none) = [o])
  | twelveHours (found : ByAlias rows txn o)

/-- What makes a second merge of the message harmless: the decision is put off, or
it finds the message's row, and the row stays within the index. -/
inductive Settles (t : TxnTable) (m : Message) : Prop
  | putOff (defers : Defers t.rows m.txn m.channel (some m.source))
  | back {o : Transaction} (owns : Owns m o) (found : FoundAgain t.rows m.txn o)
      (keeps : KeepsIndex t m o)

theorem mem_of_findMatch (h : findMatch rows txn channel sourceId = .matched row kind) :
    row ∈ rows := by
  rcases findMatch_eq_matched_iff.mp h with ⟨h, -⟩ | ⟨h, -⟩ | ⟨h, -⟩
  · exact mem_of_mem_referenceRows (h.found ▸ List.mem_singleton_self row)
  · obtain ⟨_, _, hrows, _⟩ := mem_gatherFuzzyCandidates (mem_of_confirms h.confirmed).1
    exact hrows
  · exact (mem_of_byAlias h).1

/-- A match has the bank, the direction and the amount of the message: the amount that is stored
or, by the reference, the one that is read. -/
theorem sharesIdentity_of_findMatch (h : findMatch rows txn channel sourceId = .matched row kind) :
    row.bank = txn.bank ∧ row.direction = txn.direction ∧ row.HasAmount txn.amount := by
  rcases findMatch_eq_matched_iff.mp h with ⟨h, -⟩ | ⟨h, -⟩ | ⟨h, -⟩
  · have hmem : row ∈ referenceRows rows txn := h.found ▸ List.mem_singleton_self row
    unfold referenceRows at hmem
    dsimp only at hmem
    split_ifs at hmem
    · cases hmem
    · have hkeys := (List.mem_filter.mp (List.mem_of_mem_take hmem)).2
      simp only [Bool.and_eq_true, decide_eq_true_eq] at hkeys
      exact ⟨hkeys.1.1, hkeys.1.2, .inr h.amount⟩
  · obtain ⟨_, _, _, hkeys, _⟩ := mem_gatherFuzzyCandidates (mem_of_confirms h.confirmed).1
    obtain ⟨hbank, hdirection, hamount, -⟩ := sharesKeys_iff.mp hkeys
    exact ⟨hbank, hdirection, .inl hamount⟩
  · obtain ⟨hbank, hdirection, hamount, -⟩ := sharesKeys_iff.mp (mem_of_byAlias h).2
    exact ⟨hbank, hdirection, .inl hamount⟩

/-- **The matcher finds a row the message owns exactly by its content.** -/
theorem exists_matched_iff (howns : Owns m o) :
    (∃ kind, findMatch rows m.txn m.channel (some m.source) = .matched o kind) ↔
      FoundAgain rows m.txn o := by
  simp only [findMatch_eq_matched_iff]
  constructor
  · rintro ⟨kind, ⟨h, -⟩ | ⟨⟨hnone, hconfirmed⟩, -⟩ | ⟨h, -⟩⟩
    · exact .reference h
    · unfold Confirms at hconfirmed
      cases hbalance : quantizeBalance m.txn.balance with
      | some incoming => exact .balance hnone hbalance (by simpa [hbalance] using hconfirmed)
      | none =>
        -- the slot of the message's own row is not open
        simp only [hbalance] at hconfirmed
        exact absurd (howns.symm.trans hconfirmed.2.2) (by simp)
    · exact .twelveHours h
  · intro h
    cases h with
    | reference h => exact ⟨_, .inl ⟨h, rfl⟩⟩
    | balance hnone hstated hfound =>
      refine ⟨_, .inr (.inl ⟨⟨hnone, ?_⟩, rfl⟩)⟩
      unfold Confirms
      simpa [hstated] using hfound
    | twelveHours h => exact ⟨_, .inr (.inr ⟨h, rfl⟩)⟩

omit [UnicodeTables] in
theorem sourceIdOf_call (forceNew : Bool) : sourceIdOf m.channel (m.call forceNew).smsMessageId
    (m.call forceNew).emailId = some m.source := by
  unfold sourceIdOf Message.call
  cases m.channel <;> rfl

def openRow (t : TxnTable) (m : Message) : Except MergeError (TxnTable × MergeResult) :=
  insertNew t m.channel m.txn (m.call false).smsMessageId (m.call false).emailId

theorem ingest_eq : ingest t m =
    match findMatch t.rows m.txn m.channel (some m.source) with
    | .matched row kind => applyTransactionEnrichment t row m.txn m.channel (some m.source) kind
    | .deferred _ reason ids => .ok (t, .deferred reason ids)
    | .insert => openRow t m := by
  have hcall : mergeCall t (m.call false) = mergeTransaction t m.channel m.txn
      (m.call false).smsMessageId (m.call false).emailId false := by
    unfold mergeCall Message.call
    cases m.channel <;> rfl
  unfold ingest
  rw [hcall]
  unfold mergeTransaction openRow
  rw [sourceIdOf_call]
  cases h : findMatch t.rows m.txn m.channel (some m.source) with
  | matched row kind => simp [h]
  | deferred kind reason ids => simp [h]
  | insert =>
    -- the second look finds the same table
    cases insertNew t m.channel m.txn (m.call false).smsMessageId (m.call false).emailId <;>
      simp [h]

omit [UnicodeTables] in
theorem owner_of_harmless {t' : TxnTable} (h : Harmless t m (.ok (t', .enriched row))) :
    ∃ o ∈ t.rows, o.id = row.id ∧ Owns m o := by
  cases h with
  | merged hmem hsame howns => exact ⟨_, hmem, hsame, howns⟩

theorem harmless_enriched {t' : TxnTable} (hrow : row ∈ t.rows)
    (hupdate : t.updateRow (enrichedRow row m kind) = .ok t') :
    Harmless t m (.ok (t', .enriched (enrichedRow row m kind))) ↔ Owns m row := by
  constructor
  · intro h
    obtain ⟨o, hmem, hsame, howns⟩ := owner_of_harmless h
    rw [id_enrichedRow] at hsame
    rwa [TxnTable.eq_of_id hmem hrow hsame] at howns
  · intro howns
    unfold TxnTable.updateRow at hupdate
    split_ifs at hupdate with hindex
    obtain rfl := Except.ok.inj hupdate
    exact .merged hrow id_enrichedRow.symm howns (TxnTable.ids_replaceRow _ _)
      fun r hr hne => TxnTable.mem_replaceRow hr hne

/-- The enrichment of a matched row is harmless if the row is the message's own
and stays within the index. -/
theorem harmless_enrichment_iff (hrow : row ∈ t.rows) :
    Harmless t m (applyTransactionEnrichment t row m.txn m.channel (some m.source) kind) ↔
      Owns m row ∧ KeepsIndex t m row := by
  rw [applyTransactionEnrichment_of_mem hrow]
  by_cases hindex : KeepsIndex t m row
  · have hok : ∃ t', t.updateRow (enrichedRow row m kind) = .ok t' := by
      refine ⟨_, dif_pos fun r hr hne => ?_⟩
      rw [clash_enrichedRow]
      exact hindex r hr (by simpa using hne)
    obtain ⟨t', ht'⟩ := hok
    rw [ht']
    exact (harmless_enriched hrow ht').trans (iff_self_and.mpr fun _ => hindex)
  · have herror : t.updateRow (enrichedRow row m kind) = .error .integrityError := by
      refine dif_neg fun h => hindex fun r hr hne => ?_
      exact clash_enrichedRow.not.mp (h r hr (by simpa using hne))
    rw [herror]
    refine iff_of_false ?_ fun h => hindex h.2
    intro h
    cases h

omit [UnicodeTables] in
theorem not_harmless_openRow : ¬ Harmless t m (openRow t m) := by
  unfold openRow insertNew
  intro h
  cases hinsert : t.insertRow (newRow m.txn m.channel (m.call false).smsMessageId
    (m.call false).emailId) fun _ => rfl with
  | error e =>
    rw [hinsert] at h
    cases h
  | ok inserted =>
    rw [hinsert] at h
    cases h

/-- **When feeding a message back is harmless.** -/
theorem harmless_iff (t : TxnTable) (m : Message) :
    Harmless t m (ingest t m) ↔ Settles t m := by
  rw [ingest_eq]
  constructor
  · intro h
    cases hfind : findMatch t.rows m.txn m.channel (some m.source) with
    | insert =>
      rw [hfind] at h
      exact absurd h not_harmless_openRow
    | deferred kind reason ids => exact .putOff (findMatch_deferred_iff.mp ⟨_, _, _, hfind⟩)
    | matched row kind =>
      rw [hfind] at h
      have hrow := mem_of_findMatch hfind
      obtain ⟨howns, hkeeps⟩ := (harmless_enrichment_iff hrow).mp h
      exact .back howns ((exists_matched_iff howns).mp ⟨kind, hfind⟩) hkeeps
  · intro h
    cases h with
    | putOff hdefers =>
      obtain ⟨kind, reason, ids, hfind⟩ := findMatch_deferred_iff.mpr hdefers
      rw [hfind]
      exact .deferred
    | @back o howns hfound hkeeps =>
      obtain ⟨kind, hfind⟩ := (exists_matched_iff howns).mpr hfound
      rw [hfind]
      exact (harmless_enrichment_iff (mem_of_findMatch hfind)).mpr ⟨howns, hkeeps⟩

def feed : Transition.System TxnTable MergeCall := ⟨fun t c => some (afterCall t c)⟩

/-- A message is fed back where that settles it, or with `force_new`. -/
def Careful (t : TxnTable) (c : MergeCall) : Prop :=
  ∃ m forceNew, c = Message.call m forceNew ∧
    (forceNew = false → (∃ o ∈ t.rows, Owns m o) → Settles t m)

omit [UnicodeTables] in
theorem OneRow.of_mem (h : OneRow t) {r : Transaction} (hr : r ∈ t.rows) (hrow : row ∈ t.rows)
    (hne : r ≠ row) {channel : Channel} {source : Nat} (hslot : r.slot channel = some source) :
    row.slot channel ≠ some source := by
  have : Std.Symm fun a b : Transaction => ∀ channel source, a.slot channel = some source →
      b.slot channel ≠ some source := ⟨fun a b hab channel source hb ha => hab channel source ha hb⟩
  exact h.forall hr hrow hne channel source hslot

/-- An enrichment puts the message in the slot of its own row, or of the first. -/
theorem oneRow_updateRow {t' : TxnTable} (h : OneRow t) (hrow : row ∈ t.rows)
    (hown : (∃ o ∈ t.rows, Owns m o) → Owns m row)
    (hupdate : t.updateRow (enrichedRow row m kind) = .ok t') : OneRow t' := by
  unfold TxnTable.updateRow at hupdate
  split_ifs at hupdate with hindex
  obtain rfl := Except.ok.inj hupdate
  have hother : ∀ r ∈ t.rows, r.id ≠ (enrichedRow row m kind).id → ∀ channel source,
      r.slot channel = some source → (enrichedRow row m kind).slot channel ≠ some source := by
    intro r hr hid channel source hslot
    rw [id_enrichedRow] at hid
    have hne : r ≠ row := fun heq => hid (congrArg (·.id) heq)
    have hrowslot := h.of_mem hr hrow hne hslot
    rw [slot_enrichedRow]
    split_ifs with hchannel
    · cases hopen : row.slot channel with
      | some other => simpa [hopen] using hrowslot
      | none =>
        -- the row is open, so the message had no row at all
        intro hsource
        obtain rfl : m.source = source := by simpa using hsource
        subst hchannel
        have howns : Owns m row := hown ⟨r, hr, hslot⟩
        exact absurd (hopen.symm.trans howns) (by simp)
    · exact hrowslot
  exact TxnTable.pairwise_replaceRow h t.ids hother fun r hr hid channel source henriched hslot =>
    hother r hr hid channel source hslot henriched

omit [UnicodeTables] in
theorem slot_newRow (m : Message) (id : Nat) (channel : Channel) :
    (newRow m.txn m.channel (m.call false).smsMessageId (m.call false).emailId id).slot channel =
      if channel = m.channel then some m.source else none := by
  unfold newRow Message.call Transaction.slot
  cases m.channel <;> cases channel <;> rfl

omit [UnicodeTables] in
theorem oneRow_openRow {t' : TxnTable} {result : MergeResult} (h : OneRow t)
    (hfresh : ∀ o ∈ t.rows, ¬ Owns m o) (hopen : openRow t m = .ok (t', result)) : OneRow t' := by
  unfold openRow insertNew TxnTable.insertRow at hopen
  dsimp only at hopen
  split_ifs at hopen with hindex
  · obtain ⟨rfl, -⟩ := Prod.mk.inj (Except.ok.inj hopen)
    refine List.pairwise_append.mpr ⟨h, List.pairwise_singleton _ _, ?_⟩
    intro r hr s hs channel source hslot
    obtain rfl := List.mem_singleton.mp hs
    rw [slot_newRow]
    split_ifs with hchannel
    · intro hsource
      obtain rfl := Option.some.inj hsource
      subst hchannel
      exact hfresh r hr hslot
    · simp
  · cases hopen

omit [UnicodeTables] in
theorem existingForSource_eq_none (h : existingForSource t (m.call true).smsMessageId
    (m.call true).emailId = none) : ∀ o ∈ t.rows, ¬ Owns m o := by
  unfold existingForSource Message.call at h
  unfold Owns Transaction.slot
  cases hm : m.channel with
  | sms => simpa [hm] using h
  | email => simpa [hm] using h

theorem mergeCall_forceNew : mergeCall t (m.call true) =
    match existingForSource t (m.call true).smsMessageId (m.call true).emailId with
    | some row => .ok (t, .enriched row)
    | none => openRow t m := by
  unfold mergeCall mergeTransaction openRow Message.call
  cases m.channel <;> rfl

theorem oneRow_afterCall {c : MergeCall} (h : OneRow t) (hok : Careful t c) :
    OneRow (afterCall t c) := by
  obtain ⟨m, forceNew, rfl, hsettles⟩ := hok
  have hopened : (∀ o ∈ t.rows, ¬ Owns m o) → mergeCall t (m.call forceNew) = openRow t m →
      OneRow (afterCall t (m.call forceNew)) := by
    intro hfresh hcall
    unfold afterCall
    rw [hcall]
    cases hopen : openRow t m with
    | error e => exact h
    | ok opened => exact oneRow_openRow h hfresh hopen
  cases forceNew with
  | true =>
    cases hexisting : existingForSource t (m.call true).smsMessageId (m.call true).emailId with
    | some row =>
      unfold afterCall
      rw [mergeCall_forceNew, hexisting]
      exact h
    | none =>
      refine hopened (existingForSource_eq_none hexisting) ?_
      rw [mergeCall_forceNew, hexisting]
  | false =>
    have hharmless : (∃ o ∈ t.rows, Owns m o) → Harmless t m (ingest t m) := fun howned =>
      (harmless_iff t m).mpr (hsettles rfl howned)
    cases hfind : findMatch t.rows m.txn m.channel (some m.source) with
    | insert =>
      have hingest : ingest t m = openRow t m := by rw [ingest_eq, hfind]
      rw [hingest] at hharmless
      exact hopened (fun o ho howns => not_harmless_openRow (hharmless ⟨o, ho, howns⟩)) hingest
    | deferred kind reason ids =>
      have hingest : ingest t m = .ok (t, .deferred reason ids) := by rw [ingest_eq, hfind]
      show OneRow (match ingest t m with | .ok (t', _) => t' | .error _ => t)
      rw [hingest]
      exact h
    | matched row kind =>
      have hrow := mem_of_findMatch hfind
      have hingest : ingest t m = applyTransactionEnrichment t row m.txn m.channel
          (some m.source) kind := by
        rw [ingest_eq, hfind]
      rw [hingest] at hharmless
      have hown : (∃ o ∈ t.rows, Owns m o) → Owns m row := fun howned =>
        ((harmless_enrichment_iff hrow).mp (hharmless howned)).1
      show OneRow (match ingest t m with | .ok (t', _) => t' | .error _ => t)
      rw [hingest, applyTransactionEnrichment_of_mem hrow]
      cases hupdate : t.updateRow (enrichedRow row m kind) with
      | error e => exact h
      | ok t' => exact oneRow_updateRow h hrow hown hupdate

/-- **One row for a message**: where messages are fed back only when that settles
them, no message comes to be in two rows. -/
theorem oneRow_of_run (h : feed.Run Careful .empty t) : OneRow t := by
  refine h.invariant (fun s c s' hs hok hstep => ?_) List.Pairwise.nil
  obtain rfl := Option.some.inj hstep
  exact oneRow_afterCall hs hok

end FinancialDashboard.Transactions
