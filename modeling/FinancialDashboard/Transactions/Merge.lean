import FinancialDashboard.Transactions.Matching
import Mathlib.Data.List.Pairwise

/-!
# Merging a message into the table

`merge_transaction` of `services/txn_merge.py`: match the message, then insert a
row, enrich the matched one, or defer.  The table is a `TxnTable`, which carries
what the schema keeps: ids are unique, and so is a non-NULL reference within a bank
and direction (`uq_transactions_ref`).  An insert or an update that would break
the index is the `IntegrityError` of the source.

The self-transfer rule that follows an insert or an update writes categorization
columns only, and is left out with them.

* `insertRow`, `updateRow`: the two writes, which keep the table a table.
* `computeEnrichmentDiff`: what a second source fills in or overwrites.
* `mem_updateRow`: an update leaves the other rows as they were.
-/

namespace FinancialDashboard.Transactions

open PyTime PyText

/-! ### The table -/

/-- Both rows would be one entry of `uq_transactions_ref`. -/
def Clash (a b : Transaction) : Prop :=
  a.bank = b.bank ∧ a.direction = b.direction ∧ a.referenceNumber = b.referenceNumber ∧
    b.referenceNumber ≠ none

instance (a b : Transaction) : Decidable (Clash a b) := inferInstanceAs (Decidable (_ ∧ _ ∧ _ ∧ _))

theorem Clash.symm {a b : Transaction} (h : Clash a b) : Clash b a :=
  ⟨h.1.symm, h.2.1.symm, h.2.2.1.symm, by rw [h.2.2.1]; exact h.2.2.2⟩

/-- The rows of `transactions`. -/
structure TxnTable where
  rows : List Transaction
  ids : rows.Pairwise fun a b => a.id ≠ b.id
  references : rows.Pairwise fun a b => ¬ Clash a b

inductive MergeError
  /-- `uq_transactions_ref` forbids the row. -/
  | integrityError
  deriving DecidableEq, Repr

namespace TxnTable

def empty : TxnTable := ⟨[], .nil, .nil⟩

def nextId (rows : List Transaction) : Nat := rows.foldr (fun r n => max r.id n) 0 + 1

theorem id_lt_nextId {rows : List Transaction} {r : Transaction} (h : r ∈ rows) :
    r.id < nextId rows := by
  induction rows with
  | nil => cases h
  | cons a rows ih =>
    unfold nextId at ih ⊢
    rw [List.foldr_cons]
    rcases List.mem_cons.mp h with rfl | h
    · omega
    · have hlt := ih h
      omega

/-- `session.add(row)` and the flush; the row gets the next id. -/
def insertRow (t : TxnTable) (row : Nat → Transaction) (hid : ∀ n, (row n).id = n) :
    Except MergeError (TxnTable × Transaction) :=
  let new := row (nextId t.rows)
  if h : ∀ r ∈ t.rows, ¬ Clash r new then
    .ok (⟨t.rows ++ [new],
      List.pairwise_append.mpr ⟨t.ids, List.pairwise_singleton _ _, by
        intro r hr s hs
        obtain rfl : s = new := by simpa using hs
        have hlt := id_lt_nextId hr
        have hnew : new.id = nextId t.rows := hid _
        omega⟩,
      List.pairwise_append.mpr ⟨t.references, List.pairwise_singleton _ _, by
        intro r hr s hs
        obtain rfl : s = new := by simpa using hs
        exact h r hr⟩⟩, new)
  else .error .integrityError

/-- Write `row` over the row with its id. -/
def replaceRow (rows : List Transaction) (row : Transaction) : List Transaction :=
  rows.map fun r => if r.id = row.id then row else r

theorem pairwise_replaceRow {rows : List Transaction} {row : Transaction}
    {R : Transaction → Transaction → Prop} (h : rows.Pairwise R)
    (hids : rows.Pairwise fun a b => a.id ≠ b.id)
    (hleft : ∀ r ∈ rows, r.id ≠ row.id → R r row) (hright : ∀ r ∈ rows, r.id ≠ row.id → R row r) :
    (replaceRow rows row).Pairwise R := by
  unfold replaceRow
  rw [List.pairwise_map]
  refine (h.and hids).imp_of_mem ?_
  rintro a b ha hb ⟨hab, hne⟩
  by_cases ha' : a.id = row.id
  · have hb' : b.id ≠ row.id := fun hb' => hne (ha'.trans hb'.symm)
    rw [if_pos ha', if_neg hb']
    exact hright b hb hb'
  · rw [if_neg ha']
    by_cases hb' : b.id = row.id
    · rw [if_pos hb']
      exact hleft a ha ha'
    · rw [if_neg hb']
      exact hab

/-- The flush of a changed row. -/
def updateRow (t : TxnTable) (row : Transaction) : Except MergeError TxnTable :=
  if h : ∀ r ∈ t.rows, r.id ≠ row.id → ¬ Clash r row then
    .ok ⟨replaceRow t.rows row,
      pairwise_replaceRow t.ids t.ids (fun _ _ hne => hne) (fun _ _ hne => hne.symm),
      pairwise_replaceRow t.references t.ids h fun r hr hne hclash => h r hr hne hclash.symm⟩
  else .error .integrityError

/-- **An update leaves the other rows as they were.** -/
theorem mem_replaceRow {rows : List Transaction} {row r : Transaction} (hr : r ∈ rows)
    (hne : r.id ≠ row.id) : r ∈ replaceRow rows row :=
  List.mem_map.mpr ⟨r, hr, if_neg hne⟩

theorem rows_of_updateRow {t t' : TxnTable} {row : Transaction} (h : t.updateRow row = .ok t') :
    t'.rows = replaceRow t.rows row := by
  unfold updateRow at h
  split_ifs at h
  cases h
  rfl

theorem not_clash_of_updateRow {t t' : TxnTable} {row : Transaction}
    (h : t.updateRow row = .ok t') : ∀ r ∈ t.rows, r.id ≠ row.id → ¬ Clash r row := by
  unfold updateRow at h
  split_ifs at h with hindex
  exact hindex

theorem updateRow_of_not_clash {t : TxnTable} {row : Transaction}
    (h : ∀ r ∈ t.rows, r.id ≠ row.id → ¬ Clash r row) : ∃ t', t.updateRow row = .ok t' := by
  unfold updateRow
  rw [dif_pos h]
  exact ⟨_, rfl⟩

/-- Two rows of a table are not one entry of the index. -/
theorem not_clash_of_ne {t : TxnTable} {r s : Transaction} (hr : r ∈ t.rows) (hs : s ∈ t.rows)
    (hne : r ≠ s) : ¬ Clash r s := by
  have : Std.Symm fun a b : Transaction => ¬ Clash a b := ⟨fun _ _ h hclash => h hclash.symm⟩
  exact t.references.forall hr hs hne

theorem ids_replaceRow (rows : List Transaction) (row : Transaction) :
    (replaceRow rows row).map (·.id) = rows.map (·.id) := by
  unfold replaceRow
  rw [List.map_map]
  refine List.map_congr_left fun r _ => ?_
  by_cases h : r.id = row.id
  · simp [h]
  · simp [h]

end TxnTable

/-! ### Enrichment -/

/-- What becomes of one field: `filled` and `overwritten` of the diff, by field. -/
inductive FieldChange (α : Type)
  | keep
  | fill (new : α)
  | overwrite (old new : α)
  deriving DecidableEq, Repr

namespace FieldChange

variable {α : Type}

def apply : FieldChange α → Option α → Option α
  | keep, old => old
  | fill new, _ | overwrite _ new, _ => some new

def isChange : FieldChange α → Bool
  | keep => false
  | _ => true

/-- The conflict rule: an absent value is filled, an absent incoming one changes
nothing, and two that differ are overwritten where `overwrites` says so. -/
def of [DecidableEq α] (old new : Option α) (overwrites : α → α → Bool) : FieldChange α :=
  match new, old with
  | none, _ => keep
  | some new, none => fill new
  | some new, some old =>
    if old = new then keep else if overwrites old new then overwrite old new else keep

end FieldChange

structure EnrichmentDiff where
  transactionDate : FieldChange Int
  transactionTime : FieldChange TimeOfDay
  counterparty : FieldChange String
  cardMask : FieldChange String
  accountMask : FieldChange String
  referenceNumber : FieldChange String
  channel : FieldChange String
  balance : FieldChange Rat
  rawDescription : FieldChange String
  deriving DecidableEq

/-- The incoming point in time is strictly earlier; without a date on either side,
the time of day. -/
def incomingTimeIsEarlier (existing : Transaction) (incoming : TxnData)
    (oldTime newTime : TimeOfDay) : Bool :=
  match existing.transactionDate, incoming.transactionDate <|> existing.transactionDate with
  | some existingDate, some incomingDate =>
    combine incomingDate newTime < combine existingDate oldTime
  | _, _ => newTime.micros < oldTime.micros

variable [UnicodeTables]

def isCounterpartyDowngrade (old new : String) : Bool :=
  let oldNorm := normalizeCounterparty (some old)
  let newNorm := normalizeCounterparty (some new)
  newNorm ≠ "" && contains newNorm oldNorm && newNorm ≠ oldNorm

omit [UnicodeTables] in
def isMaskDowngrade (old new : String) : Bool :=
  let oldDigits := maskDigits (some old)
  let newDigits := maskDigits (some new)
  newDigits.length < oldDigits.length && endsWith oldDigits newDigits

/-- The substring check is case-sensitive here. -/
def isDescriptionDowngrade (old new : String) : Bool :=
  let oldStripped := strip old
  let newStripped := strip new
  newStripped ≠ "" && contains newStripped oldStripped && newStripped ≠ oldStripped

omit [UnicodeTables] in
/-- Two formats of the same digits are no change. -/
def maskOverwrites (old new : String) : Bool :=
  maskDigits (some old) ≠ maskDigits (some new) && !isMaskDowngrade old new

/-- An SMS fills and never overwrites; an email overwrites, but not with a later
date or time, nor with less information. -/
def computeEnrichmentDiff (existing : Transaction) (incoming : TxnData) (channel : Channel) :
    EnrichmentDiff :=
  let email := channel = .email
  { transactionDate := .of existing.transactionDate incoming.transactionDate
      fun old new => email && !(old < new)
    transactionTime := .of existing.transactionTime incoming.transactionTime
      fun old new => email && incomingTimeIsEarlier existing incoming old new
    counterparty := .of existing.counterparty incoming.counterparty
      fun old new => email && !isCounterpartyDowngrade old new
    cardMask := .of existing.cardMask incoming.cardMask
      fun old new => email && maskOverwrites old new
    accountMask := .of existing.accountMask incoming.accountMask
      fun old new => email && maskOverwrites old new
    referenceNumber := .of existing.referenceNumber incoming.referenceNumber fun _ _ => email
    channel := .of existing.channel incoming.channel fun _ _ => email
    balance := .of existing.balance incoming.balance fun _ _ => email
    rawDescription := .of existing.rawDescription incoming.rawDescription
      fun old new => email && !isDescriptionDowngrade old new }

/-- An alias match also corrects the time. -/
def computeAppliedEnrichmentDiff (existing : Transaction) (incoming : TxnData) (channel : Channel)
    (kind : MatchKind) : EnrichmentDiff :=
  let diff := computeEnrichmentDiff existing incoming channel
  match kind, incoming.transactionTime, existing.transactionTime with
  | .amPmAlias, some new, some old =>
    if old ≠ new then { diff with transactionTime := .overwrite old new } else diff
  | _, _, _ => diff

omit [UnicodeTables] in
/-- The row after the diff; the flag follows the time it describes. -/
def applyDiff (existing : Transaction) (incoming : TxnData) (channel : Channel)
    (diff : EnrichmentDiff) : Transaction :=
  { existing with
    transactionDate := diff.transactionDate.apply existing.transactionDate
    transactionTime := diff.transactionTime.apply existing.transactionTime
    counterparty := diff.counterparty.apply existing.counterparty
    cardMask := diff.cardMask.apply existing.cardMask
    accountMask := diff.accountMask.apply existing.accountMask
    referenceNumber := diff.referenceNumber.apply existing.referenceNumber
    channel := diff.channel.apply existing.channel
    balance := diff.balance.apply existing.balance
    rawDescription := diff.rawDescription.apply existing.rawDescription
    transactionTimeIsReceivedTime :=
      if diff.transactionTime.isChange then incoming.transactionTimeIsReceivedTime
      else existing.transactionTimeIsReceivedTime
    source :=
      if existing.source ≠ none ∧ existing.source ≠ some channel.value then some "sms+email"
      else existing.source }

omit [UnicodeTables] in
def setSlot (row : Transaction) (channel : Channel) (sourceId : Nat) : Transaction :=
  match channel with
  | .sms => { row with smsMessageId := some sourceId }
  | .email => { row with emailId := some sourceId }

omit [UnicodeTables] in
/-- `claim_transaction_source_slot`: a filled slot stays as it is; an open one is
claimed where the stored row still has it open. -/
def claimTransactionSourceSlot (t : TxnTable) (row : Transaction) (channel : Channel)
    (sourceId : Option Nat) : Option Transaction :=
  match sourceId with
  | none => some row
  | some source =>
    if (row.slot channel).isSome then some row
    else if t.rows.any fun r => r.id = row.id &&
        ((r.slot channel).isNone || r.slot channel = some source) then
      some (setSlot row channel source)
    else none

/-! ### The merge -/

inductive MergeResult
  | created (row : Transaction)
  | enriched (row : Transaction)
  | deferred (reason : DeferralReason) (resolutionCandidateIds : List Nat)
  deriving DecidableEq

/-- `apply_transaction_enrichment`, and its `TransactionSlotConflict` as a deferral. -/
def applyTransactionEnrichment (t : TxnTable) (row : Transaction) (txn : TxnData)
    (channel : Channel) (sourceId : Option Nat) (kind : MatchKind) :
    Except MergeError (TxnTable × MergeResult) :=
  match claimTransactionSourceSlot t row channel sourceId with
  | none => .ok (t, .deferred .sourceSlotConflict [row.id])
  | some claimed => do
    let enriched :=
      applyDiff claimed txn channel (computeAppliedEnrichmentDiff claimed txn channel kind)
    let t' ← t.updateRow enriched
    return (t', .enriched enriched)

omit [UnicodeTables] in
def newRow (txn : TxnData) (channel : Channel) (smsMessageId emailId : Option Nat) (id : Nat) :
    Transaction :=
  { txn with id, smsMessageId, emailId, source := some channel.value }

omit [UnicodeTables] in
/-- The row a source message already has. -/
def existingForSource (t : TxnTable) (smsMessageId emailId : Option Nat) : Option Transaction :=
  (smsMessageId.bind fun source => t.rows.find? (·.smsMessageId = some source)) <|>
    emailId.bind fun source => t.rows.find? (·.emailId = some source)

omit [UnicodeTables] in
def insertNew (t : TxnTable) (channel : Channel) (txn : TxnData)
    (smsMessageId emailId : Option Nat) : Except MergeError (TxnTable × MergeResult) := do
  let (t', row) ← t.insertRow (newRow txn channel smsMessageId emailId) fun _ => rfl
  return (t', .created row)

omit [UnicodeTables] in
def sourceIdOf (channel : Channel) (smsMessageId emailId : Option Nat) : Option Nat :=
  match channel with
  | .sms => smsMessageId
  | .email => emailId

def mergeTransaction (t : TxnTable) (channel : Channel) (txn : TxnData)
    (smsMessageId emailId : Option Nat) (forceNew : Bool) :
    Except MergeError (TxnTable × MergeResult) :=
  let sourceId := sourceIdOf channel smsMessageId emailId
  if forceNew then
    match existingForSource t smsMessageId emailId with
    | some row => .ok (t, .enriched row)
    | none => insertNew t channel txn smsMessageId emailId
  else
    match findMatch t.rows txn channel sourceId with
    | .matched row kind => applyTransactionEnrichment t row txn channel sourceId kind
    | .deferred _ reason ids => .ok (t, .deferred reason ids)
    | .insert =>
      match insertNew t channel txn smsMessageId emailId with
      | .ok inserted => .ok inserted
      | .error e =>
        -- the insert was rolled back; only a match on the second look saves the message
        match findMatch t.rows txn channel sourceId with
        | .matched row kind => applyTransactionEnrichment t row txn channel sourceId kind
        | _ => .error e

end FinancialDashboard.Transactions
