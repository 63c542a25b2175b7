import FinancialDashboard.Transactions.SmsPipeline
import Mathlib.Data.List.Find

/-!
# The link of a message and the slot of its row

A merge leaves two marks: the message's `transaction_id` names the row, and the row's
SMS slot names a message.  `force_new` looks only at the slot: `ownRow` is the row it
finds.  From an empty store every row has its slot filled, so no row is merged a
second time as an open one; but a message merged into another message's row is
linked to a row that does not name it, and the Parse button makes a second row.

* `slotsFilled_of_run`: every row names a message.
* `linksHold_iff`: the links hold up when each names the message's own row.
* `owned_step_iff`: which requests leave them so.
* `linksHold_of_run`: they hold up in every run of such requests.
-/

namespace FinancialDashboard.Transactions

open PyTime PyText Transition

variable {t t' : TxnTable} {row r : Transaction} {m x : Nat} {txn : TxnData}

/-- The first row with the message in its SMS slot. -/
def ownRow (t : TxnTable) (m : Nat) : Option Nat := (existingForSource t (some m) none).map (·.id)

theorem ownRow_eq (t : TxnTable) (m : Nat) :
    ownRow t m = (t.rows.find? (·.smsMessageId = some m)).map (·.id) := by
  unfold ownRow existingForSource
  simp

/-! ### What a write does to the slots -/

theorem mem_rows_of_updateRow (h : t.updateRow row = .ok t') (hr : r ∈ t'.rows) :
    r = row ∨ r ∈ t.rows := by
  rw [TxnTable.rows_of_updateRow h] at hr
  obtain ⟨s, hs, rfl⟩ := List.mem_map.mp hr
  split_ifs
  · exact .inl rfl
  · exact .inr hs

/-- **An update that keeps a row's slot moves no message.** -/
theorem ownRow_of_updateRow (h : t.updateRow row = .ok t') (hr : r ∈ t.rows) (hid : row.id = r.id)
    (hslot : row.smsMessageId = r.smsMessageId) (m : Nat) : ownRow t' m = ownRow t m := by
  rw [ownRow_eq, ownRow_eq, TxnTable.rows_of_updateRow h]
  unfold TxnTable.replaceRow
  rw [List.find?_map, Option.map_map]
  have hpred : ∀ s ∈ t.rows,
      decide ((if s.id = row.id then row else s).smsMessageId = some m) =
        decide (s.smsMessageId = some m) := by
    intro s hs
    by_cases heq : s.id = row.id
    · obtain rfl := TxnTable.eq_of_id hs hr (heq.trans hid)
      rw [if_pos heq, hslot]
    · rw [if_neg heq]
  have hfind : t.rows.find? ((fun s => decide (s.smsMessageId = some m)) ∘ fun s =>
      if s.id = row.id then row else s) = t.rows.find? fun s => decide (s.smsMessageId = some m) :=
    List.find?_congr hpred
  rw [hfind]
  refine Option.map_congr fun s _ => ?_
  by_cases heq : s.id = row.id
  · simp [heq]
  · simp [heq]

theorem rows_of_insertNew {result : MergeResult}
    (h : insertNew t .sms txn (some m) none = .ok (t', result)) :
    t'.rows = t.rows ++ [newRow txn .sms (some m) none (TxnTable.nextId t.rows)] ∧
      result = .created (newRow txn .sms (some m) none (TxnTable.nextId t.rows)) := by
  unfold insertNew TxnTable.insertRow at h
  dsimp only at h
  split_ifs at h
  · obtain ⟨rfl, rfl⟩ := Prod.mk.inj (Except.ok.inj h)
    exact ⟨rfl, rfl⟩
  · cases h

theorem ownRow_of_insertNew {result : MergeResult}
    (h : insertNew t .sms txn (some m) none = .ok (t', result)) (k : Nat) :
    ownRow t' k =
      (ownRow t k <|> if k = m then some (TxnTable.nextId t.rows) else none) := by
  rw [ownRow_eq, ownRow_eq, (rows_of_insertNew h).1, List.find?_append]
  cases hfind : t.rows.find? (·.smsMessageId = some k) with
  | some s => simp
  | none =>
    by_cases hk : k = m
    · subst hk
      simp [newRow]
    · simp [newRow, hk, Ne.symm hk]

theorem lt_of_ownRow (h : ownRow t m = some x) : x < TxnTable.nextId t.rows := by
  rw [ownRow_eq] at h
  obtain ⟨s, hs, rfl⟩ := Option.map_eq_some_iff.mp h
  exact TxnTable.id_lt_nextId (List.mem_of_find?_eq_some hs)

/-! ### The merge where every slot is filled -/

/-- Every row names a message. -/
def SlotsFilled (t : TxnTable) : Prop := ∀ r ∈ t.rows, r.smsMessageId ≠ none

/-- What a merge of an SMS can do, where every slot is filled. -/
inductive SmsMerged (t : TxnTable) (m : Nat) (decision : MatchDecision) (forceNew : Bool) :
    TxnTable → MergeResult → Prop
  /-- The Parse button finds a row. -/
  | found {row : Transaction} (force : forceNew = true)
      (existing : existingForSource t (some m) none = some row) :
      SmsMerged t m decision forceNew t (.enriched row)
  | inserted {t' : TxnTable} {txn : TxnData} {result : MergeResult}
      (insert : insertNew t .sms txn (some m) none = .ok (t', result))
      (free : forceNew = true → existingForSource t (some m) none = none)
      (decided : forceNew = false → decision = .insert) :
      SmsMerged t m decision forceNew t' result
  | enriched {t' : TxnTable} {row e : Transaction} {kind : MatchKind} (live : forceNew = false)
      (decided : decision = .matched row kind) (mem : row ∈ t.rows) (same : e.id = row.id)
      (slot : e.smsMessageId = row.smsMessageId) (update : t.updateRow e = .ok t') :
      SmsMerged t m decision forceNew t' (.enriched e)
  | deferred {kind : Option MatchKind} {reason : DeferralReason} {ids : List Nat}
      (live : forceNew = false) (decided : decision = .deferred kind reason ids) :
      SmsMerged t m decision forceNew t (.deferred reason ids)

/-- **No merge moves a message out of a row.** -/
theorem SmsMerged.ownRow {decision : MatchDecision} {forceNew : Bool} {result : MergeResult}
    (h : SmsMerged t m decision forceNew t' result) {k : Nat} (hk : ownRow t k = some x) :
    ownRow t' k = some x := by
  cases h with
  | found => exact hk
  | inserted insert => rw [ownRow_of_insertNew insert, hk]; rfl
  | enriched _ _ mem same slot update => rw [ownRow_of_updateRow update mem same slot, hk]
  | deferred => exact hk

theorem SmsMerged.slotsFilled {decision : MatchDecision} {forceNew : Bool} {result : MergeResult}
    (h : SmsMerged t m decision forceNew t' result) (hfilled : SlotsFilled t) : SlotsFilled t' := by
  cases h with
  | found => exact hfilled
  | inserted insert =>
    intro r hr
    rw [(rows_of_insertNew insert).1, List.mem_append, List.mem_singleton] at hr
    rcases hr with hr | rfl
    · exact hfilled r hr
    · exact Option.some_ne_none _
  | enriched _ _ mem same slot update =>
    intro r hr
    rcases mem_rows_of_updateRow update hr with rfl | hr
    · rw [slot]
      exact hfilled _ mem
    · exact hfilled r hr
  | deferred => exact hfilled

variable [UnicodeTables]

/-- Where a row's slot is filled, the enrichment changes no slot. -/
theorem enrichment_cases {source : Option Nat} {kind : MatchKind} {result : MergeResult}
    (hfilled : r.smsMessageId ≠ none)
    (h : applyTransactionEnrichment t r txn .sms source kind = .ok (t', result)) :
    ∃ e, result = .enriched e ∧ e.id = r.id ∧ e.smsMessageId = r.smsMessageId ∧
      t.updateRow e = .ok t' := by
  have hclaim : claimTransactionSourceSlot t r .sms source = some r := by
    unfold claimTransactionSourceSlot
    cases source with
    | none => rfl
    | some s =>
      have hsome : (r.slot .sms).isSome := Option.isSome_iff_ne_none.mpr hfilled
      simp only [hsome, if_true]
  unfold applyTransactionEnrichment at h
  rw [hclaim] at h
  dsimp only at h
  cases hupdate : t.updateRow
      (applyDiff r txn .sms (computeAppliedEnrichmentDiff r txn .sms kind)) with
  | error e =>
    rw [hupdate] at h
    cases h
  | ok t₁ =>
    rw [hupdate] at h
    obtain ⟨rfl, rfl⟩ := Prod.mk.inj (Except.ok.inj h)
    exact ⟨_, rfl, rfl, rfl, hupdate⟩

theorem smsMerged_of_mergeTransaction {forceNew : Bool} {result : MergeResult}
    (hfilled : SlotsFilled t)
    (h : mergeTransaction t .sms txn (some m) none forceNew = .ok (t', result)) :
    SmsMerged t m (findMatch t.rows txn .sms (some m)) forceNew t' result := by
  have hcall : ∀ f, mergeTransaction t .sms txn (some m) none f =
      mergeCall t ((⟨.sms, m, txn⟩ : Message).call f) := fun _ => rfl
  rw [hcall] at h
  cases forceNew with
  | true =>
    rw [mergeCall_forceNew] at h
    have hids : ((⟨.sms, m, txn⟩ : Message).call true).smsMessageId = some m ∧
        ((⟨.sms, m, txn⟩ : Message).call true).emailId = none := ⟨rfl, rfl⟩
    rw [hids.1, hids.2] at h
    cases hexisting : existingForSource t (some m) none with
    | some row =>
      rw [hexisting] at h
      obtain ⟨rfl, rfl⟩ := Prod.mk.inj (Except.ok.inj h)
      exact .found rfl hexisting
    | none =>
      rw [hexisting] at h
      exact .inserted (h : insertNew t .sms txn (some m) none = _) (fun _ => hexisting) nofun
  | false =>
    have hingest : mergeCall t ((⟨.sms, m, txn⟩ : Message).call false) = ingest t ⟨.sms, m, txn⟩ := rfl
    rw [hingest, ingest_eq] at h
    dsimp only at h
    cases hfind : findMatch t.rows txn .sms (some m) with
    | insert =>
      rw [hfind] at h
      exact .inserted (h : insertNew t .sms txn (some m) none = _) nofun fun _ => rfl
    | matched row kind =>
      rw [hfind] at h
      have hrow := mem_of_findMatch hfind
      obtain ⟨e, rfl, hid, hslot, hupdate⟩ := enrichment_cases (hfilled row hrow) h
      exact .enriched rfl rfl hrow hid hslot hupdate
    | deferred kind reason ids =>
      rw [hfind] at h
      obtain ⟨rfl, rfl⟩ := Prod.mk.inj (Except.ok.inj h)
      exact .deferred rfl rfl

/-! ### What a request does to its message -/

variable (parseSms : SmsPayload → SmsParse)

/-- What the message brings to the merge, where it gets that far. -/
def mergeData (s : SmsRow) : Option TxnData :=
  match parseSms s.toSmsPayload with
  | .parsed parsed =>
    (parsedSmsToTxnData parsed s.receivedAt).filter fun txn =>
      !notifyOnly parsed.ledgerRole txn.direction false && txn.direction ≠ declinedDirection &&
        parsed.ledgerRole ≠ .completion
  | _ => none

/-- The message completes a row of another. -/
def isCompletion (s : SmsRow) : Bool :=
  match parseSms s.toSmsPayload with
  | .parsed parsed => parsed.ledgerRole = .completion
  | _ => false

variable {parseSms} {s s' : SmsRow} {outcome : ProcessSmsOutcome} {forceNew : Bool}

/-- **A message that brings something to the merge gets there**, settled or not. -/
theorem processSms_of_mergeData (settleProvisional : Bool) (h : mergeData parseSms s = some txn) :
    processSms parseSms t s forceNew settleProvisional =
      mergeSms t { s with parseError := none } txn forceNew := by
  unfold mergeData at h
  unfold processSms
  cases hparse : parseSms s.toSmsPayload with
  | unsupported message => simp [hparse] at h
  | failed message => simp [hparse] at h
  | parsed parsed =>
    simp only [hparse, Option.filter_eq_some_iff, Bool.and_eq_true, Bool.not_eq_true',
      decide_eq_true_eq] at h
    obtain ⟨hdata, ⟨hnotify, hdeclined⟩, hrole⟩ := h
    have hgate : notifyOnly parsed.ledgerRole txn.direction settleProvisional = false := by
      -- the flag only lifts the gate
      have hboth : (parsed.ledgerRole ∈ notifyOnlyRoles && txn.direction = "credit") = false := by
        simpa [notifyOnly] using hnotify
      unfold notifyOnly
      rw [Bool.and_assoc, hboth, Bool.and_false]
    simp only [hdata, hgate, if_neg hdeclined, if_neg hrole]
    simp

omit [UnicodeTables] in
theorem not_deferred_of_parseError (h : s.parseError = none) : isDuplicateDeferred s = false := by
  unfold isDuplicateDeferred
  rw [h]
  simp

omit [UnicodeTables] in
theorem not_deferred_of_unpaired (count : Nat) : isDuplicateDeferred { s with
    status := .skipped
    transactionId := none
    parseError := some (s!"completion leg: no unique primary row to complete (found {count})"
      ++ "; left unpaired") } = false := by
  unfold isDuplicateDeferred startsWith dupDeferPrefix
  simp [String.toList_append, toString]
  rfl

/-- What the row that a completion leg finds has in common with the leg. -/
theorem findCompletionPrimary_spec {rows : List Transaction} {primary : Transaction}
    (h : findCompletionPrimary rows txn = .ok primary) :
    primary ∈ rows ∧ completionQuery txn (txn.channel.getD "") primary = true := by
  unfold findCompletionPrimary at h
  dsimp only at h
  split_ifs at h
  split at h
  · rename_i c hc
    obtain rfl := Except.ok.inj h
    have hmem : c ∈ List.take (completionCoarseCap + 1)
        (rows.filter (completionQuery txn (txn.channel.getD ""))) :=
      (List.mem_filter.mp (hc ▸ List.mem_singleton_self c)).1
    exact List.mem_filter.mp (List.mem_of_mem_take hmem)
  · cases h

/-- What a completion leg leaves: its row keeps its slot. -/
theorem completeReference_cases
    (h : completeReference t s txn = .ok (t', s', outcome)) :
    s'.toSmsPayload = s.toSmsPayload ∧ s'.id = s.id ∧ isDuplicateDeferred s' = false ∧
      (t' = t ∨ ∃ r ∈ t.rows, ∃ e, e.id = r.id ∧ e.smsMessageId = r.smsMessageId ∧
        t.updateRow e = .ok t') := by
  unfold completeReference at h
  dsimp only at h
  split_ifs at h with hnothing
  · obtain ⟨rfl, rfl, rfl⟩ : t = t' ∧ _ = s' ∧ _ = outcome := by simpa using h
    have hnote : startsWith "completion leg: no reference or channel to complete"
        dupDeferPrefix = false := by decide +kernel
    exact ⟨rfl, rfl, by simp [isDuplicateDeferred, hnote], .inl rfl⟩
  · split at h
    · obtain ⟨rfl, rfl, rfl⟩ : t = t' ∧ _ = s' ∧ _ = outcome := by simpa using h
      exact ⟨rfl, rfl, not_deferred_of_parseError rfl, .inl rfl⟩
    · split at h
      · obtain ⟨rfl, rfl, rfl⟩ : t = t' ∧ _ = s' ∧ _ = outcome := by simpa using h
        exact ⟨rfl, rfl, not_deferred_of_unpaired _, .inl rfl⟩
      · rename_i primary hprimary
        cases hupdate : t.updateRow
            (completedRow primary txn (strippedReference txn.referenceNumber)) with
        | error e =>
          rw [hupdate] at h
          cases h
        | ok t₁ =>
          rw [hupdate] at h
          obtain ⟨rfl, rfl, rfl⟩ : t₁ = t' ∧ _ = s' ∧ _ = outcome := by
            simpa [pure, bind, Except.bind, Except.pure] using h
          exact ⟨rfl, rfl, not_deferred_of_parseError rfl,
            .inr ⟨primary, (findCompletionPrimary_spec hprimary).1, completedRow _ _ _, rfl, rfl,
              hupdate⟩⟩

/-- What processing a message can do. -/
inductive SmsProcessed (parseSms : SmsPayload → SmsParse) (t : TxnTable) (s : SmsRow)
    (forceNew : Bool) : TxnTable → SmsRow → ProcessSmsOutcome → Prop
  | merged {t' : TxnTable} {s' : SmsRow} {outcome : ProcessSmsOutcome} {txn : TxnData}
      (data : mergeData parseSms s = some txn)
      (merge : mergeSms t { s with parseError := none } txn forceNew = .ok (t', s', outcome)) :
      SmsProcessed parseSms t s forceNew t' s' outcome
  | completed {t' : TxnTable} {s' : SmsRow} {outcome : ProcessSmsOutcome} {txn : TxnData}
      (data : mergeData parseSms s = none) (leg : isCompletion parseSms s = true)
      (complete : completeReference t { s with parseError := none } txn = .ok (t', s', outcome)) :
      SmsProcessed parseSms t s forceNew t' s' outcome
  /-- The table and the link stay. -/
  | kept {s' : SmsRow} {outcome : ProcessSmsOutcome} (data : mergeData parseSms s = none)
      (payload : s'.toSmsPayload = s.toSmsPayload) (id : s'.id = s.id)
      (link : s'.transactionId = s.transactionId)
      (waits : isDuplicateDeferred s' = true → ∀ stored, parseStoredSms parseSms s ≠ .ok stored) :
      SmsProcessed parseSms t s forceNew t s' outcome

theorem smsProcessed_of_processSms
    (h : processSms parseSms t s forceNew false = .ok (t', s', outcome)) :
    SmsProcessed parseSms t s forceNew t' s' outcome := by
  cases hdata : mergeData parseSms s with
  | some txn =>
    rw [processSms_of_mergeData false hdata] at h
    exact .merged hdata h
  | none =>
    unfold processSms at h
    cases hparse : parseSms s.toSmsPayload with
    | unsupported message =>
      simp only [hparse] at h
      obtain ⟨rfl, rfl, rfl⟩ : t = t' ∧ _ = s' ∧ _ = outcome := by simpa using h
      exact .kept hdata rfl rfl rfl fun _ stored => by simp [parseStoredSms, hparse]
    | failed message =>
      simp only [hparse] at h
      obtain ⟨rfl, rfl, rfl⟩ : t = t' ∧ _ = s' ∧ _ = outcome := by simpa using h
      exact .kept hdata rfl rfl rfl fun _ stored => by simp [parseStoredSms, hparse]
    | parsed parsed =>
      simp only [hparse] at h
      cases htxn : parsedSmsToTxnData parsed s.receivedAt with
      | none =>
        simp only [htxn] at h
        obtain ⟨rfl, rfl, rfl⟩ : t = t' ∧ _ = s' ∧ _ = outcome := by simpa using h
        exact .kept hdata rfl rfl rfl fun _ stored => by simp [parseStoredSms, hparse, htxn]
      | some txn =>
        simp only [htxn] at h
        split_ifs at h with hnotify hdeclined hrole
        · obtain ⟨rfl, rfl, rfl⟩ : t = t' ∧ _ = s' ∧ _ = outcome := by simpa using h
          exact .kept hdata rfl rfl rfl fun hwaits => by
            simp [not_deferred_of_parseError] at hwaits
        · obtain ⟨rfl, rfl, rfl⟩ : t = t' ∧ _ = s' ∧ _ = outcome := by simpa using h
          exact .kept hdata rfl rfl rfl fun hwaits => by
            simp [not_deferred_of_parseError] at hwaits
        · exact .completed hdata (by simp [isCompletion, hparse, hrole]) h
        · exfalso
          simp [mergeData, hparse, htxn, hnotify, hdeclined, hrole] at hdata

/-- The row a merge links the message to. -/
def linkOf : MergeResult → Option Nat
  | .created row | .enriched row => some row.id
  | .deferred _ _ => none

/-- What a merge leaves on the message. -/
theorem mergeSms_cases (h : mergeSms t s txn forceNew = .ok (t', s', outcome)) :
    ∃ result, mergeTransaction t .sms txn (some s.id) none forceNew = .ok (t', result) ∧
      s'.toSmsPayload = s.toSmsPayload ∧ s'.id = s.id ∧ s'.transactionId = linkOf result ∧
      outcome.transactionId = linkOf result := by
  unfold mergeSms at h
  cases hmerge : mergeTransaction t .sms txn (some s.id) none forceNew with
  | error e =>
    rw [hmerge] at h
    cases h
  | ok merged =>
    rw [hmerge] at h
    obtain ⟨t₁, result⟩ := merged
    refine ⟨result, ?_⟩
    cases result with
    | deferred reason ids =>
      obtain ⟨rfl, rfl, rfl⟩ : t₁ = t' ∧ _ = s' ∧ _ = outcome := by
        simpa [pure, bind, Except.bind, Except.pure] using h
      exact ⟨rfl, rfl, rfl, rfl, rfl⟩
    | created row =>
      obtain ⟨rfl, rfl, rfl⟩ : t₁ = t' ∧ _ = s' ∧ _ = outcome := by
        simpa [pure, bind, Except.bind, Except.pure] using h
      exact ⟨rfl, rfl, rfl, rfl, rfl⟩
    | enriched row =>
      obtain ⟨rfl, rfl, rfl⟩ : t₁ = t' ∧ _ = s' ∧ _ = outcome := by
        simpa [pure, bind, Except.bind, Except.pure] using h
      exact ⟨rfl, rfl, rfl, rfl, rfl⟩

/-! ### What always holds of the store -/

/-- A link of a message that completes nothing is that of a merge, and so is a
decision it waits for. -/
structure Sane (parseSms : SmsPayload → SmsParse) (s : SmsRow) : Prop where
  linked : s.transactionId ≠ none → isCompletion parseSms s = false →
    (mergeData parseSms s).isSome
  waits : isDuplicateDeferred s = true → ∀ parsed txn,
    parseStoredSms parseSms s = .ok (parsed, txn) → mergeData parseSms s = some txn

structure Consistent (parseSms : SmsPayload → SmsParse) (w : SmsStore) : Prop where
  slots : SlotsFilled w.table
  sane : ∀ s ∈ w.sms, Sane parseSms s

/-- What a request may make of the table and its message. -/
structure Handled (parseSms : SmsPayload → SmsParse) (t : TxnTable) (s : SmsRow) (t' : TxnTable)
    (s' : SmsRow) : Prop where
  id : s'.id = s.id
  payload : s'.toSmsPayload = s.toSmsPayload
  slots : SlotsFilled t'
  sane : Sane parseSms s'
  own : ∀ k x, ownRow t k = some x → ownRow t' k = some x

omit [UnicodeTables] in
theorem mergeData_congr (h : s'.toSmsPayload = s.toSmsPayload) :
    mergeData parseSms s' = mergeData parseSms s := by
  unfold mergeData
  rw [h]

omit [UnicodeTables] in
theorem isCompletion_congr (h : s'.toSmsPayload = s.toSmsPayload) :
    isCompletion parseSms s' = isCompletion parseSms s := by
  unfold isCompletion
  rw [h]

omit [UnicodeTables] in
theorem parseStoredSms_congr (h : s'.toSmsPayload = s.toSmsPayload) :
    parseStoredSms parseSms s' = parseStoredSms parseSms s := by
  unfold parseStoredSms
  rw [h]

omit [UnicodeTables] in
theorem parseStoredSms_eq {parsed : ParsedSms} (h : parseStoredSms parseSms s = .ok (parsed, txn)) :
    parseSms s.toSmsPayload = .parsed parsed ∧
      parsedSmsToTxnData parsed s.receivedAt = some txn := by
  unfold parseStoredSms at h
  split at h
  · rename_i parsed₁ hparse
    split at h
    · rename_i txn₁ htxn
      obtain ⟨rfl, rfl⟩ := Prod.mk.inj (Except.ok.inj h)
      exact ⟨hparse, htxn⟩
    · cases h
  · cases h

omit [UnicodeTables] in
/-- A message that merges waits only for what it merges. -/
theorem sane_of_mergeData (h : mergeData parseSms s = some txn) : Sane parseSms s := by
  refine ⟨fun _ _ => by simp [h], fun _ parsed data hstored => ?_⟩
  obtain ⟨hparse, hdata⟩ := parseStoredSms_eq hstored
  unfold mergeData at h
  simp only [hparse, Option.filter_eq_some_iff] at h
  have hsame : data = txn := Option.some.inj (hdata.symm.trans h.1)
  unfold mergeData
  simp only [hparse, Option.filter_eq_some_iff]
  exact ⟨hdata, hsame ▸ h.2⟩

theorem handled_of_mergeSms (hslots : SlotsFilled t) (hdata : mergeData parseSms s = some txn)
    (h : mergeSms t { s with parseError := none } txn forceNew = .ok (t', s', outcome)) :
    Handled parseSms t s t' s' := by
  obtain ⟨result, hmerge, hpayload, hid, -, -⟩ := mergeSms_cases h
  have hmerged := smsMerged_of_mergeTransaction hslots hmerge
  exact ⟨hid, hpayload, hmerged.slotsFilled hslots,
    sane_of_mergeData ((mergeData_congr hpayload).trans hdata), fun _ _ => hmerged.ownRow⟩

theorem handled_of_processSms (hslots : SlotsFilled t) (hsane : Sane parseSms s)
    (h : processSms parseSms t s forceNew false = .ok (t', s', outcome)) :
    Handled parseSms t s t' s' := by
  cases smsProcessed_of_processSms h with
  | merged data merge => exact handled_of_mergeSms hslots data merge
  | completed data leg complete =>
    obtain ⟨hpayload, hid, hcalm, htable⟩ := completeReference_cases complete
    have hsane' : Sane parseSms s' := by
      refine ⟨fun _ hleg => ?_, fun hwaits => absurd (hcalm.symm.trans hwaits) (by simp)⟩
      rw [isCompletion_congr hpayload] at hleg
      exact absurd (leg.symm.trans hleg) (by simp)
    rcases htable with rfl | ⟨r, hr, e, hsame, hslot, hupdate⟩
    · exact ⟨hid, hpayload, hslots, hsane', fun _ _ => id⟩
    · refine ⟨hid, hpayload, fun r' hr' => ?_, hsane', fun k x hk => ?_⟩
      · rcases mem_rows_of_updateRow hupdate hr' with rfl | hr'
        · rw [hslot]
          exact hslots r hr
        · exact hslots r' hr'
      · rw [ownRow_of_updateRow hupdate hr hsame hslot, hk]
  | kept data payload id link waits =>
    refine ⟨id, payload, hslots, ⟨fun hlinked hleg => ?_, fun hwaits parsed txn hstored => ?_⟩,
      fun _ _ hk => hk⟩
    · rw [mergeData_congr payload]
      exact hsane.linked (link ▸ hlinked) (isCompletion_congr payload ▸ hleg)
    · rw [parseStoredSms_congr payload] at hstored
      exact absurd hstored (waits hwaits _)

theorem mem_of_mergeTarget {target : Option Nat} (h : mergeTarget t txn target = .ok row) :
    row ∈ t.rows := by
  unfold mergeTarget at h
  split at h
  · cases h
  · split at h
    · cases h
    · rename_i hfind
      split_ifs at h
      obtain rfl := Except.ok.inj h
      exact List.mem_of_find?_eq_some hfind

/-- What a resolution can do, where every slot is filled. -/
inductive Resolved (parseSms : SmsPayload → SmsParse) (t : TxnTable) (s : SmsRow) :
    SmsDuplicateAction → TxnTable → SmsRow → Prop
  | already {action : SmsDuplicateAction} (linked : (linkedTransactionId t s).isSome) :
      Resolved parseSms t s action t s
  | merged {t' : TxnTable} {s' : SmsRow} {target : Option Nat} {parsed : ParsedSms} {txn : TxnData}
      {row e : Transaction} (free : linkedTransactionId t s = none)
      (waits : isDuplicateDeferred s = true) (stored : parseStoredSms parseSms s = .ok (parsed, txn))
      (chosen : mergeTarget t txn target = .ok row) (same : e.id = row.id)
      (slot : e.smsMessageId = row.smsMessageId) (update : t.updateRow e = .ok t')
      (payload : s'.toSmsPayload = s.toSmsPayload) (id : s'.id = s.id)
      (link : s'.transactionId = some row.id) :
      Resolved parseSms t s (.merge target) t' s'
  | created {t' : TxnTable} {s' : SmsRow} {parsed : ParsedSms} {txn : TxnData}
      {outcome : ProcessSmsOutcome} {settle : Bool} (free : linkedTransactionId t s = none)
      (waits : isDuplicateDeferred s = true) (stored : parseStoredSms parseSms s = .ok (parsed, txn))
      (process : processSms parseSms t s true settle = .ok (t', s', outcome)) :
      Resolved parseSms t s .createNew t' s'

theorem resolved_of_resolveSmsDuplicate {action : SmsDuplicateAction} (hslots : SlotsFilled t)
    (h : resolveSmsDuplicate parseSms t s action = .ok (t', s')) :
    Resolved parseSms t s action t' s' := by
  unfold resolveSmsDuplicate at h
  split_ifs at h with hlinked hwaits
  · obtain ⟨rfl, rfl⟩ := Prod.mk.inj (Except.ok.inj h)
    exact .already hlinked
  have hfree : linkedTransactionId t s = none := by simpa using hlinked
  have hwaits : isDuplicateDeferred s = true := by simpa using hwaits
  cases hstored : parseStoredSms parseSms s with
  | error e =>
    rw [hstored] at h
    cases h
  | ok stored =>
    obtain ⟨parsed, txn⟩ := stored
    rw [hstored] at h
    cases action with
    | merge target =>
      dsimp only [bind, Except.bind] at h
      unfold resolveMerge at h
      cases hchosen : mergeTarget t txn target with
      | error e =>
        rw [hchosen] at h
        cases h
      | ok row =>
        rw [hchosen] at h
        have hrow := mem_of_mergeTarget hchosen
        cases hmerge : applyTransactionEnrichment t row txn .sms none .standard with
        | error e =>
          simp [hmerge, bind, Except.bind, Except.mapError] at h
        | ok merged =>
          obtain ⟨t₁, result⟩ := merged
          obtain ⟨e, -, hsame, hslot, hupdate⟩ := enrichment_cases (hslots row hrow) hmerge
          simp only [hmerge, bind, Except.bind, Except.mapError, pure, Except.pure,
            Except.ok.injEq, Prod.mk.injEq] at h
          obtain ⟨rfl, rfl⟩ := h
          exact .merged hfree hwaits hstored hchosen hsame hslot hupdate rfl rfl rfl
    | createNew =>
      dsimp only [bind, Except.bind] at h
      unfold resolveCreateNew at h
      split at h
      · split_ifs at h
        cases hprocess : processSms parseSms t s true (parsed.ledgerRole = .provisional) with
        | error e =>
          simp [hprocess, bind, Except.bind, Except.mapError] at h
        | ok processed =>
          obtain ⟨t₁, s₁, outcome⟩ := processed
          simp only [hprocess, bind, Except.bind, Except.mapError] at h
          split_ifs at h
          obtain ⟨rfl, rfl⟩ := Prod.mk.inj (Except.ok.inj h)
          exact .created hfree hwaits hstored hprocess
      · cases h

theorem handled_of_resolveSmsDuplicate {action : SmsDuplicateAction} (hslots : SlotsFilled t)
    (hsane : Sane parseSms s) (h : resolveSmsDuplicate parseSms t s action = .ok (t', s')) :
    Handled parseSms t s t' s' := by
  cases resolved_of_resolveSmsDuplicate hslots h with
  | already => exact ⟨rfl, rfl, hslots, hsane, fun _ _ hk => hk⟩
  | merged free waits stored chosen same slot update payload id link =>
    have hdata := hsane.waits waits _ _ stored
    have hrow := mem_of_mergeTarget chosen
    refine ⟨id, payload, fun r' hr' => ?_,
      sane_of_mergeData ((mergeData_congr payload).trans hdata), fun k x hk => ?_⟩
    · rcases mem_rows_of_updateRow update hr' with rfl | hr'
      · rw [slot]
        exact hslots _ hrow
      · exact hslots r' hr'
    · rw [ownRow_of_updateRow update hrow same slot, hk]
  | created free waits stored process =>
    have hdata := hsane.waits waits _ _ stored
    rw [processSms_of_mergeData _ hdata] at process
    exact handled_of_mergeSms hslots hdata process

/-! ### Messages linked to rows of their own -/

/-- A merge has linked the message to the row. -/
def MergedInto (parseSms : SmsPayload → SmsParse) (s : SmsRow) (x : Nat) : Prop :=
  s.transactionId = some x ∧ isCompletion parseSms s = false

/-- The row a merged message is linked to is the one that names it. -/
def OwnedRow (parseSms : SmsPayload → SmsParse) (t : TxnTable) (s : SmsRow) : Prop :=
  ∀ x, MergedInto parseSms s x → ownRow t s.id = some x

def Owned (parseSms : SmsPayload → SmsParse) (w : SmsStore) : Prop :=
  ∀ s ∈ w.sms, OwnedRow parseSms w.table s

/-- The decision leads the message to the row that names it, or to a first row. -/
def DecidesOwn (t : TxnTable) (m : Nat) : MatchDecision → Prop
  | .insert => ownRow t m = none
  | .matched row _ => ownRow t m = some row.id
  | .deferred _ _ _ => True

/-- Where the matcher would lead the message. -/
def AttachesToOwn (parseSms : SmsPayload → SmsParse) (t : TxnTable) (s : SmsRow) : Prop :=
  ∀ txn, mergeData parseSms s = some txn →
    DecidesOwn t s.id (findMatch t.rows txn .sms (some s.id))

/-- No explicit merge of the message is accepted. -/
def RefusesMerge (parseSms : SmsPayload → SmsParse) (t : TxnTable) (s : SmsRow)
    (target : Option Nat) : Prop :=
  linkedTransactionId t s = none → isDuplicateDeferred s = true → ∀ parsed txn,
    parseStoredSms parseSms s = .ok (parsed, txn) → ∀ row, mergeTarget t txn target ≠ .ok row

/-- The request links no message to a row that names another. -/
def KeepsToOwn (parseSms : SmsPayload → SmsParse) (w : SmsStore) : SmsRequest → Prop
  | .ingest payload => w.has payload = false → AttachesToOwn parseSms w.table (w.arrive payload)
  | .reparse id forceNew => ∀ s ∈ w.find id, forceNew = false → AttachesToOwn parseSms w.table s
  | .resolve id (.merge target) => ∀ s ∈ w.find id, RefusesMerge parseSms w.table s target
  | .resolve _ .createNew => True

omit [UnicodeTables] in
theorem isCompletion_of_mergeData (h : mergeData parseSms s = some txn) :
    isCompletion parseSms s = false := by
  unfold mergeData at h
  unfold isCompletion
  cases hparse : parseSms s.toSmsPayload with
  | unsupported message => rfl
  | failed message => rfl
  | parsed parsed =>
    simp only [hparse, Option.filter_eq_some_iff, Bool.and_eq_true, decide_eq_true_eq] at h
    simpa using h.2.2

omit [UnicodeTables] in
theorem ownedRow_iff_of_link (hdata : mergeData parseSms s = some txn)
    (hpayload : s'.toSmsPayload = s.toSmsPayload) (hid : s'.id = s.id)
    {link : Option Nat} (hlink : s'.transactionId = link) :
    OwnedRow parseSms t' s' ↔ ∀ x, link = some x → ownRow t' s.id = some x := by
  have hleg : isCompletion parseSms s' = false :=
    (isCompletion_congr hpayload).trans (isCompletion_of_mergeData hdata)
  unfold OwnedRow MergedInto
  simp [hleg, hid, hlink]

/-- **Which merges leave a message with a row of its own.** -/
theorem ownedRow_mergeSms_iff (hslots : SlotsFilled t) (hdata : mergeData parseSms s = some txn)
    (h : mergeSms t { s with parseError := none } txn forceNew = .ok (t', s', outcome)) :
    OwnedRow parseSms t' s' ↔
      (forceNew = false → DecidesOwn t s.id (findMatch t.rows txn .sms (some s.id))) := by
  obtain ⟨result, hmerge, hpayload, hid, hlink, -⟩ := mergeSms_cases h
  rw [ownedRow_iff_of_link hdata hpayload hid hlink]
  have hmerged : SmsMerged t s.id (findMatch t.rows txn .sms (some s.id)) forceNew t' result :=
    smsMerged_of_mergeTransaction hslots hmerge
  cases hmerged with
  | found force existing =>
    simp [force, linkOf, ownRow, existing]
  | inserted insert free decided =>
    have hown := ownRow_of_insertNew insert s.id
    rw [if_pos rfl] at hown
    rw [(rows_of_insertNew insert).2]
    simp only [linkOf, newRow, Option.some.injEq, forall_eq']
    cases forceNew with
    | true =>
      have hnone : ownRow t s.id = none := by simp [ownRow, free rfl]
      simp [hown, hnone]
    | false =>
      rw [decided rfl, hown]
      cases hbefore : ownRow t s.id with
      | none => simp [DecidesOwn, hbefore]
      | some x =>
        have hlt := lt_of_ownRow hbefore
        simp [DecidesOwn, hbefore]
        omega
  | enriched live decided mem same slot update =>
    rw [ownRow_of_updateRow update mem same slot, decided]
    simp [live, linkOf, DecidesOwn, same]
  | deferred live decided =>
    rw [decided]
    simp [linkOf, DecidesOwn]

theorem ownedRow_processSms_iff (hslots : SlotsFilled t) (hown : OwnedRow parseSms t s)
    (h : processSms parseSms t s forceNew false = .ok (t', s', outcome)) :
    OwnedRow parseSms t' s' ↔ (forceNew = false → AttachesToOwn parseSms t s) := by
  cases smsProcessed_of_processSms h with
  | merged data merge =>
    rw [ownedRow_mergeSms_iff hslots data merge]
    unfold AttachesToOwn
    simp [data]
  | completed data leg complete =>
    obtain ⟨hpayload, hid, -, -⟩ := completeReference_cases complete
    refine iff_of_true (fun x hx => ?_) fun _ txn hdata => absurd (data.symm.trans hdata) (by simp)
    have hleg := leg.symm.trans ((isCompletion_congr hpayload).symm.trans hx.2)
    cases hleg
  | kept data payload id link waits =>
    refine iff_of_true (fun x hx => ?_) fun _ txn hdata => absurd (data.symm.trans hdata) (by simp)
    rw [id]
    exact hown x ⟨link ▸ hx.1, isCompletion_congr payload ▸ hx.2⟩

omit [UnicodeTables] in
/-- A message with neither a link nor a row has no row. -/
theorem ownRow_of_free (h : linkedTransactionId t s = none) :
    s.transactionId = none ∧ ownRow t s.id = none := by
  unfold linkedTransactionId at h
  cases hlink : s.transactionId with
  | some x => simp [hlink] at h
  | none =>
    rw [hlink] at h
    exact ⟨rfl, h⟩

/-- **An accepted merge takes the message to a row that names another.** -/
theorem ownedRow_resolve_iff {action : SmsDuplicateAction} (hslots : SlotsFilled t)
    (hsane : Sane parseSms s) (hown : OwnedRow parseSms t s)
    (h : resolveSmsDuplicate parseSms t s action = .ok (t', s')) :
    OwnedRow parseSms t' s' ↔ ∀ target, action = .merge target → RefusesMerge parseSms t s target := by
  cases resolved_of_resolveSmsDuplicate hslots h with
  | already linked =>
    refine iff_of_true hown fun _ _ hfree => ?_
    rw [hfree] at linked
    cases linked
  | merged free waits stored chosen same slot update payload id link =>
    have hdata := hsane.waits waits _ _ stored
    refine iff_of_false (fun howned => ?_) fun hrefuses =>
      hrefuses _ rfl free waits _ _ stored _ chosen
    rw [ownedRow_iff_of_link hdata payload id link] at howned
    have hrow := howned _ rfl
    rw [ownRow_of_updateRow update (mem_of_mergeTarget chosen) same slot,
      (ownRow_of_free free).2] at hrow
    cases hrow
  | created free waits stored process =>
    have hdata := hsane.waits waits _ _ stored
    rw [processSms_of_mergeData _ hdata] at process
    refine iff_of_true ((ownedRow_mergeSms_iff hslots hdata process).mpr nofun) ?_
    intro target haction
    cases haction

/-! ### The store, request by request -/

variable {w w' : SmsStore} {request : SmsRequest}

omit [UnicodeTables] in
theorem mem_save (hs' : s ∈ (w.save t' s').sms) : s = s' ∨ s ∈ w.sms := by
  obtain ⟨r, hr, rfl⟩ := List.mem_map.mp hs'
  split_ifs
  · exact .inl rfl
  · exact .inr hr

omit [UnicodeTables] in
theorem mem_save_self (hs : s ∈ w.sms) (hid : s'.id = s.id) : s' ∈ (w.save t' s').sms :=
  List.mem_map.mpr ⟨s, hs, if_pos hid.symm⟩

omit [UnicodeTables] in
theorem mem_of_find {id : Nat} (h : w.find id = some s) : s ∈ w.sms := List.mem_of_find?_eq_some h

/-- What a request does to the store. -/
inductive SmsStepped (parseSms : SmsPayload → SmsParse) (w : SmsStore) :
    SmsRequest → SmsStore → Prop
  | known {payload : SmsPayload} (has : w.has payload = true) :
      SmsStepped parseSms w (.ingest payload) w
  | arrived {payload : SmsPayload} {t' : TxnTable} {s' : SmsRow} {outcome : ProcessSmsOutcome}
      (fresh : w.has payload = false)
      (process : processSms parseSms w.table (w.arrive payload) false false =
        .ok (t', s', outcome)) :
      SmsStepped parseSms w (.ingest payload) ⟨t', w.sms ++ [s']⟩
  | reparsed {id : Nat} {forceNew : Bool} {t' : TxnTable} {s s' : SmsRow}
      {outcome : ProcessSmsOutcome} (stored : w.find id = some s)
      (process : processSms parseSms w.table s forceNew false = .ok (t', s', outcome)) :
      SmsStepped parseSms w (.reparse id forceNew) (w.save t' s')
  | resolved {id : Nat} {action : SmsDuplicateAction} {t' : TxnTable} {s s' : SmsRow}
      (stored : w.find id = some s)
      (resolve : resolveSmsDuplicate parseSms w.table s action = .ok (t', s')) :
      SmsStepped parseSms w (.resolve id action) (w.save t' s')

theorem smsStepped_of_smsStep (h : smsStep parseSms w request = some w') :
    SmsStepped parseSms w request w' := by
  cases request with
  | ingest payload =>
    unfold smsStep at h
    dsimp only at h
    split_ifs at h with hhas
    · obtain rfl := Option.some.inj h
      exact .known hhas
    · split at h
      · rename_i t' s' outcome hprocess
        obtain rfl := Option.some.inj h
        exact .arrived (by simpa using hhas) hprocess
      · cases h
  | reparse id forceNew =>
    obtain ⟨s, hstored, h⟩ := Option.bind_eq_some_iff.mp h
    split at h
    · rename_i t' s' outcome hprocess
      obtain rfl := Option.some.inj h
      exact .reparsed hstored hprocess
    · cases h
  | resolve id action =>
    obtain ⟨s, hstored, h⟩ := Option.bind_eq_some_iff.mp h
    split at h
    · rename_i t' s' hresolve
      obtain rfl := Option.some.inj h
      exact .resolved hstored hresolve
    · cases h

omit [UnicodeTables] in
theorem sane_arrive (payload : SmsPayload) : Sane parseSms (w.arrive payload) :=
  ⟨fun hlinked => absurd rfl hlinked, fun hwaits => by simp [isDuplicateDeferred, SmsStore.arrive]
    at hwaits⟩

omit [UnicodeTables] in
theorem consistent_save (hc : Consistent parseSms w) (h : Handled parseSms w.table s t' s') :
    Consistent parseSms (w.save t' s') := by
  refine ⟨h.slots, fun r hr => ?_⟩
  rcases mem_save hr with rfl | hr
  · exact h.sane
  · exact hc.sane r hr

/-- **Every request keeps the store consistent.** -/
theorem consistent_of_step (hc : Consistent parseSms w)
    (h : smsStep parseSms w request = some w') : Consistent parseSms w' := by
  cases smsStepped_of_smsStep h with
  | known => exact hc
  | arrived fresh process =>
    have hhandled := handled_of_processSms hc.slots (sane_arrive _) process
    refine ⟨hhandled.slots, fun r hr => ?_⟩
    rcases List.mem_append.mp hr with hr | hr
    · exact hc.sane r hr
    · obtain rfl := List.mem_singleton.mp hr
      exact hhandled.sane
  | reparsed stored process =>
    exact consistent_save hc (handled_of_processSms hc.slots (hc.sane _ (mem_of_find stored)) process)
  | resolved stored resolve =>
    exact consistent_save hc
      (handled_of_resolveSmsDuplicate hc.slots (hc.sane _ (mem_of_find stored)) resolve)

omit [UnicodeTables] in
theorem consistent_empty : Consistent parseSms .empty :=
  ⟨fun _ hr => absurd hr List.not_mem_nil, fun _ hs => absurd hs List.not_mem_nil⟩

/-- **From an empty store every row names a message**, whatever the requests were. -/
theorem slotsFilled_of_run {ok : SmsStore → SmsRequest → Prop}
    (h : (smsSystem parseSms).Run ok .empty w) : SlotsFilled w.table :=
  (h.invariant (I := Consistent parseSms) (fun _ _ _ hc _ hstep => consistent_of_step hc hstep)
    consistent_empty).slots

omit [UnicodeTables] in
theorem ownedRow_arrive (payload : SmsPayload) : OwnedRow parseSms w.table (w.arrive payload) := by
  rintro x ⟨hlink, -⟩
  cases hlink

omit [UnicodeTables] in
theorem OwnedRow.mono (h : OwnedRow parseSms t s)
    (hown : ∀ k x, ownRow t k = some x → ownRow t' k = some x) : OwnedRow parseSms t' s :=
  fun x hx => hown _ _ (h x hx)

omit [UnicodeTables] in
theorem owned_save_iff (ho : Owned parseSms w) (hs : s ∈ w.sms)
    (h : Handled parseSms w.table s t' s') :
    Owned parseSms (w.save t' s') ↔ OwnedRow parseSms t' s' := by
  refine ⟨fun howned => howned s' (mem_save_self hs h.id), fun hrow r hr => ?_⟩
  rcases mem_save hr with rfl | hr
  · exact hrow
  · exact (ho r hr).mono h.own

/-- **Which requests leave every merged message with a row of its own.** -/
theorem owned_step_iff (hc : Consistent parseSms w) (ho : Owned parseSms w)
    (h : smsStep parseSms w request = some w') :
    Owned parseSms w' ↔ KeepsToOwn parseSms w request := by
  cases smsStepped_of_smsStep h with
  | known has => exact iff_of_true ho fun hfresh => absurd (has.symm.trans hfresh) (by simp)
  | arrived fresh process =>
    have hhandled := handled_of_processSms hc.slots (sane_arrive _) process
    have hnew := ownedRow_processSms_iff hc.slots (ownedRow_arrive _) process
    refine ⟨fun howned _ => hnew.mp (howned _ (by simp)) rfl, fun hkeeps r hr => ?_⟩
    rcases List.mem_append.mp hr with hr | hr
    · exact (ho r hr).mono hhandled.own
    · obtain rfl := List.mem_singleton.mp hr
      exact hnew.mpr fun _ => hkeeps fresh
  | reparsed stored process =>
    have hs := mem_of_find stored
    rw [owned_save_iff ho hs (handled_of_processSms hc.slots (hc.sane _ hs) process),
      ownedRow_processSms_iff hc.slots (ho _ hs) process]
    unfold KeepsToOwn
    simp [stored]
  | @resolved id action _ _ _ stored resolve =>
    have hs := mem_of_find stored
    rw [owned_save_iff ho hs (handled_of_resolveSmsDuplicate hc.slots (hc.sane _ hs) resolve),
      ownedRow_resolve_iff hc.slots (hc.sane _ hs) (ho _ hs) resolve]
    unfold KeepsToOwn
    cases action with
    | merge target => simp [stored]
    | createNew => simp

/-! ### The links -/

/-- What a merged message's link promises: the row it names has its slot filled and
is not merged as an open one, and the Parse button returns it and writes nothing. -/
structure LinksHold (parseSms : SmsPayload → SmsParse) (w : SmsStore) : Prop where
  slotFilled : ∀ s ∈ w.sms, ∀ x, MergedInto parseSms s x →
    ∃ row ∈ w.table.rows, row.id = x ∧ row.slot .sms ≠ none
  notOpen : ∀ s ∈ w.sms, ∀ x, MergedInto parseSms s x → ∀ row ∈ w.table.rows, row.id = x →
    ∀ txn source, txn.balance = none → ¬ ByWindow w.table.rows txn .sms source row
  forceParse : ∀ s ∈ w.sms, ∀ x, MergedInto parseSms s x →
    ∃ s' outcome, processSms parseSms w.table s true false = .ok (w.table, s', outcome) ∧
      s'.transactionId = some x ∧ outcome.transactionId = some x

/-- The Parse button returns a row and writes nothing exactly for the row that
names the message. -/
theorem forceParse_iff (hdata : mergeData parseSms s = some txn) (hslots : SlotsFilled t) :
    (∃ s' outcome, processSms parseSms t s true false = .ok (t, s', outcome) ∧
      s'.transactionId = some x ∧ outcome.transactionId = some x) ↔ ownRow t s.id = some x := by
  constructor
  · rintro ⟨s', outcome, hprocess, hlink, -⟩
    rw [processSms_of_mergeData false hdata] at hprocess
    obtain ⟨result, hmerge, -, -, hresult, -⟩ := mergeSms_cases hprocess
    have hmerged : SmsMerged t s.id (findMatch t.rows txn .sms (some s.id)) true t result :=
      smsMerged_of_mergeTransaction hslots hmerge
    rw [hresult] at hlink
    cases hmerged with
    | found force existing =>
      unfold ownRow
      rw [existing]
      exact hlink
    | inserted insert =>
      -- an insert leaves a longer table
      have hlength := congrArg List.length (rows_of_insertNew insert).1
      simp at hlength
    | enriched live => cases live
    | deferred live => cases live
  · intro hown
    obtain ⟨row, hexisting, rfl⟩ := Option.map_eq_some_iff.mp hown
    rw [processSms_of_mergeData false hdata]
    simp [mergeSms, mergeTransaction, hexisting, bind, Except.bind, pure, Except.pure]

theorem not_byWindow_of_filled {source : Option Nat} (hfilled : row.slot .sms ≠ none)
    (hbalance : txn.balance = none) : ¬ ByWindow t.rows txn .sms source row := by
  intro h
  have hconfirmed := h.confirmed
  unfold Confirms at hconfirmed
  simp only [quantizeBalance, hbalance, Option.map_none] at hconfirmed
  exact hfilled hconfirmed.2.2

/-- **The links hold up when each names the message's own row.** -/
theorem linksHold_iff (hc : Consistent parseSms w) : LinksHold parseSms w ↔ Owned parseSms w := by
  have hmerges : ∀ s ∈ w.sms, ∀ x, MergedInto parseSms s x → ∃ txn, mergeData parseSms s = some txn :=
    fun s hs x hx => Option.isSome_iff_exists.mp
      ((hc.sane s hs).linked (by rw [hx.1]; exact Option.some_ne_none _) hx.2)
  constructor
  · intro h s hs x hx
    obtain ⟨txn, hdata⟩ := hmerges s hs x hx
    exact (forceParse_iff hdata hc.slots).mp (h.forceParse s hs x hx)
  · intro h
    refine ⟨fun s hs x hx => ?_, fun s hs x hx row hrow _ txn source hbalance => ?_,
      fun s hs x hx => ?_⟩
    · have hown := h s hs x hx
      rw [ownRow_eq] at hown
      obtain ⟨row, hfind, hid⟩ := Option.map_eq_some_iff.mp hown
      have hrow := List.mem_of_find?_eq_some hfind
      exact ⟨row, hrow, hid, hc.slots row hrow⟩
    · exact not_byWindow_of_filled (hc.slots row hrow) hbalance
    · obtain ⟨txn, hdata⟩ := hmerges s hs x hx
      exact (forceParse_iff hdata hc.slots).mpr (h s hs x hx)

/-- **Every link holds up in a run whose requests keep messages to rows of their own.** -/
theorem linksHold_of_run (h : (smsSystem parseSms).Run (KeepsToOwn parseSms) .empty w) :
    LinksHold parseSms w := by
  have hboth : Consistent parseSms w ∧ Owned parseSms w :=
    h.invariant (I := fun w => Consistent parseSms w ∧ Owned parseSms w)
      (fun _ _ _ hinv hok hstep => ⟨consistent_of_step hinv.1 hstep,
        (owned_step_iff hinv.1 hinv.2 hstep).mpr hok⟩)
      ⟨consistent_empty, fun _ hs => absurd hs List.not_mem_nil⟩
  exact (linksHold_iff hboth.1).mpr hboth.2

/-- **The first request that does not breaks a link.** -/
theorem not_linksHold_of_step (h : (smsSystem parseSms).Run (KeepsToOwn parseSms) .empty w)
    (hstep : smsStep parseSms w request = some w') (hbad : ¬ KeepsToOwn parseSms w request) :
    ¬ LinksHold parseSms w' := by
  have hc : Consistent parseSms w := h.invariant (I := Consistent parseSms)
    (fun _ _ _ hinv _ hstep => consistent_of_step hinv hstep) consistent_empty
  have ho : Owned parseSms w := (linksHold_iff hc).mp (linksHold_of_run h)
  rw [linksHold_iff (consistent_of_step hc hstep), owned_step_iff hc ho hstep]
  exact hbad

/-! ### Two alerts for one payment -/

/-- An alert that states the balance after the payment. -/
def paymentAlert : ParsedSms where
  bank := "hdfc"
  emailType := "hdfc_cc_debit_alert"
  ledgerRole := .other
  timeOfArrival := false
  identifiesBy := .counterparty
  transaction := some
    { direction := "debit"
      amount := 500
      currency := some "INR"
      transactionDate := some 739000
      transactionTime := payment.transactionTime
      counterparty := some "AMAZON"
      cardMask := some "XX4321"
      accountMask := none
      referenceNumber := none
      channel := some "card"
      balance := some 1000
      rawDescription := none }

def alertPayload (body : String) : SmsPayload := ⟨"hdfc", "HDFCBK", body, 0⟩

/-- The bank sends the alert twice, in two wordings. -/
def alertTwice : List SmsRequest :=
  [.ingest (alertPayload "Rs 500 spent"), .ingest (alertPayload "You spent Rs 500")]

def alwaysAlert : SmsPayload → SmsParse := fun _ => .parsed paymentAlert

omit [UnicodeTables] in
theorem linksHold_of_run_firstAlert : ∃ w, w.sms.map (·.transactionId) = [some 1] ∧
    @LinksHold asciiTables alwaysAlert w := by
  have hdata : @mergeData alwaysAlert (SmsStore.empty.arrive (alertPayload "Rs 500 spent")) =
      parsedSmsToTxnData paymentAlert 0 := by decide +kernel
  have hinsert : ∀ txn ∈ parsedSmsToTxnData paymentAlert 0,
      @findMatch asciiTables [] txn .sms (some 1) = .insert := by decide +kernel
  have hmeets : (@smsSystem asciiTables alwaysAlert).Meets (@KeepsToOwn asciiTables alwaysAlert)
      .empty [.ingest (alertPayload "Rs 500 spent"), .reparse 1 true] := by
    refine ⟨fun _ txn htxn => ?_, fun _ _ => ⟨fun _ _ hlive => (by cases hlive), fun _ _ => trivial⟩⟩
    have hdecided := hinsert txn (hdata.symm.trans htxn)
    show DecidesOwn TxnTable.empty 1 (@findMatch asciiTables [] txn .sms (some 1))
    rw [hdecided]
    rfl
  obtain ⟨w, -, hrun, hlinks⟩ := System.run_of_view (f := fun w => w.sms.map (·.transactionId))
    (x := [some 1]) hmeets (by decide +kernel)
  exact ⟨w, hlinks, @linksHold_of_run asciiTables alwaysAlert w hrun⟩

omit [UnicodeTables] in
/-- **The second alert is merged into the first one's row, and the Parse button makes
it a row of its own.** -/
theorem second_alert_parsed_twice : ¬ ∀ w : SmsStore,
    (@smsSystem asciiTables alwaysAlert).Run System.always .empty w →
      @LinksHold asciiTables alwaysAlert w := by
  intro h
  have hmeets : (@smsSystem asciiTables alwaysAlert).Meets System.always .empty alertTwice :=
    System.meets_of_forall (p := fun _ => True) alertTwice SmsStore.empty fun _ _ => trivial
  obtain ⟨w, hexec, hrun, hview⟩ := System.run_of_view
    (f := fun w => (w.sms.map fun s => (s.id, s.transactionId), ownRow w.table 2))
    (x := ([(1, some 1), (2, some 1)], none)) hmeets (by decide +kernel)
  obtain ⟨hsms, hown⟩ := Prod.mk.inj hview
  obtain ⟨s, hs, hkeys⟩ : ∃ s ∈ w.sms, (s.id, s.transactionId) = (2, some 1) := by
    have hmem : (2, some 1) ∈ w.sms.map fun s => (s.id, s.transactionId) := by
      rw [hsms]
      simp
    simpa using hmem
  obtain ⟨hid, hlink⟩ := Prod.mk.inj hkeys
  obtain ⟨txn, hdata⟩ : ∃ txn, mergeData alwaysAlert s = some txn := ⟨_, rfl⟩
  let _ := asciiTables
  have hforced := (h w hrun).forceParse s hs 1 ⟨hlink, rfl⟩
  have hrow := (forceParse_iff hdata (slotsFilled_of_run hrun)).mp hforced
  rw [hid, hown] at hrow
  cases hrow

end FinancialDashboard.Transactions
