import FinancialDashboard.Transactions.EventPoint
import FinancialDashboard.Transactions.Reingest

/-!
# Where the time of a row came from

A row's `transaction_time_is_received_time` says of the stored time that a message's arrival
supplied it.  Beside the table stands, for each row, the message that its time came from: the
one that made the row, or the last one that changed the time.  Merges and explicit resolutions
keep the flag that of this message.

* `time_and_flag`: an enrichment writes the time and the flag together, or neither.
* `written_of_mergeCall`, `written_of_apply`: what a call does to the rows.
* `flag_of_supplier`: the flag after any run.
-/

namespace FinancialDashboard.Transactions

open PyTime PyText Transition

/-! ### The system -/

/-- The table, and the messages the stored times came from, by the ids of the rows. -/
structure Tracked where
  table : TxnTable
  supplier : Nat → Option TxnData

inductive TimeEvent
  | merge (call : MergeCall)
  /-- An explicit resolution hands the chosen row to the enrichment. -/
  | resolve (transactionId : Nat) (channel : Channel) (txn : TxnData) (sourceId : Option Nat)

def TimeEvent.txn : TimeEvent → TxnData
  | merge call => call.txn
  | resolve _ _ txn _ => txn

/-- The row is new, or its time has changed. -/
def supplied (t t' : TxnTable) (id : Nat) : Bool :=
  match t.rows.find? (·.id = id), t'.rows.find? (·.id = id) with
  | none, some _ => true
  | some old, some new => old.transactionTime ≠ new.transactionTime
  | _, none => false

def Tracked.advance (s : Tracked) (txn : TxnData) (t' : TxnTable) : Tracked where
  table := t'
  supplier id := if supplied s.table t' id then some txn else s.supplier id

/-- The message states its time in its body: the email parser has read one, or the SMS parser
has and does not declare that it is the arrival's. -/
inductive FromBody : TxnData → Prop
  | email {parsed : ParsedEmail} {receivedAt : Option Datetime} {txn : ParsedTransaction}
      (htime : txn.transactionTime ≠ none) : FromBody (emailTxnData parsed receivedAt txn)
  | sms {parsed : ParsedSms} {receivedAt : Int} {data : TxnData}
      (hbody : parsed.timeOfArrival = false)
      (hdata : parsedSmsToTxnData parsed receivedAt = some data) : FromBody data

section

variable [UnicodeTables]

/-- The table after the event; an event that raises is rolled back and is not a step. -/
def TimeEvent.run (t : TxnTable) : TimeEvent → Option TxnTable
  | merge call =>
    match mergeCall t call with
    | .ok (t', _) => some t'
    | .error _ => none
  | resolve transactionId channel txn sourceId =>
    (t.rows.find? (·.id = transactionId)).bind fun row =>
      match applyTransactionEnrichment t row txn channel sourceId .standard with
      | .ok (t', _) => some t'
      | .error _ => none

def timeSystem : System Tracked TimeEvent :=
  ⟨fun s e => (e.run s.table).map (s.advance e.txn)⟩

/-! ### The time and the flag -/

variable {t t' : TxnTable} {txn : TxnData} {row : Transaction} {channel : Channel}
  {kind : MatchKind}

/-- **An enrichment writes the time and the flag together, or neither.** -/
theorem time_and_flag (row : Transaction) (txn : TxnData) (channel : Channel) (kind : MatchKind) :
    ((appliedTo row txn channel kind).transactionTime = row.transactionTime ∧
      (appliedTo row txn channel kind).transactionTimeIsReceivedTime =
        row.transactionTimeIsReceivedTime) ∨
    ((appliedTo row txn channel kind).transactionTime ≠ row.transactionTime ∧
      (appliedTo row txn channel kind).transactionTime = txn.transactionTime ∧
      (appliedTo row txn channel kind).transactionTimeIsReceivedTime =
        txn.transactionTimeIsReceivedTime) := by
  have htime : (appliedTo row txn channel kind).transactionTime =
      (computeAppliedEnrichmentDiff row txn channel kind).transactionTime.apply
        row.transactionTime := rfl
  have hflag : (appliedTo row txn channel kind).transactionTimeIsReceivedTime =
      if (computeAppliedEnrichmentDiff row txn channel kind).transactionTime.isChange then
        txn.transactionTimeIsReceivedTime
      else row.transactionTimeIsReceivedTime := rfl
  rw [htime, hflag, applied_time]
  rcases FieldChange.cases_of row.transactionTime txn.transactionTime (fun old new =>
    decide (kind = .amPmAlias) ||
      decide (channel = .email) && incomingTimeIsEarlier row txn old new) with
    ⟨hkeep, -⟩ | ⟨n, hold, hnew, hfill⟩ | ⟨o, n, hold, hnew, hne, -, hwrite⟩
  · rw [hkeep]
    exact .inl ⟨rfl, rfl⟩
  · rw [hfill, hold, hnew]
    exact .inr ⟨Option.some_ne_none n, rfl, rfl⟩
  · rw [hwrite, hold, hnew]
    exact .inr ⟨fun heq => hne (Option.some.inj heq).symm, rfl, rfl⟩

/-! ### What a call writes -/

/-- What the call of a message does to the rows. -/
inductive Written (t : TxnTable) (txn : TxnData) : TxnTable → Prop
  | untouched : Written t txn t
  | inserted {t' : TxnTable} {new : Transaction} (rows : t'.rows = t.rows ++ [new])
      (fresh : ∀ r ∈ t.rows, r.id ≠ new.id)
      (time : new.transactionTime = txn.transactionTime)
      (flag : new.transactionTimeIsReceivedTime = txn.transactionTimeIsReceivedTime) :
      Written t txn t'
  | enriched {t' : TxnTable} {row claimed : Transaction} {channel : Channel} {kind : MatchKind}
      (mem : row ∈ t.rows) (id : claimed.id = row.id)
      (time : claimed.transactionTime = row.transactionTime)
      (flag : claimed.transactionTimeIsReceivedTime = row.transactionTimeIsReceivedTime)
      (update : t.updateRow (appliedTo claimed txn channel kind) = .ok t') : Written t txn t'

theorem written_of_insertNew {smsMessageId emailId : Option Nat}
    {result : MergeResult}
    (h : insertNew t channel txn smsMessageId emailId = .ok (t', result)) : Written t txn t' := by
  unfold insertNew TxnTable.insertRow at h
  dsimp only at h
  split_ifs at h
  · obtain ⟨rfl, -⟩ := Prod.mk.inj (Except.ok.inj h)
    refine .inserted rfl (fun r hr => ?_) rfl rfl
    exact (TxnTable.id_lt_nextId hr).ne
  · cases h

theorem written_of_apply {sourceId : Option Nat} {result : MergeResult} (hrow : row ∈ t.rows)
    (h : applyTransactionEnrichment t row txn channel sourceId kind = .ok (t', result)) :
    Written t txn t' := by
  unfold applyTransactionEnrichment at h
  cases hclaimed : claimTransactionSourceSlot t row channel sourceId with
  | none =>
    rw [hclaimed] at h
    obtain ⟨rfl, -⟩ := Prod.mk.inj (Except.ok.inj h)
    exact .untouched
  | some claimed =>
    rw [hclaimed] at h
    obtain ⟨after, hafter, heq⟩ := Posting.bind_eq_ok.mp h
    obtain ⟨rfl, -⟩ := Prod.mk.inj (Except.ok.inj heq)
    rcases claimed_cases hclaimed with rfl | ⟨source, rfl⟩
    · exact .enriched hrow rfl rfl rfl hafter
    · cases channel with
      | sms =>
        exact @Written.enriched _ t txn after row (setSlot row .sms source) .sms kind hrow
          rfl rfl rfl hafter
      | email =>
        exact @Written.enriched _ t txn after row (setSlot row .email source) .email kind hrow
          rfl rfl rfl hafter

theorem written_of_mergeCall {call : MergeCall} {result : MergeResult}
    (h : mergeCall t call = .ok (t', result)) : Written t call.txn t' := by
  unfold mergeCall mergeTransaction at h
  dsimp only at h
  split_ifs at h
  · split at h
    · obtain ⟨rfl, -⟩ := Prod.mk.inj (Except.ok.inj h)
      exact .untouched
    · exact written_of_insertNew h
  · split at h
    · rename_i row kind hmatch
      exact written_of_apply (mem_of_findMatch hmatch) h
    · obtain ⟨rfl, -⟩ := Prod.mk.inj (Except.ok.inj h)
      exact .untouched
    · split at h
      · rename_i inserted hinserted
        obtain rfl := Except.ok.inj h
        exact written_of_insertNew hinserted
      · split at h
        · rename_i row kind hmatch
          exact written_of_apply (mem_of_findMatch hmatch) h
        · cases h

theorem written_of_run {e : TimeEvent} (h : e.run t = some t') : Written t e.txn t' := by
  cases e with
  | merge call =>
    unfold TimeEvent.run at h
    dsimp only at h
    split at h
    · rename_i after result hcall
      obtain rfl := Option.some.inj h
      exact written_of_mergeCall hcall
    · cases h
  | resolve transactionId channel txn sourceId =>
    obtain ⟨row, hrow, happly⟩ := Option.bind_eq_some_iff.mp h
    split at happly
    · rename_i after result hcall
      obtain rfl := Option.some.inj happly
      exact written_of_apply (List.mem_of_find?_eq_some hrow) hcall
    · cases happly

/-! ### The invariant -/

/-- The flag of the row is that of the message its time came from, or the row and its time are
as they were at the start. -/
def Tells (start : TxnTable) (s : Tracked) (row : Transaction) : Prop :=
  match s.supplier row.id with
  | some m => row.transactionTime = m.transactionTime ∧
      row.transactionTimeIsReceivedTime = m.transactionTimeIsReceivedTime
  | none => ∃ r ∈ start.rows, r.id = row.id ∧ row.transactionTime = r.transactionTime ∧
      row.transactionTimeIsReceivedTime = r.transactionTimeIsReceivedTime

omit [UnicodeTables] in
/-- A row that was there with the same time keeps its supplier. -/
theorem supplied_of_same {old : Transaction} (hold : old ∈ t.rows) (hrow : row ∈ t'.rows)
    (hid : old.id = row.id) (htime : old.transactionTime = row.transactionTime) :
    supplied t t' row.id = false := by
  unfold supplied
  rw [TxnTable.find_of_mem hold hid, TxnTable.find_of_mem hrow rfl]
  exact decide_eq_false (not_not_intro htime)

omit [UnicodeTables] in
theorem supplied_of_changed {old : Transaction} (hold : old ∈ t.rows) (hrow : row ∈ t'.rows)
    (hid : old.id = row.id) (htime : old.transactionTime ≠ row.transactionTime) :
    supplied t t' row.id = true := by
  unfold supplied
  rw [TxnTable.find_of_mem hold hid, TxnTable.find_of_mem hrow rfl]
  exact decide_eq_true htime

omit [UnicodeTables] in
theorem supplied_of_new (hnew : ∀ r ∈ t.rows, r.id ≠ row.id) (hrow : row ∈ t'.rows) :
    supplied t t' row.id = true := by
  unfold supplied
  have hnone : t.rows.find? (·.id = row.id) = none :=
    List.find?_eq_none.mpr fun r hr => by simpa using hnew r hr
  rw [hnone, TxnTable.find_of_mem hrow rfl]

variable {start : TxnTable} {s : Tracked}

omit [UnicodeTables] in
/-- A row whose time and flag are left alone goes on telling the truth. -/
theorem Tells.kept {old : Transaction} (h : Tells start s old) (hold : old ∈ s.table.rows)
    (hrow : row ∈ t'.rows) (hid : old.id = row.id)
    (htime : row.transactionTime = old.transactionTime)
    (hflag : row.transactionTimeIsReceivedTime = old.transactionTimeIsReceivedTime) :
    Tells start (s.advance txn t') row := by
  have hsame : (s.advance txn t').supplier row.id = s.supplier old.id := by
    unfold Tracked.advance
    dsimp only
    rw [supplied_of_same hold hrow hid htime.symm, hid]
    exact if_neg Bool.false_ne_true
  unfold Tells at h ⊢
  rw [hsame]
  rwa [htime, hflag, ← hid]

omit [UnicodeTables] in
/-- A row that the message gave its time has the message's flag. -/
theorem tells_of_supplied (h : supplied s.table t' row.id = true)
    (htime : row.transactionTime = txn.transactionTime)
    (hflag : row.transactionTimeIsReceivedTime = txn.transactionTimeIsReceivedTime) :
    Tells start (s.advance txn t') row := by
  have hnew : (s.advance txn t').supplier row.id = some txn := by
    unfold Tracked.advance
    dsimp only
    rw [h]
    exact if_pos rfl
  unfold Tells
  rw [hnew]
  exact ⟨htime, hflag⟩

/-- **A call keeps the flags true.** -/
theorem tells_of_written (hall : ∀ row ∈ s.table.rows, Tells start s row)
    (h : Written s.table txn t') : ∀ row ∈ t'.rows, Tells start (s.advance txn t') row := by
  intro row hrow
  cases h with
  | untouched => exact (hall row hrow).kept hrow hrow rfl rfl rfl
  | @inserted _ new rows fresh time flag =>
    have hmem := hrow
    rw [rows] at hmem
    rcases List.mem_append.mp hmem with hold | hnew
    · exact (hall row hold).kept hold hrow rfl rfl rfl
    · obtain rfl := List.mem_singleton.mp hnew
      exact tells_of_supplied (supplied_of_new fresh hrow) time flag
  | @enriched _ old claimed channel kind mem id time flag update =>
    have hmem := hrow
    rw [TxnTable.rows_of_updateRow update] at hmem
    obtain ⟨r, hr, hrow'⟩ := List.mem_map.mp hmem
    have hid : (appliedTo claimed txn channel kind).id = claimed.id := rfl
    by_cases heq : r.id = (appliedTo claimed txn channel kind).id
    · rw [if_pos heq] at hrow'
      subst hrow'
      have hown : old.id = (appliedTo claimed txn channel kind).id := (hid.trans id).symm
      rcases time_and_flag claimed txn channel kind with ⟨htime, hflag⟩ | ⟨hne, htime, hflag⟩
      · exact (hall old mem).kept mem hrow hown (htime.trans time) (hflag.trans flag)
      · refine tells_of_supplied (supplied_of_changed mem hrow hown ?_) htime hflag
        exact fun hsame => hne (hsame.symm.trans time.symm)
    · rw [if_neg heq] at hrow'
      subst hrow'
      exact (hall r hr).kept hr hrow rfl rfl rfl

/-! ### Any run -/

omit [UnicodeTables] in
theorem flag_of_fromBody {m : TxnData} (h : FromBody m) :
    m.transactionTimeIsReceivedTime = false := by
  cases h with
  | @email parsed receivedAt txn htime =>
    unfold emailTxnData eventPoint
    dsimp only
    cases hbody : txn.transactionTime with
    | none => exact absurd hbody htime
    | some time =>
      dsimp only
      split_ifs
      · rfl
      · rfl
  | sms hbody hdata =>
    obtain ⟨txn, -, rfl⟩ := Option.map_eq_some_iff.mp hdata
    exact hbody

/-- **The received-time flag tells the truth.**  After any run of merges and explicit
resolutions, the flag of a row is that of the message which its stored time came from, and it
is not set where that message stated the time in its body; a row whose time no message has
changed is, as far as the two go, as it was at the start. -/
theorem flag_of_supplier {start : TxnTable} {s : Tracked}
    (h : timeSystem.Run System.always ⟨start, fun _ => none⟩ s) {row : Transaction}
    (hrow : row ∈ s.table.rows) :
    (∃ m, s.supplier row.id = some m ∧ row.transactionTime = m.transactionTime ∧
      row.transactionTimeIsReceivedTime = m.transactionTimeIsReceivedTime ∧
      (FromBody m → row.transactionTimeIsReceivedTime = false)) ∨
    (s.supplier row.id = none ∧ ∃ r ∈ start.rows, r.id = row.id ∧
      row.transactionTime = r.transactionTime ∧
      row.transactionTimeIsReceivedTime = r.transactionTimeIsReceivedTime) := by
  have hinv := h.invariant (I := fun s => ∀ row ∈ s.table.rows, Tells start s row)
    (fun s e s' hall _ hstep => by
      obtain ⟨t', hrun, rfl⟩ := Option.map_eq_some_iff.mp hstep
      exact tells_of_written hall (written_of_run hrun))
    (fun row hrow => ⟨row, hrow, rfl, rfl, rfl⟩)
  have htells := hinv row hrow
  unfold Tells at htells
  cases hsupplier : s.supplier row.id with
  | none =>
    rw [hsupplier] at htells
    exact .inr ⟨rfl, htells⟩
  | some m =>
    rw [hsupplier] at htells
    obtain ⟨htime, hflag⟩ := htells
    exact .inl ⟨m, rfl, htime, hflag, fun hbody => hflag.trans (flag_of_fromBody hbody)⟩

end

/-- An SMS that arrives half a minute past midnight and states no time of its own. -/
def arrivalSms : TxnData :=
  { midnightSms with
    transactionTime := some ⟨30000000, by decide⟩
    transactionTimeIsReceivedTime := true }

/-- The email of the evening, then the SMS. -/
def eveningCalls : List TimeEvent :=
  [.merge ⟨.email, eveningEmail, none, some 1, false⟩,
    .merge ⟨.sms, arrivalSms, some 2, none, false⟩]

theorem flag_of_supplier_evening : ∃ (s : Tracked) (row : Transaction), row ∈ s.table.rows ∧
    row.transactionTimeIsReceivedTime = true ∧ ∃ m, s.supplier row.id = some m ∧
      row.transactionTimeIsReceivedTime = m.transactionTimeIsReceivedTime := by
  obtain ⟨s, -, hrun, hview⟩ := @System.run_of_view _ _ (@timeSystem asciiTables) System.always _
    (fun s => s.table.rows.head?.map (·.transactionTimeIsReceivedTime)) eveningCalls
    ⟨.empty, fun _ => none⟩ (some true) (System.meets_of_always _ _ fun _ _ _ => trivial)
    (by decide +kernel)
  obtain ⟨row, hrow, hflag⟩ := Option.map_eq_some_iff.mp hview
  have hmem := List.mem_of_mem_head? hrow
  refine ⟨s, row, hmem, hflag, ?_⟩
  rcases @flag_of_supplier asciiTables _ _ hrun _ hmem with ⟨m, hm, -, heq, -⟩ | ⟨-, r, hr, -⟩
  · exact ⟨m, hm, heq⟩
  · cases hr

end FinancialDashboard.Transactions
