import FinancialDashboard.Lib.Calendar
import FinancialDashboard.Lib.Transition
import FinancialDashboard.Payments.Newest

/-!
# Reminders

The reminders of card bills (`check_and_send_reminders` of `services/reminders.py`), poll
after poll.

A message is sent for an offset that was not recorded and records it, so the offsets recorded
bound the messages.  This needs the poll to get as far as its commit: where a date cannot be
computed, what was sent before is not recorded.

* `raised_iff`: when a turn raises.
* `turn_spec`: what a turn sends and records.
* `step_accounted`, `reminders_once`: the messages of a run.

A message is logged where it is handed to the sender.  A total that reads as `NaN` cannot be
compared.
-/

namespace FinancialDashboard.Payments

open PyText PyTime Statements Sql Transition

/-- `STALE_DAYS`. -/
def staleDays : Int := 7

/-- What is known of a message: the statement, its status then and the days past due. -/
structure Reminder where
  uploadId : Nat
  status : Option PaymentStatus
  daysPast : Int
  deriving DecidableEq, Repr

/-! ### One statement -/

/-- What the loop over the offsets keeps. -/
structure Sending where
  alreadySent : List Int
  changed : Bool
  sent : Bool

/-- The loop over the offsets, and if it raised; `due - timedelta(days=offset)` may. -/
def sendDue (due today : Int) (late : Bool) : List Int → Sending → Sending × Bool
  | [], state => (state, false)
  | offset :: rest, state =>
    if offset ∈ state.alreadySent then sendDue due today late rest state
    else if late && 0 < offset then
      sendDue due today late rest
        { state with alreadySent := offset :: state.alreadySent, changed := true }
    else if ¬ IsDate (due - offset) then (state, true)
    else if due - offset ≤ today then
      sendDue due today late rest
        { alreadySent := offset :: state.alreadySent, changed := true, sent := true }
    else sendDue due today late rest state

/-- The offsets that were recorded. -/
def StatementUpload.recorded (upload : StatementUpload) : List Int :=
  upload.paymentSentOffsets.getD []

def StatementUpload.withStatus (upload : StatementUpload) (status : Option PaymentStatus) :
    StatementUpload :=
  { upload with paymentStatus := status }

@[simp] theorem recorded_withStatus (upload : StatementUpload) (status : Option PaymentStatus) :
    (upload.withStatus status).recorded = upload.recorded := rfl

/-- The row after a turn of the loop over the statements, and what was sent. -/
structure Turn where
  upload : StatementUpload
  reminder : Option Reminder
  raised : Bool

/-- The status once the due date is past. -/
def overdueStatus (status : Option PaymentStatus) (due today : Int) : Option PaymentStatus :=
  if (status = some .unpaid ∨ status = some .partiallyPaid) ∧ due < today then some .late
  else status

/-- What the loop over the offsets leaves in the row. -/
def StatementUpload.withSent (upload : StatementUpload) (state : Sending) (now : Int) :
    StatementUpload :=
  { upload with
    paymentSentOffsets :=
      if state.changed then some (state.alreadySent.dedup.insertionSort (· ≤ ·))
      else upload.paymentSentOffsets
    paymentLastRemindedAt := if state.sent then some now else upload.paymentLastRemindedAt }

/-- A turn of which something is owed. -/
def remind (offsets : List Int) (due today now : Int) (upload : StatementUpload) : Turn :=
  let (state, raised) := sendDue due today (upload.paymentStatus = some .late) offsets
    { alreadySent := upload.recorded, changed := false, sent := false }
  { upload := upload.withSent state now
    reminder := if state.sent then some ⟨upload.id, upload.paymentStatus, today - due⟩ else none
    raised := raised }

section

variable [UnicodeTables] [Readers] (offsets : List Int) (today now : Int)

def turn (upload : StatementUpload) : Turn :=
  match upload.due with
  | none => ⟨upload, none, false⟩
  | some due =>
    let updated := upload.withStatus (overdueStatus upload.paymentStatus due today)
    if staleDays < today - due then ⟨updated, none, false⟩
    else
      match upload.amountDue with
      | none => ⟨updated, none, (upload.totalAmountDue.bind parseAmount).isSome⟩
      | some amountDue =>
        if amountDue.ReachedBy 0 then ⟨upload.withStatus (some .paid), none, false⟩
        else remind offsets due today now updated

/-- The turns up to one that raises. -/
def turns : List StatementUpload → List Turn
  | [] => []
  | upload :: rest =>
    if (turn offsets today now upload).raised then [turn offsets today now upload]
    else turn offsets today now upload :: turns rest

end

/-- The row that is committed for a row. -/
def committed (turns : List Turn) (upload : StatementUpload) : StatementUpload :=
  ((turns.find? (·.upload.id = upload.id)).map (·.upload)).getD upload

theorem committed_id (turns : List Turn) (u : StatementUpload) : (committed turns u).id = u.id := by
  unfold committed
  cases h : turns.find? (·.upload.id = u.id) with
  | none => rfl
  | some t => simpa using List.find?_some h

namespace UploadTable

/-- The commit at the end of a poll. -/
def commit (table : UploadTable) (turns : List Turn) : UploadTable where
  rows := table.rows.map (committed turns)
  nodup_ids := by
    rw [List.map_map, Function.comp_def]
    simp only [committed_id]
    exact table.nodup_ids

end UploadTable

/-! ### Polls -/

structure Desk where
  uploads : UploadTable
  today : Int
  log : List Reminder

inductive DeskEvent
  /-- A poll; the notifications may be off. -/
  | poll (enabled : Bool) (today now : Int)
  /-- The statements are changed, or there are more of them. -/
  | edit (uploads : UploadTable)

section

variable [UnicodeTables] [Readers] (offsets : List Int)

/-- `check_and_send_reminders`: what is sent, and the statements after it. -/
def checkAndSendReminders (enabled : Bool) (today now : Int) (uploads : UploadTable) :
    List Reminder × UploadTable :=
  if ¬ enabled ∨ offsets = [] then ([], uploads)
  else
    let turns := turns offsets today now (remindedUploads uploads.rows)
    (turns.filterMap (·.reminder),
      if turns.any (·.raised) then uploads else uploads.commit turns)

/-- What an edit leaves alone. -/
def sentOffsets (upload : StatementUpload) : Nat × Option (List Int) :=
  (upload.id, upload.paymentSentOffsets)

/-- The polls, on dates that do not decrease, and the edits between them. -/
def reminding : System Desk DeskEvent where
  step s
    | .poll enabled today now =>
      if today < s.today then none
      else
        let (sent, uploads) := checkAndSendReminders offsets enabled today now s.uploads
        some ⟨uploads, today, s.log ++ sent⟩
    | .edit uploads =>
      if s.uploads.rows.map sentOffsets <+: uploads.rows.map sentOffsets then
        some ⟨uploads, s.today, s.log⟩
      else none

/-- The turn of the statement raises. -/
def Raises (today : Int) (u : StatementUpload) : Prop :=
  ∃ due ∈ u.due, today - due ≤ staleDays ∧
    (u.amountDue = none ∧ (u.totalAmountDue.bind parseAmount).isSome ∨
      ∃ amountDue, u.amountDue = some amountDue ∧ ¬ amountDue.ReachedBy 0 ∧
        ∃ offset ∈ offsets, offset ∉ u.recorded ∧ ¬ IsDate (due - offset) ∧
          ¬ (overdueStatus u.paymentStatus due today = some .late ∧ 0 < offset))

/-- No statement that the poll goes through raises; with the notifications off it goes through
none. -/
def Computes (s : Desk) : DeskEvent → Prop
  | .poll enabled today _ => enabled = true →
    ∀ u ∈ remindedUploads s.uploads.rows, ¬ Raises offsets today u
  | .edit _ => True

end

/-! ### The loop over the offsets -/

variable {due today now : Int} {late : Bool} {offsets : List Int} {state : Sending}

/-- An offset that is added to those sent and does not raise is not missed. -/
theorem exists_cons_iff {P : Int → Prop} {offset : Int} {rest sent : List Int} (h : ¬ P offset) :
    (∃ o ∈ rest, o ∉ offset :: sent ∧ P o) ↔
      (offset ∉ sent ∧ P offset) ∨ ∃ o ∈ rest, o ∉ sent ∧ P o := by
  constructor
  · rintro ⟨o, ho, hnew, hP⟩
    exact Or.inr ⟨o, ho, fun hmem => hnew (List.mem_cons_of_mem _ hmem), hP⟩
  · rintro (⟨-, hP⟩ | ⟨o, ho, hnew, hP⟩)
    · exact absurd hP h
    · refine ⟨o, ho, fun hmem => ?_, hP⟩
      rcases List.mem_cons.mp hmem with rfl | hmem
      · exact h hP
      · exact hnew hmem

/-- **When the loop raises.** -/
theorem sendDue_raised_iff (due today : Int) (late : Bool) (offsets : List Int) (state : Sending) :
    (sendDue due today late offsets state).2 = true ↔
    ∃ offset ∈ offsets, offset ∉ state.alreadySent ∧ ¬ IsDate (due - offset) ∧
      ¬ (late = true ∧ 0 < offset) := by
  induction offsets generalizing state with
  | nil => simp [sendDue]
  | cons offset rest ih =>
    rw [sendDue, List.exists_mem_cons_iff]
    split_ifs with hsent hlate hdate hdue
    · rw [ih]
      simp [hsent]
    · rw [ih]
      exact exists_cons_iff fun h => h.2 (by simpa using hlate)
    · rw [ih]
      exact exists_cons_iff fun h => h.1 hdate
    · rw [ih]
      exact ⟨Or.inr, fun h => h.resolve_left fun h => h.2.1 hdate⟩
    · exact iff_of_true rfl (Or.inl ⟨hsent, hdate, by simpa using hlate⟩)

/-- What the loop does to what was recorded: nothing is lost, and what is sent is recorded. -/
structure Records (offsets : List Int) (before after : Sending) : Prop where
  subset : before.alreadySent ⊆ after.alreadySent
  keeps_changed : before.changed = true → after.changed = true
  changed : after.changed = false → after.alreadySent = before.alreadySent ∧ after.sent = before.sent
  sent : after.sent = true → before.sent = false →
    ∃ offset ∈ offsets, offset ∉ before.alreadySent ∧ offset ∈ after.alreadySent

theorem Records.refl (offsets : List Int) (state : Sending) : Records offsets state state :=
  ⟨fun _ h => h, fun h => h, fun _ => ⟨rfl, rfl⟩, fun h h' => absurd (h.symm.trans h') nofun⟩

theorem sendDue_records (due today : Int) (late : Bool) (offsets : List Int) (state : Sending) :
    Records offsets state (sendDue due today late offsets state).1 := by
  induction offsets generalizing state with
  | nil => exact .refl _ _
  | cons offset rest ih =>
    have hkeep : Records rest state (sendDue due today late rest state).1 →
        Records (offset :: rest) state (sendDue due today late rest state).1 := fun h =>
      ⟨h.subset, h.keeps_changed, h.changed, fun hs hs' => by
        obtain ⟨o, ho, hnew, hold⟩ := h.sent hs hs'
        exact ⟨o, List.mem_cons_of_mem _ ho, hnew, hold⟩⟩
    have hadd : ∀ sent, offset ∉ state.alreadySent →
        Records rest ⟨offset :: state.alreadySent, true, sent⟩
          (sendDue due today late rest ⟨offset :: state.alreadySent, true, sent⟩).1 →
        Records (offset :: rest) state
          (sendDue due today late rest ⟨offset :: state.alreadySent, true, sent⟩).1 := by
      intro sent hnew h
      have hmem := h.subset List.mem_cons_self
      have hchanged := h.keeps_changed rfl
      refine ⟨fun o ho => h.subset (List.mem_cons_of_mem _ ho), fun _ => hchanged,
        fun hfalse => ?_, fun _ _ => ?_⟩
      · rw [hchanged] at hfalse
        cases hfalse
      · exact ⟨offset, List.mem_cons_self, hnew, hmem⟩
    rw [sendDue]
    split_ifs with hsent hlate hdate hdue
    · exact hkeep (ih state)
    · exact hadd state.sent hsent (ih _)
    · exact hadd true hsent (ih _)
    · exact hkeep (ih state)
    · exact .refl _ _

/-! ### A turn -/

section

variable [UnicodeTables] [Readers] {u : StatementUpload}

omit [UnicodeTables] [Readers] in
theorem mem_recorded {offset : Int} {sent : List Int} :
    offset ∈ sent.dedup.insertionSort (· ≤ ·) ↔ offset ∈ sent := by
  rw [List.mem_insertionSort, List.mem_dedup]

/-- **When a turn raises.** -/
theorem raised_iff (offsets : List Int) (today now : Int) (u : StatementUpload) :
    (turn offsets today now u).raised = true ↔ Raises offsets today u := by
  unfold turn Raises
  cases hdue : u.due with
  | none => exact iff_of_false nofun fun ⟨_, h, _⟩ => nomatch h
  | some due =>
    simp only [Option.mem_def, Option.some.injEq, exists_eq_left']
    by_cases hstale : staleDays < today - due
    · rw [if_pos hstale]
      exact iff_of_false nofun fun h => absurd h.1 (not_le.mpr hstale)
    · rw [if_neg hstale, and_iff_right (not_lt.mp hstale)]
      cases hamount : u.amountDue with
      | none => simp
      | some amountDue =>
        by_cases hpaid : amountDue.ReachedBy 0
        · simp [hpaid]
        · have hloop := sendDue_raised_iff due today
            (overdueStatus u.paymentStatus due today = some .late) offsets
            { alreadySent := u.recorded, changed := false, sent := false }
          simp only [if_neg hpaid, remind]
          refine hloop.trans ?_
          simp [hpaid]

instance (offsets : List Int) (today : Int) (u : StatementUpload) :
    Decidable (Raises offsets today u) :=
  decidable_of_iff _ (raised_iff offsets today 0 u)

instance (offsets : List Int) (s : Desk) : DecidablePred (Computes offsets s)
  | .poll enabled today _ =>
    inferInstanceAs (Decidable (enabled = true →
      ∀ u ∈ remindedUploads s.uploads.rows, ¬ Raises offsets today u))
  | .edit _ => inferInstanceAs (Decidable True)

/-- What a turn sends and records. -/
structure TurnSpec (offsets : List Int) (u : StatementUpload) (t : Turn) : Prop where
  id_eq : t.upload.id = u.id
  subset : u.recorded ⊆ t.upload.recorded
  uploadId_eq : ∀ r ∈ t.reminder, r.uploadId = u.id
  fresh : ∀ r ∈ t.reminder, ∃ offset ∈ offsets, offset ∉ u.recorded ∧ offset ∈ t.upload.recorded
  in_grace : ∀ r ∈ t.reminder, r.daysPast ≤ staleDays
  unpaid : u.paymentStatus ≠ some .paid → ∀ r ∈ t.reminder, r.status ≠ some .paid

omit [UnicodeTables] [Readers] in
theorem overdueStatus_ne_paid {status : Option PaymentStatus} (h : status ≠ some .paid) :
    overdueStatus status due today ≠ some .paid := by
  unfold overdueStatus
  split_ifs
  · nofun
  · exact h

omit [UnicodeTables] [Readers] in
theorem remind_spec (offsets : List Int) (due today now : Int) (u : StatementUpload)
    (hgrace : today - due ≤ staleDays) : TurnSpec offsets u (remind offsets due today now u) := by
  unfold remind
  generalize decide (u.paymentStatus = some .late) = late
  have hrecords := sendDue_records due today late offsets
    { alreadySent := u.recorded, changed := false, sent := false }
  generalize sendDue due today late offsets
    { alreadySent := u.recorded, changed := false, sent := false } = result at hrecords
  obtain ⟨state, raised⟩ := result
  dsimp only at hrecords ⊢
  have hstored : ∀ o, o ∈ (u.withSent state now).recorded ↔ o ∈ state.alreadySent := by
    intro o
    cases hchanged : state.changed with
    | false =>
      rw [(hrecords.changed hchanged).1]
      simp [StatementUpload.withSent, StatementUpload.recorded, hchanged]
    | true =>
      simp only [StatementUpload.withSent, StatementUpload.recorded, hchanged, if_true,
        Option.getD_some]
      exact mem_recorded
  have hsent : ∀ r ∈ (if state.sent then some ⟨u.id, u.paymentStatus, today - due⟩ else none),
      state.sent = true ∧ r = (⟨u.id, u.paymentStatus, today - due⟩ : Reminder) := by
    intro r hr
    split_ifs at hr with h
    · exact ⟨h, (Option.some.inj hr).symm⟩
    · cases hr
  refine ⟨rfl, fun o ho => (hstored o).mpr (hrecords.subset ho), fun r hr => ?_, fun r hr => ?_,
    fun r hr => ?_, fun hunpaid r hr => ?_⟩
  · rw [(hsent r hr).2]
  · obtain ⟨o, ho, hnew, hold⟩ := hrecords.sent (hsent r hr).1 rfl
    exact ⟨o, ho, hnew, (hstored o).mpr hold⟩
  · rw [(hsent r hr).2]
    exact hgrace
  · rw [(hsent r hr).2]
    exact hunpaid

theorem turn_spec (offsets : List Int) (today now : Int) (u : StatementUpload) :
    TurnSpec offsets u (turn offsets today now u) := by
  have hsilent : ∀ status raised, TurnSpec offsets u ⟨u.withStatus status, none, raised⟩ :=
    fun status raised => ⟨rfl, fun _ ho => ho, nofun, nofun, nofun, nofun⟩
  unfold turn
  cases hdue : u.due with
  | none => exact hsilent u.paymentStatus false
  | some due =>
    dsimp only
    by_cases hstale : staleDays < today - due
    · rw [if_pos hstale]
      exact hsilent _ _
    · rw [if_neg hstale]
      cases hamount : u.amountDue with
      | none => exact hsilent _ _
      | some amountDue =>
        by_cases hpaid : amountDue.ReachedBy 0
        · simp only [if_pos hpaid]
          exact hsilent _ _
        · simp only [if_neg hpaid]
          have hspec := remind_spec offsets due today now
            (u.withStatus (overdueStatus u.paymentStatus due today)) (not_lt.mp hstale)
          exact ⟨hspec.id_eq, hspec.subset, hspec.uploadId_eq, hspec.fresh, hspec.in_grace,
            fun hunpaid => hspec.unpaid (overdueStatus_ne_paid hunpaid)⟩

/-! ### A poll -/

variable {uploads rows : List StatementUpload} {table : UploadTable} {t : Turn}

theorem mem_turns (h : t ∈ turns offsets today now uploads) :
    ∃ u ∈ uploads, t = turn offsets today now u := by
  induction uploads with
  | nil => cases h
  | cons upload rest ih =>
    unfold turns at h
    split_ifs at h
    · exact ⟨upload, List.mem_cons_self, List.mem_singleton.mp h⟩
    · rcases List.mem_cons.mp h with rfl | h
      · exact ⟨upload, List.mem_cons_self, rfl⟩
      · obtain ⟨u, hu, ht⟩ := ih h
        exact ⟨u, List.mem_cons_of_mem _ hu, ht⟩

theorem map_id_turns : ((turns offsets today now uploads).map (·.upload.id)).Sublist
    (uploads.map (·.id)) := by
  induction uploads with
  | nil => exact .slnil
  | cons upload rest ih =>
    have hid := (turn_spec offsets today now upload).id_eq
    unfold turns
    split_ifs
    · rw [List.map_singleton, List.map_cons, hid]
      exact (List.nil_sublist _).cons_cons _
    · rw [List.map_cons, List.map_cons, hid]
      exact ih.cons_cons _

theorem nodup_remindedUploads (table : UploadTable) :
    ((remindedUploads table.rows).map (·.id)).Nodup := by
  have haccounts : ((remindedUploads table.rows).map (·.accountId)).Nodup := nodup_accounts _
  refine haccounts.of_map.map_on fun u hu v hv hid => ?_
  have hrow : ∀ w ∈ remindedUploads table.rows, w ∈ table.rows := fun w hw =>
    (mem_select.mp (latestPerAccount_spec hw).1).1
  exact table.eq_of_id (hrow u hu) (hrow v hv) hid

/-- What a poll sends and commits. -/
structure PollSpec (rows : List StatementUpload) (sent : List Reminder)
    (rows' : List StatementUpload) : Prop where
  at_most_one : ∀ id, sent.countP (·.uploadId = id) ≤ 1
  known : ∀ r ∈ sent, ∃ u ∈ rows, u.id = r.uploadId
  in_grace : ∀ r ∈ sent, r.daysPast ≤ staleDays
  unpaid : ∀ r ∈ sent, r.status ≠ some .paid
  grows : ∀ u ∈ rows, ∃ v ∈ rows', v.id = u.id ∧ u.recorded ⊆ v.recorded
  same : ∀ v ∈ rows', ∃ u ∈ rows, u.id = v.id

theorem unpaid_of_reminded (h : u ∈ remindedUploads rows) : u.paymentStatus ≠ some .paid := by
  have hactive := (mem_select.mp (latestPerAccount_spec h).1).2 _ List.mem_cons_self
  obtain ⟨status, hmem, hstatus⟩ := holds_isIn.mp hactive
  rw [hstatus]
  rintro hpaid
  rw [Option.some.inj hpaid] at hmem
  revert hmem
  decide

/-- What is committed for a row: its turn, or the row if it had none. -/
theorem committed_cases (offsets : List Int) (today now : Int) (hu : u ∈ table.rows)
    {ts : List Turn} (hts : ts = turns offsets today now (remindedUploads table.rows)) :
    (turn offsets today now u ∈ ts ∧ committed ts u = (turn offsets today now u).upload) ∨
      (committed ts u = u ∧ ∀ t ∈ ts, t.upload.id ≠ u.id) := by
  unfold committed
  cases hfind : ts.find? (·.upload.id = u.id) with
  | none =>
    refine Or.inr ⟨rfl, fun t ht => ?_⟩
    simpa using List.find?_eq_none.mp hfind t ht
  | some t =>
    have hmem := List.mem_of_find?_eq_some hfind
    have hid : t.upload.id = u.id := by simpa using List.find?_some hfind
    obtain ⟨v, hv, rfl⟩ := mem_turns (hts ▸ hmem)
    rw [(turn_spec offsets today now v).id_eq] at hid
    have hrow := (mem_select.mp (latestPerAccount_spec hv).1).1
    obtain rfl := table.eq_of_id hrow hu hid
    exact Or.inl ⟨hmem, rfl⟩

theorem mem_sent {r : Reminder}
    (h : r ∈ (turns offsets today now (remindedUploads rows)).filterMap (·.reminder)) :
    ∃ u ∈ remindedUploads rows, turn offsets today now u ∈ turns offsets today now (remindedUploads rows) ∧
      r ∈ (turn offsets today now u).reminder := by
  obtain ⟨t, ht, hr⟩ := List.mem_filterMap.mp h
  obtain ⟨u, hu, rfl⟩ := mem_turns ht
  exact ⟨u, hu, ht, hr⟩

theorem countP_sent_le (id : Nat) :
    ((turns offsets today now (remindedUploads table.rows)).filterMap (·.reminder)).countP
      (·.uploadId = id) ≤ 1 := by
  have hsub : ∀ ts : List Turn, (∀ t ∈ ts, ∀ r ∈ t.reminder, r.uploadId = t.upload.id) →
      ((ts.filterMap (·.reminder)).map (·.uploadId)).Sublist (ts.map (·.upload.id)) := by
    intro ts hts
    induction ts with
    | nil => exact .slnil
    | cons t ts ih =>
      have hrest := ih fun t ht => hts t (List.mem_cons_of_mem _ ht)
      cases hr : t.reminder with
      | none =>
        rw [List.filterMap_cons_none hr]
        exact hrest.cons _
      | some r =>
        rw [List.filterMap_cons_some hr, List.map_cons, List.map_cons,
          hts t List.mem_cons_self r hr]
        exact hrest.cons_cons _
  have hids := hsub (turns offsets today now (remindedUploads table.rows)) fun t ht r hr => by
    obtain ⟨u, -, rfl⟩ := mem_turns ht
    have hspec := turn_spec offsets today now u
    rw [hspec.uploadId_eq r hr, hspec.id_eq]
  have hnodup := (nodup_remindedUploads table).sublist (hids.trans map_id_turns)
  have hcount := List.nodup_iff_count_le_one.mp hnodup id
  rw [List.count_eq_countP, List.countP_map] at hcount
  refine (List.countP_congr fun r _ => ?_).trans_le hcount
  simp

theorem poll_spec (offsets : List Int) (enabled : Bool) (today now : Int) (table : UploadTable) :
    PollSpec table.rows
    (checkAndSendReminders offsets enabled today now table).1
    (checkAndSendReminders offsets enabled today now table).2.rows := by
  have hstay : ∀ u ∈ table.rows, ∃ v ∈ table.rows, v.id = u.id ∧ u.recorded ⊆ v.recorded :=
    fun u hu => ⟨u, hu, rfl, fun _ ho => ho⟩
  unfold checkAndSendReminders
  split_ifs with hoff
  · exact ⟨fun _ => by simp, nofun, nofun, nofun, hstay, fun v hv => ⟨v, hv, rfl⟩⟩
  · refine ⟨countP_sent_le, fun r hr => ?_, fun r hr => ?_, fun r hr => ?_, ?_, ?_⟩
    · obtain ⟨u, hu, -, hr⟩ := mem_sent hr
      exact ⟨u, (mem_select.mp (latestPerAccount_spec hu).1).1,
        ((turn_spec offsets today now u).uploadId_eq r hr).symm⟩
    · obtain ⟨u, hu, -, hr⟩ := mem_sent hr
      exact (turn_spec offsets today now u).in_grace r hr
    · obtain ⟨u, hu, -, hr⟩ := mem_sent hr
      exact (turn_spec offsets today now u).unpaid (unpaid_of_reminded hu) r hr
    · dsimp only
      split_ifs
      · exact hstay
      · intro u hu
        refine ⟨_, List.mem_map_of_mem hu, committed_id _ u, ?_⟩
        rcases committed_cases offsets today now hu rfl with ⟨-, hturn⟩ | ⟨hturn, -⟩
        · rw [hturn]
          exact (turn_spec offsets today now u).subset
        · rw [hturn]
          exact fun _ ho => ho
    · dsimp only
      split_ifs
      · exact fun v hv => ⟨v, hv, rfl⟩
      · intro v hv
        obtain ⟨u, hu, rfl⟩ := List.mem_map.mp hv
        exact ⟨u, hu, (committed_id _ u).symm⟩

/-- **What a poll sends it records**, if it raises nowhere. -/
theorem poll_records {enabled : Bool} {v : StatementUpload} {r : Reminder}
    (hcomputes : enabled = true → ∀ u ∈ remindedUploads table.rows, ¬ Raises offsets today u)
    (hu : u ∈ table.rows)
    (hv : v ∈ (checkAndSendReminders offsets enabled today now table).2.rows) (hid : v.id = u.id)
    (hr : r ∈ (checkAndSendReminders offsets enabled today now table).1)
    (hupload : r.uploadId = u.id) :
    ∃ offset ∈ offsets, offset ∉ u.recorded ∧ offset ∈ v.recorded := by
  unfold checkAndSendReminders at hv hr
  by_cases hoff : ¬ enabled ∨ offsets = []
  · rw [if_pos hoff] at hr
    cases hr
  · have henabled : enabled = true := of_not_not fun hdisabled => hoff (.inl hdisabled)
    have hnone : ¬ (turns offsets today now (remindedUploads table.rows)).any (·.raised) = true := by
      intro hany
      obtain ⟨t, ht, hraised⟩ := List.any_eq_true.mp hany
      obtain ⟨w, hw, rfl⟩ := mem_turns ht
      exact hcomputes henabled w hw ((raised_iff _ _ _ _).mp hraised)
    rw [if_neg hoff] at hv hr
    dsimp only at hv hr
    rw [if_neg hnone] at hv
    obtain ⟨w, hw, rfl⟩ := List.mem_map.mp hv
    rw [committed_id] at hid
    obtain rfl := table.eq_of_id hw hu hid
    obtain ⟨w', hw', hmem, hr⟩ := mem_sent hr
    have hspec := turn_spec offsets today now w'
    have hrow := (mem_select.mp (latestPerAccount_spec hw').1).1
    obtain rfl := table.eq_of_id hrow hw ((hspec.uploadId_eq r hr).symm.trans hupload)
    rcases committed_cases offsets today now hw rfl with ⟨-, hturn⟩ | ⟨-, hnone⟩
    · rw [hturn]
      exact hspec.fresh r hr
    · exact absurd hspec.id_eq (hnone _ hmem)

/-! ### Runs -/

/-- The messages are bounded by the offsets recorded. -/
structure Accounted (offsets : List Int) (s : Desk) : Prop where
  known : ∀ r ∈ s.log, ∃ u ∈ s.uploads.rows, u.id = r.uploadId
  bounded : ∀ u ∈ s.uploads.rows,
    s.log.countP (·.uploadId = u.id) ≤ offsets.dedup.countP (· ∈ u.recorded)
  in_grace : ∀ r ∈ s.log, r.daysPast ≤ staleDays
  unpaid : ∀ r ∈ s.log, r.status ≠ some .paid

variable {s s' : Desk} {e : DeskEvent}

omit [UnicodeTables] [Readers] in
theorem countP_lt {l : List Int} {p q : Int → Bool} {a : Int} (h : ∀ b ∈ l, p b = true → q b = true)
    (ha : a ∈ l) (hp : ¬ p a = true) (hq : q a = true) : l.countP p < l.countP q := by
  refine lt_of_le_of_ne (List.countP_mono_left h) fun heq => hp ?_
  rw [List.countP_eq_length_filter, List.countP_eq_length_filter] at heq
  have hfilter : (l.filter p).Sublist (l.filter q) := by
    have hboth : l.filter p = (l.filter q).filter p := by
      rw [List.filter_filter]
      refine List.filter_congr fun b hb => ?_
      cases hpb : p b with
      | false => rfl
      | true => simp [h b hb hpb]
    rw [hboth]
    exact List.filter_sublist
  have hmem : a ∈ l.filter p := by
    rw [hfilter.eq_of_length heq]
    exact List.mem_filter.mpr ⟨ha, hq⟩
  exact (List.mem_filter.mp hmem).2

/-- **A step that raises nowhere keeps the messages bounded.** -/
theorem step_accounted (h : Accounted offsets s) (hcomputes : Computes offsets s e)
    (hstep : (reminding offsets).step s e = some s') : Accounted offsets s' := by
  cases e with
  | poll enabled today now =>
    simp only [reminding] at hstep
    split_ifs at hstep
    obtain rfl := Option.some.inj hstep
    have hpoll := poll_spec offsets enabled today now s.uploads
    refine ⟨fun r hr => ?_, fun v hv => ?_, fun r hr => ?_, fun r hr => ?_⟩
    · have hold : ∃ u ∈ s.uploads.rows, u.id = r.uploadId :=
        (List.mem_append.mp hr).elim (h.known r) (hpoll.known r)
      obtain ⟨u, hu, hid⟩ := hold
      obtain ⟨v, hv, hid', -⟩ := hpoll.grows u hu
      exact ⟨v, hv, hid'.trans hid⟩
    · obtain ⟨u, hu, hid⟩ := hpoll.same v hv
      obtain ⟨w, hw, hid', hsubset⟩ := hpoll.grows u hu
      obtain rfl := UploadTable.eq_of_id hw hv (hid'.trans hid)
      have hbefore := h.bounded u hu
      have hone := hpoll.at_most_one w.id
      have hmono : ∀ o ∈ offsets.dedup, (decide (o ∈ u.recorded)) = true →
          (decide (o ∈ w.recorded)) = true := fun o _ ho => by
        simpa using hsubset (by simpa using ho)
      dsimp only
      rw [List.countP_append, ← hid]
      rw [← hid] at hone
      by_cases hsent : ∃ r ∈ (checkAndSendReminders offsets enabled today now s.uploads).1,
          r.uploadId = u.id
      · obtain ⟨r, hr, hupload⟩ := hsent
        obtain ⟨o, ho, hnew, hold⟩ := poll_records hcomputes hu hw hid' hr hupload
        have hlt := countP_lt hmono (List.mem_dedup.mpr ho) (by simpa using hnew) (by simpa using hold)
        omega
      · have hzero : (checkAndSendReminders offsets enabled today now s.uploads).1.countP
            (·.uploadId = u.id) = 0 :=
          List.countP_eq_zero.mpr fun r hr => by simpa using fun heq => hsent ⟨r, hr, heq⟩
        rw [hzero]
        exact hbefore.trans (List.countP_mono_left hmono)
    · exact (List.mem_append.mp hr).elim (h.in_grace r) (hpoll.in_grace r)
    · exact (List.mem_append.mp hr).elim (h.unpaid r) (hpoll.unpaid r)
  | edit uploads =>
    simp only [reminding] at hstep
    split_ifs at hstep with hedit
    obtain rfl := Option.some.inj hstep
    refine ⟨fun r hr => ?_, fun v hv => ?_, h.in_grace, h.unpaid⟩
    · obtain ⟨u, hu, hid⟩ := h.known r hr
      obtain ⟨v, hv, heq⟩ := List.mem_map.mp (hedit.subset (List.mem_map_of_mem hu))
      exact ⟨v, hv, (congrArg Prod.fst heq).trans hid⟩
    · by_cases hold : ∃ u ∈ s.uploads.rows, u.id = v.id
      · obtain ⟨u, hu, hid⟩ := hold
        obtain ⟨w, hw, heq⟩ := List.mem_map.mp (hedit.subset (List.mem_map_of_mem hu))
        obtain rfl := uploads.eq_of_id hw hv ((congrArg Prod.fst heq).trans hid)
        have hrecorded : w.recorded = u.recorded :=
          congrArg (fun o : Option (List Int) => o.getD []) (congrArg Prod.snd heq)
        rw [hrecorded, ← hid]
        exact h.bounded u hu
      · have hzero : s.log.countP (·.uploadId = v.id) = 0 := by
          refine List.countP_eq_zero.mpr fun r hr => ?_
          obtain ⟨u, hu, hid⟩ := h.known r hr
          simpa using fun heq => hold ⟨u, hu, hid.trans heq⟩
        rw [hzero]
        exact Nat.zero_le _

/-- What is sent up to a state of a run, and in the step after it. -/
structure Once (offsets : List Int) (s : Desk) : Prop where
  bounded : ∀ id, s.log.countP (·.uploadId = id) ≤ offsets.dedup.length
  in_grace : ∀ r ∈ s.log, r.daysPast ≤ staleDays
  unpaid : ∀ r ∈ s.log, r.status ≠ some .paid
  per_step : ∀ e s', (reminding offsets).step s e = some s' →
    ∀ id, s'.log.countP (·.uploadId = id) ≤ s.log.countP (·.uploadId = id) + 1
  grows : ∀ e s', (reminding offsets).step s e = some s' →
    ∀ u ∈ s.uploads.rows, ∃ v ∈ s'.uploads.rows, v.id = u.id ∧ u.recorded ⊆ v.recorded

theorem step_sends (hstep : (reminding offsets).step s e = some s') (id : Nat) :
    s'.log.countP (·.uploadId = id) ≤ s.log.countP (·.uploadId = id) + 1 := by
  cases e with
  | poll enabled today now =>
    simp only [reminding] at hstep
    split_ifs at hstep
    obtain rfl := Option.some.inj hstep
    dsimp only
    rw [List.countP_append]
    exact Nat.add_le_add_left ((poll_spec offsets enabled today now s.uploads).at_most_one id) _
  | edit uploads =>
    simp only [reminding] at hstep
    split_ifs at hstep
    obtain rfl := Option.some.inj hstep
    exact Nat.le_succ _

theorem step_grows (hstep : (reminding offsets).step s e = some s') {u : StatementUpload}
    (hu : u ∈ s.uploads.rows) : ∃ v ∈ s'.uploads.rows, v.id = u.id ∧ u.recorded ⊆ v.recorded := by
  cases e with
  | poll enabled today now =>
    simp only [reminding] at hstep
    split_ifs at hstep
    obtain rfl := Option.some.inj hstep
    exact (poll_spec offsets enabled today now s.uploads).grows u hu
  | edit uploads =>
    simp only [reminding] at hstep
    split_ifs at hstep with hedit
    obtain rfl := Option.some.inj hstep
    obtain ⟨v, hv, heq⟩ := List.mem_map.mp (hedit.subset (List.mem_map_of_mem hu))
    have hrecorded : v.recorded = u.recorded :=
      congrArg (fun o : Option (List Int) => o.getD []) (congrArg Prod.snd heq)
    exact ⟨v, hv, congrArg Prod.fst heq, fun _ ho => hrecorded ▸ ho⟩

/-- **Reminders are sent once per offset**, over every run whose polls raise nowhere. -/
theorem reminders_once (hlog : s.log = [])
    (hrun : (reminding offsets).Run (Computes offsets) s s') : Once offsets s' := by
  have hstart : Accounted offsets s := by
    refine ⟨fun r hr => ?_, fun u hu => ?_, fun r hr => ?_, fun r hr => ?_⟩
    · rw [hlog] at hr
      cases hr
    · rw [hlog]
      exact Nat.zero_le _
    · rw [hlog] at hr
      cases hr
    · rw [hlog] at hr
      cases hr
  have hend := hrun.invariant (fun _ _ _ h hok hstep => step_accounted h hok hstep) hstart
  refine ⟨fun id => ?_, hend.in_grace, hend.unpaid, fun e t h => step_sends h,
    fun e t h u hu => step_grows h hu⟩
  by_cases hrow : ∃ u ∈ s'.uploads.rows, u.id = id
  · obtain ⟨u, hu, rfl⟩ := hrow
    exact (hend.bounded u hu).trans List.countP_le_length
  · have hzero : s'.log.countP (·.uploadId = id) = 0 := by
      refine List.countP_eq_zero.mpr fun r hr => ?_
      obtain ⟨u, hu, hid⟩ := hend.known r hr
      simpa using fun heq => hrow ⟨u, hu, hid.trans heq⟩
    rw [hzero]
    exact Nat.zero_le _

end

/-! ### A day on which a bill is due -/

def dueToday : Desk where
  uploads := ⟨[april], by decide⟩
  today := 739726
  log := []

def pollToday : DeskEvent := .poll true 739726 0

/-- An offset that leads out of the calendar: every poll sends the message again. -/
theorem reminders_repeat :
    let _ := asciiTables
    let _ := plainReaders
    ∃ t, (reminding [0, 1000000]).exec dueToday [pollToday, pollToday, pollToday] = some t ∧
      t.log.countP (·.uploadId = 1) = 3 ∧ ¬ Once [0, 1000000] t := by
  intro _ _
  have hview : ((reminding [0, 1000000]).exec dueToday [pollToday, pollToday, pollToday]).map
      (fun t => t.log.countP (·.uploadId = 1)) = some 3 := by decide +kernel
  obtain ⟨t, ht, hcount⟩ := Option.map_eq_some_iff.mp hview
  refine ⟨t, ht, hcount, fun h => ?_⟩
  have hbound := h.bounded 1
  rw [hcount] at hbound
  exact absurd hbound (by decide)

/-- With the default offsets one message is sent. -/
theorem reminders_once_today :
    let _ := asciiTables
    let _ := plainReaders
    ∃ t, (reminding [7, 3, 1, 0]).exec dueToday [pollToday] = some t ∧
      t.log.countP (·.uploadId = 1) = 1 ∧ Once [7, 3, 1, 0] t := by
  intro _ _
  have hview : ((reminding [7, 3, 1, 0]).exec dueToday [pollToday]).map
      (fun t => t.log.countP (·.uploadId = 1)) = some 1 := by decide +kernel
  have hreminded : ∀ u ∈ remindedUploads dueToday.uploads.rows, u = april := by decide +kernel
  have hcomputes : ¬ Raises [7, 3, 1, 0] 739726 april := by decide +kernel
  have hmeets : (reminding [7, 3, 1, 0]).Meets (Computes [7, 3, 1, 0]) dueToday [pollToday] :=
    ⟨fun _ u hu => hreminded u hu ▸ hcomputes, fun _ _ => trivial⟩
  obtain ⟨t, ht, hrun, hcount⟩ := System.run_of_view hmeets hview
  exact ⟨t, ht, hcount, reminders_once rfl hrun⟩

end FinancialDashboard.Payments
