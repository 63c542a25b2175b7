import FinancialDashboard.Transactions.SmsLinks
import FinancialDashboard.Lib.StableCase

/-!
# Completion legs

A completion leg carries the reference of an event that an earlier message recorded.
`_complete_reference` looks for the one row it belongs to, among the rows with the amount and
the date of the leg, and writes the reference there; where it finds none, or several, it leaves
the message unpaired.  `uq_transactions_ref` asks more: no row at all with the bank and the
direction may have the reference.  A row of another amount, date or channel that has it is
not among those the leg is compared with, and the flush of the stamped row raises.

* `completeReference_closed_iff`: the leg stamps its row or changes nothing, up to such a row.
* `processSms_closed_iff`: the same of a message that the parser calls a completion.
* `not_closed`: a bill paid by the reference that another row has.
-/

namespace FinancialDashboard.Transactions

open PyTime PyText

variable {t t' : TxnTable} {s : SmsRow} {txn : TxnData} {primary row : Transaction}

/-! ### What a completion leg may do -/

/-- The primary row, with the details of the leg on it. -/
structure Details (txn : TxnData) (primary row : Transaction) [UnicodeTables] : Prop where
  rest : row = { primary with
    referenceNumber := row.referenceNumber
    counterparty := row.counterparty }
  reference : strippedReference row.referenceNumber = strippedReference txn.referenceNumber
  counterparty : row.counterparty = primary.counterparty ∨
    primary.counterparty = none ∧ row.counterparty = txn.counterparty

/-- The leg stamps its details on one row, or the table stays and the message names no row. -/
inductive FailsClosed [UnicodeTables] (t : TxnTable) (link : Option Nat) (txn : Option TxnData) :
    Except MergeError (TxnTable × SmsRow × ProcessSmsOutcome) → Prop
  /-- A reparse finds the row that the message is linked to. -/
  | stamped {t' : TxnTable} {s' : SmsRow} {leg : TxnData} {primary row : Transaction}
      (data : txn = some leg) (mem : primary ∈ t.rows)
      (chosen : link = some primary.id ∨ findCompletionPrimary t.rows leg = .ok primary)
      (details : Details leg primary row) (rows : t'.rows = TxnTable.replaceRow t.rows row)
      (status : s'.status = .parsed) (linked : s'.transactionId = some primary.id) :
      FailsClosed t link txn (.ok (t', s', ⟨.parsed, some primary.id⟩))
  | left {s' : SmsRow} (status : s'.status = .skipped) :
      FailsClosed t link txn (.ok (t, s', ⟨.skipped, none⟩))
  /-- A declined event is no leg: it is recorded as what it is. -/
  | declined {s' : SmsRow} {leg : TxnData} (data : txn = some leg)
      (direction : leg.direction = declinedDirection) (status : s'.status = .parsed) :
      FailsClosed t link txn (.ok (t, s', ⟨.parsed, none⟩))

/-- The message has completed its row before. -/
def Completed [UnicodeTables] (t : TxnTable) (s : SmsRow) (txn : TxnData) : Prop :=
  ∃ r ∈ t.rows, s.transactionId = some r.id ∧
    strippedReference r.referenceNumber = strippedReference txn.referenceNumber

/-- Another row has the reference that is to be written. -/
def Blocked [UnicodeTables] (t : TxnTable) (s : SmsRow) (txn : TxnData) : Prop :=
  ¬ Completed t s txn ∧ ∃ primary, findCompletionPrimary t.rows txn = .ok primary ∧
    ∃ r ∈ t.rows, r.id ≠ primary.id ∧ r.bank = txn.bank ∧ r.direction = txn.direction ∧
      r.referenceNumber = some (strippedReference txn.referenceNumber)

/-! ### The rows that are compared -/

theorem replaceRow_self (t : TxnTable) (h : row ∈ t.rows) :
    TxnTable.replaceRow t.rows row = t.rows := by
  unfold TxnTable.replaceRow
  conv_rhs => rw [← List.map_id t.rows]
  refine List.map_congr_left fun r hr => ?_
  split_ifs with hid
  · exact TxnTable.eq_of_id h hr hid.symm
  · rfl

variable [UnicodeTables]

/-- **The index refuses the stamped row only for a row that has the reference.** -/
theorem clash_completedRow_iff {r : Transaction}
    (h : findCompletionPrimary t.rows txn = .ok primary) :
    Clash r (completedRow primary txn (strippedReference txn.referenceNumber)) ↔
      r.bank = txn.bank ∧ r.direction = txn.direction ∧
        r.referenceNumber = some (strippedReference txn.referenceNumber) := by
  have hquery := (findCompletionPrimary_spec h).2
  unfold completionQuery at hquery
  simp only [Bool.and_eq_true, decide_eq_true_eq] at hquery
  obtain ⟨⟨⟨⟨⟨⟨hbank, hdirection⟩, -⟩, -⟩, -⟩, -⟩, -⟩ := hquery
  unfold Clash completedRow
  dsimp only
  rw [hbank, hdirection]
  simp

theorem details_completedRow :
    Details txn primary (completedRow primary txn (strippedReference txn.referenceNumber)) where
  rest := rfl
  reference := strip_strip _
  counterparty := by
    unfold completedRow
    dsimp only
    split_ifs with h
    · exact .inr ⟨h.1, rfl⟩
    · exact .inl rfl

theorem completed_iff_filter :
    (∃ r, (s.transactionId.bind fun id => t.rows.find? (·.id = id)).filter
      (strippedReference ·.referenceNumber = strippedReference txn.referenceNumber) = some r) ↔
      Completed t s txn := by
  constructor
  · rintro ⟨r, hr⟩
    obtain ⟨hbind, hreference⟩ := Option.filter_eq_some_iff.mp hr
    obtain ⟨id, hid, hfind⟩ := Option.bind_eq_some_iff.mp hbind
    have hrid := List.find?_some hfind
    exact ⟨r, List.mem_of_find?_eq_some hfind, by rw [hid, of_decide_eq_true hrid],
      of_decide_eq_true hreference⟩
  · rintro ⟨r, hr, hid, hreference⟩
    refine ⟨r, Option.filter_eq_some_iff.mpr ⟨?_, decide_eq_true hreference⟩⟩
    rw [hid, Option.bind_some]
    exact TxnTable.find_of_mem hr rfl

/-! ### The leg -/

/-- **A leg fails closed up to a row that has its reference.** -/
theorem completeReference_closed_iff :
    FailsClosed t s.transactionId (some txn) (completeReference t s txn) ↔ ¬ Blocked t s txn := by
  have hcompleted : (∃ r, (s.transactionId.bind fun id => t.rows.find? (·.id = id)).filter
      (strippedReference ·.referenceNumber = strippedReference txn.referenceNumber) = some r) ↔
      Completed t s txn := completed_iff_filter
  unfold completeReference
  dsimp only
  split_ifs with hnothing
  · -- without a reference or a channel no row is looked for
    refine iff_of_true (.left rfl) ?_
    rintro ⟨-, primary, hprimary, -⟩
    unfold findCompletionPrimary at hprimary
    dsimp only at hprimary
    rw [if_pos hnothing] at hprimary
    cases hprimary
  · split
    · rename_i existing hexisting
      have hdone : Completed t s txn := hcompleted.mp ⟨existing, hexisting⟩
      refine iff_of_true ?_ fun hblocked => hblocked.1 hdone
      obtain ⟨hbind, hreference⟩ := Option.filter_eq_some_iff.mp hexisting
      obtain ⟨id, hid, hfind⟩ := Option.bind_eq_some_iff.mp hbind
      have hmem : existing ∈ t.rows := List.mem_of_find?_eq_some hfind
      have hlink : s.transactionId = some existing.id := by
        have hrid := List.find?_some hfind
        rw [hid, of_decide_eq_true hrid]
      exact .stamped rfl hmem (.inl hlink) ⟨rfl, of_decide_eq_true hreference, .inl rfl⟩
        (replaceRow_self t hmem).symm rfl hlink
    · rename_i hnone
      have hnew : ¬ Completed t s txn := fun hdone => by
        obtain ⟨r, hr⟩ := hcompleted.mpr hdone
        rw [hr] at hnone
        cases hnone
      cases hprimary : findCompletionPrimary t.rows txn with
      | error count =>
        refine iff_of_true (.left rfl) ?_
        rintro ⟨-, primary, hfound, -⟩
        rw [hprimary] at hfound
        cases hfound
      | ok primary =>
        dsimp only
        cases hupdate : t.updateRow
            (completedRow primary txn (strippedReference txn.referenceNumber)) with
        | ok t' =>
          refine iff_of_true ?_ ?_
          · exact .stamped rfl (findCompletionPrimary_spec hprimary).1 (.inr hprimary)
              details_completedRow (TxnTable.rows_of_updateRow hupdate) rfl rfl
          · rintro ⟨-, found, hfound, r, hr, hne, hkeys⟩
            obtain rfl : primary = found := Except.ok.inj (hprimary.symm.trans hfound)
            exact TxnTable.not_clash_of_updateRow hupdate r hr hne
              ((clash_completedRow_iff hprimary).mpr hkeys)
        | error e =>
          refine iff_of_false nofun (not_not_intro ⟨hnew, primary, hprimary, ?_⟩)
          by_contra hfree
          obtain ⟨t', ht'⟩ : ∃ t', t.updateRow
              (completedRow primary txn (strippedReference txn.referenceNumber)) = .ok t' :=
            TxnTable.updateRow_of_not_clash
            fun r hr hne hclash => hfree ⟨r, hr, hne, (clash_completedRow_iff hprimary).mp hclash⟩
          rw [hupdate] at ht'
          cases ht'

/-! ### The message -/

variable {parseSms : SmsPayload → SmsParse} {parsed : ParsedSms}
  {forceNew settleProvisional : Bool}

/-- **A completion fails closed unless it is blocked.** -/
theorem processSms_closed_iff (hparse : parseSms s.toSmsPayload = .parsed parsed)
    (hrole : parsed.ledgerRole = .completion) :
    FailsClosed t s.transactionId (parsedSmsToTxnData parsed s.receivedAt)
        (processSms parseSms t s forceNew settleProvisional) ↔
      ∀ txn, parsedSmsToTxnData parsed s.receivedAt = some txn →
        txn.direction = declinedDirection ∨ ¬ Blocked t s txn := by
  unfold processSms
  rw [hparse]
  dsimp only
  cases hdata : parsedSmsToTxnData parsed s.receivedAt with
  | none => exact iff_of_true (.left rfl) fun _ hnone => (Option.some_ne_none _ hnone.symm).elim
  | some txn =>
    have hgate : notifyOnly parsed.ledgerRole txn.direction settleProvisional = false := by
      simp [notifyOnly, notifyOnlyRoles, hrole]
    have hall : (∀ other, some txn = some other →
        other.direction = declinedDirection ∨ ¬ Blocked t s other) ↔
          txn.direction = declinedDirection ∨ ¬ Blocked t s txn :=
      ⟨fun h => h txn rfl, fun h other hother => Option.some.inj hother ▸ h⟩
    rw [hall]
    dsimp only
    rw [if_neg (by simp [hgate])]
    by_cases hdeclined : txn.direction = declinedDirection
    · rw [if_pos hdeclined]
      exact iff_of_true (.declined rfl hdeclined rfl) (.inl hdeclined)
    · rw [if_neg hdeclined, if_pos hrole, or_iff_right hdeclined]
      -- the old error is cleared first, and no step of the leg reads it
      exact completeReference_closed_iff (s := { s with parseError := none })

/-! ### A reference that another row has -/

/-- The bank confirms a transfer and names its reference. -/
def transferDone : ParsedSms where
  bank := "hdfc"
  emailType := "hdfc_imps_confirmation"
  ledgerRole := .completion
  timeOfArrival := false
  identifiesBy := .counterparty
  transaction := some
    { direction := "debit"
      amount := 500
      currency := some "INR"
      transactionDate := some 739000
      transactionTime := none
      counterparty := some "RAVI"
      cardMask := none
      accountMask := none
      referenceNumber := some "512345678901"
      channel := some "imps"
      balance := none
      rawDescription := none }

/-- The row of the transfer as its first alert left it. -/
def transferRow : Transaction where
  bank := "hdfc"
  emailType := "hdfc_imps_alert"
  direction := "debit"
  amount := 500
  currency := some "INR"
  transactionDate := some 739000
  transactionTime := none
  counterparty := none
  cardMask := none
  accountMask := some "XX4321"
  referenceNumber := none
  channel := some "imps"
  balance := none
  rawDescription := none
  transactionTimeIsReceivedTime := false
  identifiesBy := .counterparty
  id := 1
  smsMessageId := some 1
  emailId := none
  source := some "sms"

/-- A second row of the transfer, dated by the mail that came after midnight. -/
def mailRow : Transaction :=
  { transferRow with
    emailType := "hdfc_imps_mail"
    transactionDate := some 739001
    accountMask := none
    referenceNumber := some "512345678901"
    id := 2
    smsMessageId := none
    emailId := some 1
    source := some "email" }

def confirmation : SmsRow where
  bank := "hdfc"
  sender := "HDFCBK"
  body := "IMPS ref 512345678901 of Rs 500 is complete"
  receivedAt := 0
  id := 2
  status := .pending
  transactionId := none
  parseError := none

def transferOnly : TxnTable where
  rows := [transferRow]
  ids := List.pairwise_singleton _ _
  references := List.pairwise_singleton _ _

def transferAndMail : TxnTable where
  rows := [transferRow, mailRow]
  ids := by decide
  references := by decide

omit [UnicodeTables] in
theorem processSms_closed_confirmation :
    @FailsClosed asciiTables transferOnly none (parsedSmsToTxnData transferDone 0)
      (@processSms asciiTables (fun _ => .parsed transferDone) transferOnly confirmation
        false false) := by
  let _ := asciiTables
  refine (processSms_closed_iff (s := confirmation) rfl rfl).mpr fun txn _ => .inr ?_
  rintro ⟨-, primary, hprimary, r, hr, hne, -⟩
  have honly : primary ∈ transferOnly.rows :=
    (findCompletionPrimary_spec hprimary).1
  exact hne (by rw [List.mem_singleton.mp hr, List.mem_singleton.mp honly])

omit [UnicodeTables] in
/-- **The confirmation of a transfer whose mail was dated a day later raises.** -/
theorem not_closed : ¬ ∀ (t : TxnTable) (s : SmsRow) (parsed : ParsedSms),
    parsed.ledgerRole = .completion →
      @FailsClosed asciiTables t s.transactionId (parsedSmsToTxnData parsed s.receivedAt)
        (@processSms asciiTables (fun _ => .parsed parsed) t s false false) := by
  intro h
  have hclosed := h transferAndMail confirmation transferDone rfl
  have hraises : (@processSms asciiTables (fun _ => .parsed transferDone) transferAndMail
      confirmation false false).isOk = false := by decide +kernel
  generalize @processSms asciiTables (fun _ => .parsed transferDone) transferAndMail
    confirmation false false = result at hclosed hraises
  cases hclosed with
  | stamped => cases hraises
  | left => cases hraises
  | declined => cases hraises

end FinancialDashboard.Transactions
