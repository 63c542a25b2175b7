import FinancialDashboard.Payments.Cycle
import FinancialDashboard.Payments.Newest
import FinancialDashboard.Transactions.Record

/-!
# Payments counted

The recompute of a statement's payment state from the credits of its cycle
(`services/reminders.py`).

What was paid is the sum of the rows that qualify, each of which is counted as it stands: so
a sum changes only with a row that qualifies before or after.

A total that reads as `NaN` cannot be compared.  The snapshots and the messages are left out.
-/

namespace FinancialDashboard.Payments

open PyText Statements FinancialDashboard.Core Posting Sql

/-- A row of `transactions` as the payment tracking reads it; amounts are kept in cents. -/
structure LedgerTxn extends LedgerRow where
  id : Nat
  accountId : Option Nat
  cardId : Option Nat
  bank : String
  emailType : String
  direction : String
  amount : Rat
  in_cents : ∃ cents : Int, amount = cents / 100
  deriving DecidableEq

/-- The rows of `transactions`, with their primary key. -/
structure Ledger where
  rows : List LedgerTxn
  nodup_ids : (rows.map (·.id)).Nodup

/-- `_CC_PAYMENT_RECEIVED_SUFFIXES`. -/
def ccPaymentReceivedSuffixes : List String :=
  ["_cc_payment_alert", "_cc_upi_payment_alert", "_cc_credit_alert", "_cc_payment",
    "_cc_bill_paid", "_cc_payment_received_alert", "_cc_bill_paid_alert",
    "_cc_repayment_received_alert", "sbi_payment_ack"]

/-- `is_cc_payment_received_email`. -/
def isCcPaymentReceivedEmail (emailType : String) : Bool :=
  emailType ≠ "" && ccPaymentReceivedSuffixes.any (endsWith emailType ·)

/-- `should_auto_reconcile_statement`. -/
def shouldAutoReconcileStatement (row : LedgerTxn) : Bool :=
  row.direction = "credit" && row.accountId.isSome && isCcPaymentReceivedEmail row.emailType

/-- `_qualifying_payment_credit_sum`, of a cycle that is there. -/
def qualifyingPaymentCreditSum (ledger : Ledger) (accountId : Nat) (window : CycleWindow) : Rat :=
  let rows := select
    [fun row => eq row.accountId accountId, fun row => some (row.direction = "credit"),
      fun row => transactionsInCycle window row.toLedgerRow] ledger.rows
  Transactions.quantize
    (((rows.filter fun row => isCcPaymentReceivedEmail row.emailType).map (·.amount)).sum)

/-- What a recompute writes. -/
structure PaymentState where
  status : Option PaymentStatus
  paidAt : Option Int
  paidAmount : Option Rat
  deriving DecidableEq

/-- A statement with another payment state. -/
def StatementUpload.withPayment (upload : StatementUpload) (state : PaymentState) :
    StatementUpload :=
  { upload with
    paymentStatus := state.status
    paymentPaidAt := state.paidAt
    paymentPaidAmount := state.paidAmount }

namespace UploadTable

/-- The update of one row. -/
def setPayment (table : UploadTable) (id : Nat) (state : PaymentState) : UploadTable where
  rows := table.rows.map fun upload => if upload.id = id then upload.withPayment state else upload
  nodup_ids := by
    have hids : ∀ upload : StatementUpload,
        (if upload.id = id then upload.withPayment state else upload).id = upload.id := by
      intro upload
      split_ifs <;> rfl
    rw [List.map_map, Function.comp_def]
    simp only [hids]
    exact table.nodup_ids

end UploadTable

section

variable [UnicodeTables] [Readers]

/-- `recompute_cc_payment_state`: the paid sum and the new state. -/
def recomputeCcPaymentState (ledger : Ledger) (uploads : UploadTable) (now : Int)
    (upload : StatementUpload) (unpaidWhenZero : Bool) : Except Raised (Rat × PaymentState) := do
  let total ← upload.totalAmountDue.elim (.error .valueError) .ok
  let window ← ccCycleWindow uploads.rows now upload
  let recomputed := qualifyingPaymentCreditSum ledger upload.accountId window
  match parseDue total with
  | some amountDue =>
    if amountDue.ReachedBy recomputed then
      return (recomputed, {
        status := some .paid
        paidAt := if upload.paymentStatus ≠ some .paid then some now else upload.paymentPaidAt
        paidAmount := some recomputed })
    else
      return (recomputed, {
        status := if 0 < recomputed ∨ unpaidWhenZero = false then some .partiallyPaid
          else some .unpaid
        paidAt := none
        paidAmount := some recomputed })
  | none => .error .valueError

/-- `check_payment_received`: if the statement is fully paid, and the statements after it.
Where it raises, nothing is committed and the callers go on. -/
def checkPaymentReceived (accounts : List Account) (ledger : Ledger) (uploads : UploadTable)
    (now : Int) (accountId : Nat) : Bool × UploadTable :=
  match accounts.find? (·.id = accountId) with
  | none => (false, uploads)
  | some account =>
    if account.type ≠ "credit_card" then (false, uploads)
    else
      match latestActiveCycle uploads.rows accountId false with
      | none => (false, uploads)
      | some upload =>
        match recomputeCcPaymentState ledger uploads now upload false with
        | .error _ => (false, uploads)
        | .ok (_, state) => (state.status = some .paid, uploads.setPayment upload.id state)

end

theorem parseDue_of_finite [Readers] {total : String} {value : Rat}
    (h : parseAmount total = some (.finite value)) : parseDue total = some (.finite value) := by
  unfold parseDue
  rw [h]

/-! ### The credits of a cycle -/

/-- A bill payment: what `should_auto_reconcile_statement` asks of a linked row. -/
def PaymentCredit (row : LedgerTxn) : Prop :=
  row.direction = "credit" ∧ isCcPaymentReceivedEmail row.emailType = true

instance : DecidablePred PaymentCredit := fun _ => inferInstanceAs (Decidable (_ ∧ _))

/-- The row qualifies for the cycle of the account. -/
def Qualifies (accountId : Nat) (window : CycleWindow) (row : LedgerTxn) : Prop :=
  row.accountId = some accountId ∧ PaymentCredit row ∧
    (transactionsInCycle window row.toLedgerRow).holds = true

instance (accountId : Nat) (window : CycleWindow) : DecidablePred (Qualifies accountId window) :=
  fun _ => inferInstanceAs (Decidable (_ ∧ _ ∧ _))

/-- The sum of the qualifying credits linked to the account in the cycle. -/
def paymentCredits (rows : List LedgerTxn) (accountId : Nat) (window : CycleWindow) : Rat :=
  ((rows.filter (Qualifies accountId window ·)).map (·.amount)).sum

/-- What a row counts in the cycle. -/
def contribution (accountId : Nat) (window : CycleWindow) (row : LedgerTxn) : Rat :=
  if Qualifies accountId window row then row.amount else 0

variable {rows : List LedgerTxn} {row : LedgerTxn} {accountId : Nat} {window : CycleWindow}

theorem shouldAutoReconcileStatement_iff : shouldAutoReconcileStatement row = true ↔
    row.accountId.isSome ∧ PaymentCredit row := by
  simp only [shouldAutoReconcileStatement, PaymentCredit, Bool.and_eq_true, decide_eq_true_eq]
  tauto

theorem paymentCredits_eq :
    paymentCredits rows accountId window = (rows.map (contribution accountId window)).sum := by
  unfold paymentCredits contribution
  rw [List.sum_map_ite, List.map_const', List.sum_replicate, nsmul_zero, add_zero]

theorem exists_cents (rows : List LedgerTxn) :
    ∃ cents : Int, (rows.map (·.amount)).sum = cents / 100 := by
  induction rows with
  | nil => exact ⟨0, by simp⟩
  | cons row rest ih =>
    obtain ⟨cents, hrow⟩ := row.in_cents
    obtain ⟨more, hrest⟩ := ih
    refine ⟨cents + more, ?_⟩
    rw [List.map_cons, List.sum_cons, hrow, hrest, Int.cast_add, add_div]

/-- **The sum of the recompute is that of the qualifying credits**: it is in cents. -/
theorem qualifyingPaymentCreditSum_eq {ledger : Ledger} :
    qualifyingPaymentCreditSum ledger accountId window =
      paymentCredits ledger.rows accountId window := by
  have hrows : (select
      [fun row => eq row.accountId accountId, fun row => some (row.direction = "credit"),
        fun row => transactionsInCycle window row.toLedgerRow] ledger.rows).filter
          (fun row => isCcPaymentReceivedEmail row.emailType) =
        ledger.rows.filter (Qualifies accountId window ·) := by
    unfold select
    rw [List.filter_filter]
    refine List.filter_congr fun row _ => ?_
    rw [Bool.eq_iff_iff, Bool.and_eq_true, holds_all, decide_eq_true_eq]
    simp only [List.forall_mem_cons, List.not_mem_nil, holds_eq, Truth.holds_some, Qualifies,
      PaymentCredit, decide_eq_true_eq]
    tauto
  unfold qualifyingPaymentCreditSum paymentCredits
  dsimp only
  rw [hrows]
  obtain ⟨cents, hsum⟩ := exists_cents (ledger.rows.filter (Qualifies accountId window ·))
  rw [hsum, Transactions.quantize_cents]

end FinancialDashboard.Payments
