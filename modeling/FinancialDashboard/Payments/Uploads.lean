import FinancialDashboard.Lib.Dict
import FinancialDashboard.Statements.Contention

/-!
# Card statements

The rows of `statement_uploads` with what the payment tracking reads and writes, and the
newest of an account (`services/reminders.py`).

The file, the email and the counters of a statement are left out; no payment is told by them.
-/

namespace FinancialDashboard.Payments

open PyText Statements

inductive PaymentStatus
  | unpaid | partiallyPaid | paid | late
  deriving DecidableEq, Repr

/-- A row of `statement_uploads`; the list of sent offsets is stored as JSON. -/
structure StatementUpload where
  id : Nat
  accountId : Nat
  dueDate : Option String
  totalAmountDue : Option String
  createdAt : Option Int
  paymentStatus : Option PaymentStatus
  paymentSentOffsets : Option (List Int)
  paymentLastRemindedAt : Option Int
  paymentPaidAt : Option Int
  paymentPaidAmount : Option Rat
  deriving DecidableEq

/-- The rows of the table, with their primary key. -/
structure UploadTable where
  rows : List StatementUpload
  nodup_ids : (rows.map (·.id)).Nodup

namespace UploadTable

variable {table : UploadTable} {u v : StatementUpload}

theorem eq_of_id (hu : u ∈ table.rows) (hv : v ∈ table.rows) (hid : u.id = v.id) : u = v :=
  List.inj_on_of_nodup_map table.nodup_ids hu hv hid

end UploadTable

/-- A total that compares with a sum. -/
inductive AmountDue
  | finite (value : Rat)
  | infinite (positive : Bool)
  deriving DecidableEq

namespace AmountDue

/-- `recomputed >= amount_due`. -/
def ReachedBy (recomputed : Rat) : AmountDue → Prop
  | finite value => value ≤ recomputed
  | infinite positive => positive = false

instance (recomputed : Rat) (amountDue : AmountDue) : Decidable (amountDue.ReachedBy recomputed) :=
  match amountDue with
  | finite _ => inferInstanceAs (Decidable (_ ≤ _))
  | infinite _ => inferInstanceAs (Decidable (_ = _))

end AmountDue

/-- `parse_cc_amount` of a total, unless it is a `NaN`. -/
def parseDue [Readers] (total : String) : Option AmountDue :=
  match parseAmount total with
  | some (.finite value) => some (.finite value)
  | some .nonFinite =>
    (Readers.infinity (String.ofList (total.toList.filter (· ≠ ',')))).map .infinite
  | none => none

section

variable [UnicodeTables] [Readers]

/-- `parse_cc_date` of a text that is there and not empty; what does not parse is no date. -/
def dueOf (text : Option String) : Option Int := (text.filter (· ≠ "")).bind parseDate

/-- The due date by which a statement is ranked. -/
def StatementUpload.due (upload : StatementUpload) : Option Int := dueOf upload.dueDate

omit [UnicodeTables] in
/-- The total that is due; one that is not read, or is a `NaN`, is none. -/
def StatementUpload.amountDue (upload : StatementUpload) : Option AmountDue :=
  upload.totalAmountDue.bind parseDue

end

end FinancialDashboard.Payments
