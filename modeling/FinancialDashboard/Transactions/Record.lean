import FinancialDashboard.Lib.PyTime
import FinancialDashboard.Transactions.Masks
import Mathlib.Algebra.Field.Rat

/-!
# Transactions

One row of `transactions`, and the `txn_data` a parsed message is handed to the
merge with.  A row is `Transaction(**txn_data, ...)`: the fields of `TxnData`, and
which message filled which slot.

Amounts and balances are rationals; `quantize` is the rounding to cents.  The amount of
a row is the one stored: SQLite keeps all its decimals, and a query compares them.  What
Python reads of it has two, `Transaction.readAmount`; there a tie, which the double
decides, goes to the even cent.

The columns no matching and no merging reads (links to accounts and statements,
the categorization, the notification state) are left out.
-/

namespace FinancialDashboard.Transactions

open PyTime

/-- The pipeline a message came through. -/
inductive Channel
  | sms | email
  deriving DecidableEq, Repr

namespace Channel

/-- Its value in the `source` column. -/
def value : Channel → String
  | sms => "sms"
  | email => "email"

end Channel

/-- Which field shows which event a message reports. -/
inductive IdentifiesBy
  | counterparty | cardMask | noField
  deriving DecidableEq, Repr

/-! ### Amounts -/

/-- `Decimal.quantize(Decimal("0.01"))`: the nearest cent, ties to the even one. -/
def quantize (value : Rat) : Rat :=
  let cents := value * 100
  let low := cents.floor
  let rest := cents - low
  let rounded :=
    if rest < 1 / 2 then low
    else if 1 / 2 < rest then low + 1
    else if low % 2 = 0 then low else low + 1
  (rounded : Rat) / 100

def quantizeBalance (value : Option Rat) : Option Rat := value.map quantize

/-- An amount without parts of a cent. -/
def InCents (amount : Rat) : Prop := quantize amount = amount

instance : DecidablePred InCents := fun _ => inferInstanceAs (Decidable (_ = _))

/-- Both sides state a balance, and they differ. -/
def balancesContradict (a b : Option Rat) : Bool :=
  match quantizeBalance a, quantizeBalance b with
  | some x, some y => x ≠ y
  | _, _ => false

/-! ### The record -/

structure TxnData where
  bank : String
  emailType : String
  direction : String
  amount : Rat
  currency : Option String
  transactionDate : Option Int
  transactionTime : Option TimeOfDay
  counterparty : Option String
  cardMask : Option String
  accountMask : Option String
  referenceNumber : Option String
  channel : Option String
  balance : Option Rat
  rawDescription : Option String
  transactionTimeIsReceivedTime : Bool
  identifiesBy : IdentifiesBy
  deriving DecidableEq

structure Transaction extends TxnData where
  id : Nat
  smsMessageId : Option Nat
  emailId : Option Nat
  source : Option String
  deriving DecidableEq

namespace Transaction

/-- `row.amount`, read back from the column of two decimals. -/
def readAmount (row : Transaction) : Rat := quantize row.amount

/-- The slot of a channel: the message of it the row has. -/
def slot (row : Transaction) : Channel → Option Nat
  | .sms => row.smsMessageId
  | .email => row.emailId

end Transaction

/-- `currency or "INR"`. -/
def currencyOrInr (currency : Option String) : String :=
  if currency.getD "" = "" then "INR" else currency.getD ""

/-- `coalesce(currency, 'INR')`. -/
def coalesceCurrency (currency : Option String) : String := currency.getD "INR"

/-! ### Cents -/

theorem quantize_cents (cents : Int) : quantize (cents / 100) = cents / 100 := by
  have hcents : (cents / 100 * 100 : Rat) = cents := div_mul_cancel₀ _ (by decide)
  have hrest : (0 : Rat) < 1 / 2 := by decide +kernel
  unfold quantize
  dsimp only
  rw [hcents, Rat.floor_intCast, sub_self, if_pos hrest]

/-- What is rounded has no parts of a cent. -/
theorem inCents_quantize (amount : Rat) : InCents (quantize amount) := quantize_cents _

namespace Transaction

/-- The row has the amount, as it is stored or as it is read. -/
def HasAmount (row : Transaction) (amount : Rat) : Prop :=
  row.amount = amount ∨ row.readAmount = amount

theorem inCents_readAmount (row : Transaction) : InCents row.readAmount :=
  inCents_quantize row.amount

end Transaction

end FinancialDashboard.Transactions
