import FinancialDashboard.Transactions.Record
import Mathlib.Data.List.Nodup

/-!
# Booked transactions

The rows of `transactions` as the reports read them: a `Transaction` with its account,
its card, its category and the flag that keeps it out of the cashflow.
-/

namespace FinancialDashboard.Transactions

structure BookedTransaction extends Transaction where
  accountId : Option Nat
  cardId : Option Nat
  note : Option String
  category : Option String
  excludeFromCashflow : Option Bool
  deriving DecidableEq

/-- The rows of the table, with their primary key. -/
structure TransactionTable where
  rows : List BookedTransaction
  nodup_ids : (rows.map (·.id)).Nodup

namespace TransactionTable

variable {table : TransactionTable} {t u : BookedTransaction}

theorem eq_of_id (ht : t ∈ table.rows) (hu : u ∈ table.rows) (hid : t.id = u.id) : t = u :=
  List.inj_on_of_nodup_map table.nodup_ids ht hu hid

end TransactionTable

end FinancialDashboard.Transactions
