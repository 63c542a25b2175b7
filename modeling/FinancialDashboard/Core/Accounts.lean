import Mathlib.Data.Option.Defs

/-!
# Accounts and cards

The rows of `accounts` and `cards` (`db/models.py`), as far as the journal, the reports and
the tracking of payments read them.
-/

namespace FinancialDashboard

/-- A row of `accounts`. -/
structure Account where
  id : Nat
  bank : String
  label : String
  type : String
  active : Option Bool
  deriving DecidableEq, Repr

/-- A row of `cards`. -/
structure Card where
  id : Nat
  accountId : Nat
  cardMask : String
  deriving DecidableEq, Repr

end FinancialDashboard
