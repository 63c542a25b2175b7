import FinancialDashboard.Transactions.Masks

/-!
# Which account a transaction belongs to

`link_transaction` of `services/linker.py`: the account, and the card, that a
transaction's masks denote among those of its bank; or, without a mask, the only
account of the bank that its email type allows.
-/

namespace FinancialDashboard.Transactions

open PyText

/-- A row of `accounts`, as the linker reads it. -/
structure LinkAccount where
  id : Nat
  bank : String
  type : Option String
  accountNumber : Option String

/-- A row of `cards`, as the linker reads it. -/
structure LinkCard where
  id : Nat
  accountId : Nat
  cardMask : Option String

/-- The rows that `build_link_context` loads. -/
structure LinkContext where
  accounts : List LinkAccount
  cards : List LinkCard

/-- `MIN_MASK_DIGITS` -/
def minMaskDigits : Nat := 3

/-- `trailing_visible_digits` -/
def trailingVisibleDigits (normalized : String) : Nat :=
  (normalized.toList.reverse.takeWhile isMaskDigit).length

/-- `_usable` -/
def usable (normalized : String) : Bool := minMaskDigits ≤ trailingVisibleDigits normalized

/-- `_expected_account_type` -/
def expectedAccountType (emailType : String) : Option String :=
  if contains "_cc_" emailType then some "credit_card"
  else if contains "_account_" emailType || contains "_dc_" emailType then some "bank_account"
  else none

def onlyOne {α : Type} : List α → Option α
  | [a] => some a
  | _ => none

section

variable [UnicodeTables] (ctx : LinkContext)

/-- `bank.strip().lower()` -/
def bankKey (bank : String) : String := lower (strip bank)

/-- The cards of a bank, with their masks. -/
def cardsByBank (key : String) : List (String × Nat × Nat) :=
  ctx.cards.filterMap fun card =>
    let stored := normalizeMask card.cardMask
    if stored = "" then none
    else
      (ctx.accounts.find? fun account => account.id = card.accountId).bind fun account =>
        if bankKey account.bank = key then some (stored, card.accountId, card.id) else none

/-- The accounts of a bank that have a number. -/
def accountsByBankWithMasks (key : String) : List (String × Nat) :=
  ctx.accounts.filterMap fun account =>
    let stored := normalizeMask account.accountNumber
    if bankKey account.bank = key ∧ stored ≠ "" then some (stored, account.id) else none

/-- `_find_card_match` -/
def findCardMatch (key incoming : String) : Option (Nat × Nat) :=
  (onlyOne ((cardsByBank ctx key).filter fun card => maskMatches incoming card.1)).map Prod.snd

/-- `_find_account_match` -/
def findAccountMatch (key incoming : String) : Option Nat :=
  (onlyOne ((accountsByBankWithMasks ctx key).filter fun account =>
    maskMatches incoming account.1)).map Prod.snd

/-- The accounts of a bank of the type that an email type implies. -/
def accountsOfType (key emailType : String) : List Nat :=
  (ctx.accounts.filter fun account => bankKey account.bank = key &&
    match expectedAccountType emailType with
    | none => true
    | some expected => account.type = some expected).map (·.id)

/-- `link_transaction`, of a transaction that has no account yet: the account and the card. -/
def linkTransaction (bank emailType : String) (cardMask accountMask : Option String) :
    Option (Nat × Option Nat) :=
  let key := bankKey bank
  let card := normalizeMask cardMask
  let account := normalizeMask accountMask
  let byCard := if usable card then findCardMatch ctx key card else none
  let byNumber := if usable card then findAccountMatch ctx key card else none
  let byAccount := if usable account then findAccountMatch ctx key account else none
  let byBank :=
    if cardMask.getD "" = "" ∧ accountMask.getD "" = "" then
      onlyOne (accountsOfType ctx key emailType)
    else none
  match byCard with
  | some (accountId, cardId) => some (accountId, some cardId)
  | none => (byNumber <|> byAccount <|> byBank).map fun accountId => (accountId, none)

end

end FinancialDashboard.Transactions
