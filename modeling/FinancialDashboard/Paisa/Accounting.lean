import FinancialDashboard.Core.Accounts
import FinancialDashboard.Lib.Words
import FinancialDashboard.Paisa.Accounts
import Mathlib.Data.List.AList

/-!
# The accounting policy

Which ledger account a dashboard account and a category stand for
(`services/paisa/accounting.py`).  A generated name is normalized for the backend; a
name the operator has mapped is only validated, `overrideName`.

* `categoryKind_mem`: the kinds that a category can be of.
-/

namespace FinancialDashboard.Paisa

open PyText

/-! ### Words -/

/-- The dictionaries `account_mappings` and `category_mappings`. -/
abbrev Mappings := AList fun _ : String => String

variable [UnicodeTables]

/-- `text.split()`. -/
def words (text : List Char) : List (List Char) :=
  (text.splitOnP UnicodeTables.isSpace).filter (· ≠ [])

/-- `" ".join(words)`. -/
def joinWords (ws : List (List Char)) : String := String.ofList (List.intercalate [' '] ws)

theorem words_eq (text : List Char) : words text = Words.wordsOf UnicodeTables.isSpace text := by
  unfold words Words.wordsOf
  congr

/-- Joined words are made of the text, and of blanks. -/
theorem mem_joinWords {text : List Char} {c : Char} (h : c ∈ (joinWords (words text)).toList) :
    c = ' ' ∨ c ∈ text := by
  rw [joinWords, String.toList_ofList, words_eq] at h
  rcases Words.mem_join h with rfl | ⟨w, hw, hc⟩
  · exact .inl rfl
  · exact .inr ((Words.mem_wordsOf hw).2 c hc)

def capitalize [TitleTables] : List Char → List Char
  | [] => []
  | c :: rest => TitleTables.title c ++ (sigmas [c] rest).flatMap UnicodeTables.lower

/-- `_title_segment`. -/
def titleSegment [TitleTables] (value : String) : String :=
  let cleaned := value.toList.map fun c =>
    if UnicodeTables.isAlnum c || UnicodeTables.isSpace c then c else ' '
  joinWords ((words cleaned).map capitalize)

/-! ### Mapped names -/

omit [UnicodeTables] in
/-- A text cut at its colons. -/
def splitName (text : List Char) : AccountName :=
  match (text.splitOnP (· = ':')).map String.ofList with
  | [] => ⟨.other "", []⟩
  | root :: segments => ⟨.ofName root, segments⟩

/-- `validate_account_name` on a text; the ledger family joins its words anew. -/
def validateAccountName (backend : Backend) (text : String) : Option AccountName :=
  if strip text = "" || text.toList.any isUnsafeText then none
  else match backend with
    | .beancount =>
      let name := splitName text.toList
      if name.root.isKnown && validateBeancount name then some name else none
    | .ledger | .hledger =>
      let name := splitName (joinWords (words text.toList)).toList
      if name.segments.isEmpty || (name.root.name :: name.segments).any (strip · = "") then none
      else some name

/-- `_finalize_name` for a name of the operator. -/
def overrideName (backend : Backend) (raw label : String) : Except NameError AccountName :=
  match validateAccountName backend raw with
  | some name => .ok name
  | none => .error (.projectionError label backend raw)

/-! ### Accounts -/

inductive AccountKind
  | asset | liability
  deriving DecidableEq, Repr

structure LedgerAccount where
  accountId : Nat
  name : AccountName
  kind : AccountKind
  deriving DecidableEq, Repr

/-- `account_kind`; `CARD_ACCOUNT_TYPES` has the one type. -/
def accountKind (type : String) : AccountKind := if type = "credit_card" then .liability else .asset

/-- `_default_account_name`. -/
def defaultAccountName [TitleTables] (account : Account) (kind : AccountKind) : AccountName :=
  let path := [titleSegment account.bank, titleSegment account.label]
  match kind with
  | .liability => ⟨.liabilities, "Card" :: path⟩
  | .asset => ⟨.assets, "Bank" :: path⟩

/-- The name of an account: a mapping comes first. -/
def ledgerName [TitleTables] (account : Account) (mappings : Mappings) (backend : Backend) :
    Except NameError AccountName :=
  let label := s!"account {account.id}"
  match mappings.lookup (toString account.id) with
  | some override => overrideName backend override label
  | none => normalizePolicyAccount backend (defaultAccountName account (accountKind account.type))
      label

/-- `resolve_account`. -/
def resolveAccount [TitleTables] (account : Account) (mappings : Mappings) (backend : Backend) :
    Except NameError LedgerAccount := do
  let name ← ledgerName account mappings backend
  return ⟨account.id, name, accountKind account.type⟩

/-! ### Categories -/

def selfTransferSlug : String := "self_transfer"
def creditCardPaymentSlug : String := "credit_card_payment"
def repaymentSlug : String := "repayment"

def incomeCategorySlugs : List String := ["salary", "interest", "other_income", "tax_refund"]
def contraExpenseCategorySlugs : List String := ["refund", "cashback_rewards"]
def investmentCategorySlugs : List String := ["investment", "investment_redemption"]

omit [UnicodeTables] in
/-- `category_kind`. -/
def categoryKind (slug : String) : EntryKind :=
  if slug ∈ incomeCategorySlugs then .income
  else if slug ∈ contraExpenseCategorySlugs then .contraExpense
  else if slug ∈ investmentCategorySlugs then .investment
  else if slug = repaymentSlug then .repayment
  else if slug ∈ ["", "unknown", "misc"] then .unknown
  else .expense

/-- The kinds of `category_kind`. -/
def categoryKinds : List EntryKind :=
  [.income, .contraExpense, .investment, .repayment, .unknown, .expense]

omit [UnicodeTables] in
theorem categoryKind_mem (slug : String) : categoryKind slug ∈ categoryKinds := by
  unfold categoryKind
  split_ifs
  all_goals decide

/-- The stored category, trimmed and lower-cased; a blank one is `unknown`. -/
def categorySlug (category : Option String) : String :=
  let slug := lower (strip (category.getD ""))
  if slug = "" then "unknown" else slug

def investmentUnallocatedAccount : AccountName := ⟨.assets, ["Investments", "Unallocated"]⟩
def repaymentClearingAccount : AccountName := ⟨.equity, ["Transfers In"]⟩
def cardPaymentClearing : AccountName := ⟨.liabilities, ["Credit Card"]⟩

/-- The account generated for a category without a mapping. -/
def defaultContra [TitleTables] (slug : String) : AccountName :=
  match categoryKind slug with
  | .investment => investmentUnallocatedAccount
  | .repayment => repaymentClearingAccount
  | .income => ⟨.income, [titleSegment slug]⟩
  | .unknown => ⟨.expenses, ["Unknown"]⟩
  | _ => ⟨.expenses, [titleSegment slug]⟩

/-- `contra_account`: a mapping comes first. -/
def contraAccount [TitleTables] (category : Option String) (mappings : Mappings)
    (backend : Backend) : Except NameError AccountName :=
  let slug := categorySlug category
  let label := s!"category {UnicodeTables.repr slug}"
  match mappings.lookup slug with
  | some override => overrideName backend override label
  | none => normalizePolicyAccount backend (defaultContra slug) label

/-- `card_clearing_account`. -/
def cardClearingAccount (mappings : Mappings) (backend : Backend) : Except NameError AccountName :=
  match mappings.lookup creditCardPaymentSlug with
  | some override => overrideName backend override creditCardPaymentSlug
  | none => normalizePolicyAccount backend cardPaymentClearing creditCardPaymentSlug

end FinancialDashboard.Paisa
