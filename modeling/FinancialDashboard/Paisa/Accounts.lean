import FinancialDashboard.Lib.PyText
import Mathlib.Algebra.Ring.Rat

/-!
# Ledger names and entries

The account names the projection makes itself, and the entries it posts to them
(`services/paisa/accounting.py`, `services/paisa/renderers/base.py`,
`services/paisa/portfolio_identity.py`).

An `AccountName` is a root and the segments under it; the text is the two joined
by colons.  `normalizePolicyAccount` turns a name into one of the backend, or
raises.

* `root_of_normalize`: it keeps the root.
* `isValuationAccount_of_normalize`: a valuation account stays one.
-/

namespace FinancialDashboard.Paisa

open PyText

/-! ### Names -/

/-- `SUPPORTED_BACKENDS`. -/
inductive Backend
  | ledger | hledger | beancount
  deriving DecidableEq, Repr

/-- `_ROOTS`, and any other root: the ledger family takes those of an operator too. -/
inductive Root
  | assets | liabilities | equity | income | expenses
  | other (root : String)
  deriving DecidableEq, Repr

namespace Root

def name : Root → String
  | assets => "Assets"
  | liabilities => "Liabilities"
  | equity => "Equity"
  | income => "Income"
  | expenses => "Expenses"
  | other root => root

/-- The root of a text. -/
def ofName (name : String) : Root :=
  ([assets, liabilities, equity, income, expenses].find? (·.name = name)).getD (other name)

def isKnown : Root → Bool
  | other _ => false
  | _ => true

theorem name_ofName (name : String) : (ofName name).name = name := by
  unfold ofName
  cases hfind : [assets, liabilities, equity, income, expenses].find? (·.name = name) with
  | none => rfl
  | some root => simpa using List.find?_some hfind

end Root

structure AccountName where
  root : Root
  segments : List String
  deriving DecidableEq, Repr

namespace AccountName

def name (a : AccountName) : String := String.intercalate ":" (a.root.name :: a.segments)

end AccountName

/-- The name is none the backend takes.  Beancount's own normalization raises
`InvalidAccountName` outside the handler that makes a `ProjectionError` of it. -/
inductive NameError
  | invalidAccountName (name : String)
  | projectionError (label : String) (backend : Backend) (name : String)
  deriving DecidableEq, Repr

def isUnsafeText (c : Char) : Bool := c ∈ [';', '\n', '\r', '\t', '\x7b', '\x7d']

def isAsciiAlnum (c : Char) : Bool := c.isAlphanum

/-- `re.findall(r"[A-Za-z0-9]+", seg)`. -/
def asciiWords (segment : String) : List (List Char) :=
  (segment.toList.splitOnP (!isAsciiAlnum ·)).filter (· ≠ [])

/-- The words of a segment, each with a capital letter. -/
def pascal (segment : String) : String :=
  String.ofList ((asciiWords segment).flatMap fun
    | [] => []
    | c :: rest => c.toUpper :: rest)

/-- `^[A-Z][A-Za-z0-9]*$`. -/
def isComponent (segment : String) : Bool :=
  match segment.toList with
  | [] => false
  | c :: rest => c.isUpper && rest.all isAsciiAlnum

variable [UnicodeTables]

/-- `validate` of the ledger family, on a name without runs of blanks. -/
def validateLedger (name : AccountName) : Bool :=
  !name.segments.isEmpty &&
    name.segments.all fun segment => strip segment ≠ "" && !segment.toList.any isUnsafeText

omit [UnicodeTables] in
/-- `validate` of Beancount. -/
def validateBeancount (name : AccountName) : Bool :=
  !name.segments.isEmpty && name.segments.all isComponent

/-- `normalize_policy_account`: the backend's form of a generated name. -/
def normalizePolicyAccount (backend : Backend) (raw : AccountName) (label : String) :
    Except NameError AccountName :=
  match backend with
  | .beancount =>
    let name := { raw with segments := raw.segments.map pascal }
    if validateBeancount name then .ok name else .error (.invalidAccountName raw.name)
  | .ledger | .hledger =>
    if validateLedger raw then .ok raw else .error (.projectionError label backend raw.name)

/-- What becomes of the segments of a name. -/
theorem normalize_eq_ok {backend : Backend} {raw name : AccountName} {label : String}
    (h : normalizePolicyAccount backend raw label = .ok name) :
    name = raw ∨ name = { raw with segments := raw.segments.map pascal } := by
  unfold normalizePolicyAccount at h
  cases backend with
  | beancount =>
    dsimp only at h
    split_ifs at h
    exact .inr (Except.ok.inj h).symm
  | ledger =>
    dsimp only at h
    split_ifs at h
    exact .inl (Except.ok.inj h).symm
  | hledger =>
    dsimp only at h
    split_ifs at h
    exact .inl (Except.ok.inj h).symm

/-- **A name keeps its root.** -/
theorem root_of_normalize {backend : Backend} {raw name : AccountName} {label : String}
    (h : normalizePolicyAccount backend raw label = .ok name) : name.root = raw.root := by
  rcases normalize_eq_ok h with rfl | rfl <;> rfl

/-! ### The accounts of the CAS valuation -/

def investmentValuationRoot : AccountName := ⟨.assets, ["Investments", "Valuation"]⟩

def equityRevaluation : AccountName := ⟨.equity, ["Revaluation", "Investments"]⟩

/-- `investment_valuation_account`: the account of a portfolio's token, or the one
that all portfolios without a token share. -/
def investmentValuationAccount (token : Option String) : AccountName :=
  let segment := String.ofList ((token.getD "").toList.filter fun c =>
    UnicodeTables.isAlnum c || c = '-')
  if segment = "" then investmentValuationRoot
  else { investmentValuationRoot with segments := investmentValuationRoot.segments ++ [segment] }

omit [UnicodeTables] in
/-- The account is `Assets:Investments:Valuation` or under it. -/
def isValuationAccount (a : AccountName) : Bool :=
  a.root = .assets && ["Investments", "Valuation"].isPrefixOf a.segments

/-- **A valuation account stays one in every backend.** -/
theorem isValuationAccount_of_normalize {backend : Backend} {token : Option String}
    {name : AccountName} {label : String}
    (h : normalizePolicyAccount backend (investmentValuationAccount token) label = .ok name) :
    isValuationAccount name = true := by
  have hpascal : ["Investments", "Valuation"].map pascal = ["Investments", "Valuation"] := by
    decide
  unfold investmentValuationAccount investmentValuationRoot at h
  dsimp only at h
  split_ifs at h
  · rcases normalize_eq_ok h with rfl | rfl
    · rfl
    · simp [isValuationAccount, hpascal]
  · rcases normalize_eq_ok h with rfl | rfl
    · simp [isValuationAccount]
    · simp only [List.map_append, hpascal, isValuationAccount]
      simp

theorem not_isValuationAccount_of_normalize {backend : Backend} {name : AccountName}
    {label : String} (h : normalizePolicyAccount backend equityRevaluation label = .ok name) :
    isValuationAccount name = false := by
  have hroot := root_of_normalize h
  simp [isValuationAccount, hroot, equityRevaluation]

/-! ### The identity of a portfolio -/

def normalizePortfolioKey (portfolioKey : String) : String := upper (strip portfolioKey)

/-- `portfolio_token`; `digest secret key` is the keyed hash in base 32, cut to the
length of a token. -/
def portfolioToken (digest : String → String → String) (portfolioKey : String)
    (secret : Option String) : Option String :=
  let normalized := normalizePortfolioKey portfolioKey
  if normalized = "" || strip (secret.getD "") = "" then none
  else some ("P-" ++ digest (strip (secret.getD "")) normalized)

/-! ### Entries -/

structure LedgerPosting where
  account : AccountName
  amount : Rat
  commodity : String
  deriving DecidableEq

/-- Two postings, of an amount and of its opposite, in one commodity. -/
def Opposed (postings : List LedgerPosting) : Prop :=
  ∃ p q, postings = [p, q] ∧ q.commodity = p.commodity ∧ q.amount = -p.amount

/-- The kinds of `DASHBOARD_KINDS`. -/
inductive EntryKind
  | expense | income | contraExpense | investment | repayment | selfTransfer | cardPayment
  | opening | lot | valuation | unknown
  deriving DecidableEq, Repr

/-- A metadata value; a date is written in ISO form. -/
inductive MetaValue
  | text (value : String)
  | date (value : Int)
  deriving DecidableEq, Repr

structure ProjectedEntry where
  date : Int
  payee : String
  txnIds : List Nat
  postings : List LedgerPosting
  note : Option String
  currency : String
  kind : EntryKind
  details : List (String × MetaValue)
  deriving DecidableEq

/-- `sanitize_meta_value`. -/
def sanitizeMetaValue (raw : String) : String :=
  let cleaned := raw.toList.map fun c =>
    if c ∈ [';', '\n', '\r', '\t', '\x7b', '\x7d', ',', '"', '\\'] then ' ' else c
  let words := (cleaned.splitOnP UnicodeTables.isSpace).filter (· ≠ [])
  String.ofList ((List.intercalate [' '] words).take 200)

end FinancialDashboard.Paisa
