import FinancialDashboard.Lib.Sql
import FinancialDashboard.Paisa.Accounting
import FinancialDashboard.Transactions.Booked

/-!
# Scopes and buckets

Which rows a cashflow figure may count (`services/cashflow/scope.py`), and the line of the
report that a category belongs on (`services/cashflow/buckets.py`).  The scope is a
condition of the queries; the bucket is asked in Python, of the stored category as it is.

* `existsUnique_scope`: a transaction is in one of the three scopes.
* `bucketForSlug_some`: the bucket a slug is mapped to, but for a card bill over the bank.
* `bucketForSlug_eq_iff`, `bucketForSlug_uncategorized_iff`: the slugs of a bucket.
-/

namespace FinancialDashboard.Cashflow

open Sql Transactions

/-! ### Scopes -/

/-- What the report reads of the database. -/
structure Session where
  accounts : List Account
  nodup_accounts : (accounts.map (·.id)).Nodup
  transactions : TransactionTable

inductive Scope
  | bank | card | unaccounted
  deriving DecidableEq, Repr

def bankAccountTypes : List String := ["bank_account", "debit_card"]
def cardAccountTypes : List String := ["credit_card"]
def knownAccountTypes : List String := bankAccountTypes ++ cardAccountTypes

/-- `_linked_to`: an account of one of the types has the row.  `EXISTS` is never unknown. -/
def linkedTo (session : Session) (types : List String) (t : BookedTransaction) : Truth :=
  some (session.accounts.any fun account => t.accountId = some account.id && account.type ∈ types)

/-- `SCOPE_PREDICATES`. -/
def scopePredicate (session : Session) : Scope → BookedTransaction → Truth
  | .bank => linkedTo session bankAccountTypes
  | .card => linkedTo session cardAccountTypes
  | .unaccounted => fun t => (linkedTo session knownAccountTypes t).not

section

variable {session : Session} {t : BookedTransaction}

theorem holds_linkedTo {types : List String} : (linkedTo session types t).holds = true ↔
    ∃ account ∈ session.accounts, t.accountId = some account.id ∧ account.type ∈ types := by
  simp [linkedTo]

theorem holds_linkedTo_append {types more : List String} :
    (linkedTo session (types ++ more) t).holds = true ↔
      (linkedTo session types t).holds = true ∨ (linkedTo session more t).holds = true := by
  simp only [holds_linkedTo, List.mem_append, and_or_left, exists_or]

/-- A row has one account at most, and the account one type. -/
theorem not_holds_linkedTo {types more : List String} (hdisjoint : ∀ type ∈ types, type ∉ more)
    (h : (linkedTo session types t).holds = true) : ¬(linkedTo session more t).holds = true := by
  intro hmore
  obtain ⟨account, hmem, hid, htype⟩ := holds_linkedTo.mp h
  obtain ⟨other, hother, hotherId, hotherType⟩ := holds_linkedTo.mp hmore
  have hsame : other = account := List.inj_on_of_nodup_map session.nodup_accounts hother hmem
    (Option.some.inj (hotherId.symm.trans hid))
  exact hdisjoint _ htype (hsame ▸ hotherType)

theorem holds_unaccounted : (scopePredicate session .unaccounted t).holds = true ↔
    ¬(scopePredicate session .bank t).holds = true ∧
      ¬(scopePredicate session .card t).holds = true := by
  rw [← not_or]
  refine Iff.trans ?_ (not_congr holds_linkedTo_append)
  simp [scopePredicate, linkedTo, Truth.not, knownAccountTypes]

/-- **Every transaction is in exactly one scope.** -/
theorem existsUnique_scope (session : Session) (t : BookedTransaction) :
    ∃! scope, (scopePredicate session scope t).holds = true := by
  have hbank : (scopePredicate session .bank t).holds = true →
      ¬(scopePredicate session .card t).holds = true :=
    not_holds_linkedTo (by decide)
  by_cases hb : (scopePredicate session .bank t).holds = true
  · refine ⟨.bank, hb, fun scope h => ?_⟩
    cases scope with
    | bank => rfl
    | card => exact absurd h (hbank hb)
    | unaccounted => exact absurd hb (holds_unaccounted.mp h).1
  by_cases hc : (scopePredicate session .card t).holds = true
  · refine ⟨.card, hc, fun scope h => ?_⟩
    cases scope with
    | bank => exact absurd h hb
    | card => rfl
    | unaccounted => exact absurd hc (holds_unaccounted.mp h).2
  · refine ⟨.unaccounted, holds_unaccounted.mpr ⟨hb, hc⟩, fun scope h => ?_⟩
    cases scope with
    | bank => exact absurd h hb
    | card => exact absurd h hc
    | unaccounted => rfl

end

/-! ### Slugs -/

def repaymentSlug : String := "repayment"
def creditCardPaymentSlug : String := "credit_card_payment"

/-- What a classifier writes that could not pick a category. -/
def unknownSlug : String := "unknown"

def transfersInSlug : String := repaymentSlug
def selfTransferSlug : String := "self_transfer"
def familySlug : String := "family"

/-- `EXPENSE_SLUGS` of the direction guard. -/
def expenseSlugs : List String :=
  ["expense", "bill_payment", "groceries", "dining", "fuel", "car_maintenance", "transport",
    "shopping", "utilities", "subscriptions", "rent", "emi_loan", "insurance", "healthcare",
    "entertainment", "travel", "education", "personal_care", "fees_charges", "tax",
    "cash_withdrawal", "charity_gift", "gift"]

/-- `INCOME_SLUGS` of the direction guard. -/
def incomeSlugs : List String :=
  ["salary", "interest", "refund", "cashback_rewards", "other_income", repaymentSlug,
    "investment_redemption", "tax_refund"]

def contraExpenseSlugs : List String := ["refund", "cashback_rewards", "reimbursement"]
def internalSlugs : List String := [selfTransferSlug, creditCardPaymentSlug]
def bankInternalSlugs : List String := [selfTransferSlug]

def incomeBucket : List String :=
  incomeSlugs.filter fun s =>
    s ∉ contraExpenseSlugs && s ∉ ["investment_redemption", transfersInSlug]

def expenseBucket : List String :=
  expenseSlugs ∪ contraExpenseSlugs ∪ ["cash_withdrawal", "misc"]

def investmentBucket : List String := ["investment", "investment_redemption"]

/-! ### Buckets -/

inductive Bucket
  | income | expense | investment | transfersIn | family | internal | uncategorized
  deriving DecidableEq, Repr

/-- `BUCKET_BY_SLUG`, in which no slug is given twice. -/
def bucketBySlug : AList fun _ : String => Bucket where
  entries :=
    incomeBucket.map (⟨·, .income⟩) ++ expenseBucket.map (⟨·, .expense⟩) ++
      investmentBucket.map (⟨·, .investment⟩) ++ internalSlugs.map (⟨·, .internal⟩) ++
      [⟨transfersInSlug, .transfersIn⟩, ⟨familySlug, .family⟩]
  nodupKeys := by
    unfold List.NodupKeys
    decide +kernel

/-- `bucket_for_slug`. -/
def bucketForSlug (slug : Option String) (scope : Option Scope) : Bucket :=
  match slug with
  | none => .uncategorized
  | some slug =>
    if slug = "" || slug = unknownSlug then .uncategorized
    else if scope = some .bank && slug = creditCardPaymentSlug then .expense
    else (bucketBySlug.lookup slug).getD .uncategorized

/-- Over the bank, a card bill is spent. -/
def rehome (scope : Option Scope) (slug : String) (bucket : Bucket) : Bucket :=
  if scope = some .bank && slug = creditCardPaymentSlug then .expense else bucket

/-- **The bucket of a slug is the one it is mapped to**, but for a card bill over the
bank: what is not a category is not mapped. -/
theorem bucketForSlug_some (slug : String) (scope : Option Scope) :
    bucketForSlug (some slug) scope =
      ((bucketBySlug.lookup slug).map (rehome scope slug)).getD .uncategorized := by
  unfold bucketForSlug
  dsimp only
  split_ifs with habsent hbill
  · have hnone : bucketBySlug.lookup slug = none := by
      rcases (Bool.or_eq_true _ _).mp habsent with h | h
      · rw [of_decide_eq_true h]
        decide +kernel
      · rw [of_decide_eq_true h]
        decide +kernel
    rw [hnone]
    rfl
  · have hmapped : bucketBySlug.lookup slug = some .internal := by
      rw [of_decide_eq_true ((Bool.and_eq_true _ _).mp hbill).2]
      decide +kernel
    rw [hmapped, Option.map_some, rehome, if_pos hbill]
    rfl
  · have hrehome : rehome scope slug = id := by
      funext bucket
      exact if_neg hbill
    rw [hrehome, Option.map_id]
    rfl

/-- The slugs of a bucket. -/
def slugsOf (scope : Option Scope) (bucket : Bucket) : List String :=
  (bucketBySlug.entries.filter fun e => rehome scope e.1 e.2 = bucket).map (·.1)

theorem mem_slugsOf {scope : Option Scope} {bucket : Bucket} {slug : String} :
    slug ∈ slugsOf scope bucket ↔ (bucketBySlug.lookup slug).map (rehome scope slug) = some bucket := by
  rw [slugsOf, List.mem_map, Option.map_eq_some_iff]
  constructor
  · rintro ⟨⟨s, b⟩, he, rfl⟩
    obtain ⟨he, hb⟩ := List.mem_filter.mp he
    exact ⟨b, AList.mem_lookup_iff.mpr he, of_decide_eq_true hb⟩
  · rintro ⟨b, hlookup, hb⟩
    exact ⟨⟨slug, b⟩, List.mem_filter.mpr ⟨AList.mem_lookup_iff.mp hlookup, decide_eq_true hb⟩, rfl⟩

/-- No slug is mapped to the bucket of what is not mapped. -/
theorem slugsOf_uncategorized (scope : Option Scope) : slugsOf scope .uncategorized = [] := by
  rcases scope with _ | _ | _ | _ <;> decide +kernel

theorem bucketForSlug_eq_iff {slug scope} {bucket : Bucket} (h : bucket ≠ .uncategorized) :
    bucketForSlug (some slug) scope = bucket ↔ slug ∈ slugsOf scope bucket := by
  rw [bucketForSlug_some, mem_slugsOf]
  cases (bucketBySlug.lookup slug).map (rehome scope slug) with
  | none => simpa using h.symm
  | some b => simp

theorem bucketForSlug_uncategorized_iff {slug scope} :
    bucketForSlug (some slug) scope = .uncategorized ↔ slug ∉ bucketBySlug := by
  rw [bucketForSlug_some, ← AList.lookup_eq_none]
  cases hlookup : bucketBySlug.lookup slug with
  | none => simp
  | some b =>
    have hnone : slug ∉ slugsOf scope .uncategorized := by
      rw [slugsOf_uncategorized]
      exact List.not_mem_nil
    rw [mem_slugsOf, hlookup] at hnone
    simpa using hnone

/-- `internal_slugs_for_scope`. -/
def internalSlugsForScope (scope : Option Scope) : List String :=
  if scope = some .bank then bankInternalSlugs else internalSlugs

/-- `LABEL_OVERRIDES`. -/
def labelOverrides : List (String × String) :=
  [(creditCardPaymentSlug, "Card bills"), ("emi_loan", "EMI / Loan"),
    ("cash_withdrawal", "Cash Withdrawal"), ("cashback_rewards", "Cashback Rewards"),
    ("fees_charges", "Fees & Charges"), ("charity_gift", "Charity & Gifts")]

/-- `str.title` of an ASCII text; `start` tells that no letter stands before. -/
def title (start : Bool) : List Char → List Char
  | [] => []
  | c :: rest => (if start then c.toUpper else c.toLower) :: title (!c.isAlpha) rest

/-- `label_for_slug`. -/
def labelForSlug : Option String → String
  | none => "(uncategorized)"
  | some slug =>
    match labelOverrides.lookup slug with
    | some label => label
    | none =>
      if slug ∉ bucketBySlug && slug ≠ unknownSlug then "unmapped: " ++ slug
      else String.ofList (title true (slug.toList.map fun c => if c = '_' then ' ' else c))

end FinancialDashboard.Cashflow
