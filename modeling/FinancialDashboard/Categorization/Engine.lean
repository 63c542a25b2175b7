import FinancialDashboard.Categorization.Rules
import FinancialDashboard.Lib.Table
import FinancialDashboard.Transactions.Merge
import Mathlib.Algebra.Order.Ring.Unbundled.Rat

/-!
# The categorization of a transaction

`categorize_one` of `services/categorization/engine.py`, with the reference rule of
`self_transfer.py` before it.

* `categorizeRow` is what follows the reference rule: the rules, then the classifier.
* `categorizeOne_directional_iff`: the category it stores is possible for the direction and
  the account unless a rule decides that looks at neither.
-/

namespace FinancialDashboard.Categorization

open PyText
open Transactions (Transaction maskDigits)
open Cashflow (unknownSlug selfTransferSlug)

/-! ### The columns -/

/-- `category_method` -/
inductive Method where
  | rule | llm | manual | pendingLlm
  deriving DecidableEq, Repr

def Method.value : Method → String
  | rule => "rule"
  | llm => "llm"
  | manual => "manual"
  | pendingLlm => "pending_llm"

/-- The columns of a row that the categorization writes. -/
structure CategoryColumns where
  category : Option String
  categoryMethod : Option Method
  categoryConfidence : Option ℚ
  categoryModel : Option String
  categoryInputHash : Option String
  categoryVocabVersion : Option Int
  categorizedAt : Option Int
  reviewStatus : Option String
  reviewReason : Option String
  deriving DecidableEq

/-- A row of `transactions` with its links and its categorization. -/
structure CategorizedTransaction extends Transaction, CategoryColumns where
  accountId : Option Nat
  cardId : Option Nat
  enrichedAt : Option Int
  deriving DecidableEq

/-- `transactions`, with `uq_transactions_ref`. -/
def transactions : Schema CategorizedTransaction where
  id row := row.id
  Clashes a b := Transactions.Clash a.toTransaction b.toTransaction
  decidable _ _ := inferInstanceAs (Decidable (Transactions.Clash _ _))

/-- The categorization of a row is set to `f` of the row. -/
def setCategorization (f : CategorizedTransaction → CategoryColumns) :
    Table.Change transactions where
  set row := { row with toCategoryColumns := f row }
  id_set _ := rfl
  left _ _ := Iff.rfl
  right _ _ := Iff.rfl

/-! ### What is read -/

/-- `InputPayload`, of which a row keeps the hash. -/
structure InputPayload where
  rawDescription : String
  counterparty : String
  direction : String
  amount : ℚ
  currency : String
  channel : String
  bank : String
  emailType : String
  accountType : String

structure LlmResult where
  slug : String
  confidence : ℚ
  reason : String
  deriving DecidableEq, Repr

/-- `NEEDS_REVIEW` -/
def needsReview : String := "needs_review"

/-- The settings and the clock of a call. -/
structure Env where
  config : RuleConfig
  vocabVersion : Int
  now : Int
  /-- `_confidence_threshold` -/
  threshold : ℚ
  /-- `_active_model_name` -/
  modelName : String
  /-- `compute_input_hash` -/
  inputHash : InputPayload → String
  /-- `accounts.type`, by id. -/
  accountType : Nat → Option String

section

variable [UnicodeTables] (env : Env) (txn : CategorizedTransaction)

/-- `resolve_account_type` -/
def resolveAccountType : Option String := txn.accountId.bind env.accountType

/-- `build_input_payload` -/
def buildInputPayload (accountType : Option String) : InputPayload where
  rawDescription := normalizeText txn.rawDescription
  counterparty := normalizeCounterparty txn.counterparty
  direction := txn.direction
  amount := txn.amount
  currency := Transactions.currencyOrInr txn.currency
  channel := txn.channel.getD ""
  bank := txn.bank
  emailType := txn.emailType
  accountType := accountType.getD ""

/-- The hash of a row's input. -/
def inputHashOf : String :=
  env.inputHash (buildInputPayload txn (resolveAccountType env txn))

/-- The fields the rules read. -/
def fieldsOf : Fields where
  counterparty := txn.counterparty
  rawDescription := txn.rawDescription
  channel := txn.channel
  emailType := some txn.emailType
  direction := txn.direction
  bank := some txn.bank
  accountType := resolveAccountType env txn

/-! ### The reference rule -/

/-- `REFERENCE_PAIR_RULESET_VERSION` -/
def referencePairRulesetVersion : String := "reference-pair-v1"

/-- `RULESET_VERSION` -/
def rulesetVersion : String := "rules-v1"

/-- `_mark_self_transfer` -/
def markSelfTransfer : CategoryColumns :=
  let marked : CategoryColumns :=
    { category := some selfTransferSlug
      categoryMethod := some .rule
      categoryConfidence := some 1
      categoryModel := some referencePairRulesetVersion
      categoryInputHash := some (inputHashOf env txn)
      categoryVocabVersion := some env.vocabVersion
      categorizedAt := txn.categorizedAt
      reviewStatus := none
      reviewReason := none }
  if txn.toCategoryColumns = marked then marked else { marked with categorizedAt := some env.now }

/-- `_OPPOSITE_DIRECTION` -/
def oppositeDirection (direction : String) : Option String :=
  if direction = "credit" then some "debit"
  else if direction = "debit" then some "credit"
  else none

omit [UnicodeTables] in
/-- `_different_accounts` -/
def differentAccounts (first second : CategorizedTransaction) : Bool :=
  match first.accountId, second.accountId with
  | some a, some b => a ≠ b
  | _, _ =>
    let firstDigits := maskDigits first.accountMask
    let secondDigits := maskDigits second.accountMask
    if firstDigits.length < 3 ∨ secondDigits.length < 3 then false
    else !(endsWith firstDigits secondDigits || endsWith secondDigits firstDigits)

/-- The other legs of the transaction, by its reference. -/
def otherLegs (t : Table transactions) : List CategorizedTransaction :=
  match oppositeDirection txn.direction with
  | none => []
  | some opposite =>
    t.rows.filter fun other =>
      other.referenceNumber = txn.referenceNumber && other.direction = opposite &&
        differentAccounts txn other && !isFdCounterparty other.counterparty (some other.bank)

/-- `apply_reference_self_transfer_rule` marks both legs. -/
def referenceRuleApplies (t : Table transactions) : Bool :=
  !isFdCounterparty txn.counterparty (some txn.bank) &&
    strip (txn.referenceNumber.getD "") ≠ "" && otherLegs txn t ≠ []

/-- What `apply_reference_self_transfer_rule` writes. -/
def applyReferenceSelfTransferRule (t : Table transactions) : Table transactions :=
  if referenceRuleApplies txn t then
    t.update (fun row => row.id = txn.id || (otherLegs txn t).any fun other => row.id = other.id)
      (setCategorization (markSelfTransfer env))
  else t

/-! ### The rules and the classifier -/

/-- How `categorize_one` came to what it returned. -/
inductive Path where
  | reference | rules | skipped | emptyInput | classifier
  deriving DecidableEq, Repr

/-- What `categorize_one` returns. -/
def Path.returned : Path → String
  | reference | rules => "rule"
  | skipped => "skip"
  | emptyInput | classifier => "llm"

/-- The rules or the classifier stored a category. -/
def Path.stores : Path → Bool
  | rules | emptyInput | classifier => true
  | reference | skipped => false

/-- What is stored of the answer of the classifier. -/
def ofAnswer (answer : LlmResult) : CategoryColumns :=
  let accountType := resolveAccountType env txn
  let stored : CategoryColumns :=
    { txn.toCategoryColumns with
      categoryMethod := some .llm
      categoryModel := some env.modelName
      categoryConfidence := some answer.confidence
      categoryInputHash := some (inputHashOf env txn)
      categoryVocabVersion := some env.vocabVersion
      categorizedAt := some env.now }
  if answer.slug = needsReview ∨ answer.confidence < env.threshold then
    { stored with
      category := some (resolveDirection unknownSlug txn.direction accountType).slug
      reviewStatus := some "pending"
      reviewReason := some answer.reason }
  else
    let resolved := resolveDirection answer.slug txn.direction accountType
    if resolved.changed then
      { stored with
        category := some resolved.slug
        reviewReason := some ("direction fallback: model said " ++ answer.slug)
        categoryConfidence := some (min answer.confidence (4 / 10))
        reviewStatus := some "pending" }
    else { stored with category := some resolved.slug, reviewStatus := none }

/-- `categorize_one`, after the reference rule. -/
def categorizeRow (useLlm : Bool) (answer : LlmResult) : Path × CategoryColumns :=
  let input := some (inputHashOf env txn)
  match matchRules (fieldsOf env txn) env.config with
  | some hit =>
    (.rules,
      { txn.toCategoryColumns with
        category := some hit.slug
        categoryMethod := some .rule
        categoryConfidence := some hit.confidence
        categoryModel := some rulesetVersion
        categoryInputHash := input
        categoryVocabVersion := some env.vocabVersion
        categorizedAt := some env.now
        reviewStatus := none })
  | none =>
    if useLlm = false then
      (.skipped,
        { txn.toCategoryColumns with
          categoryMethod := some .pendingLlm
          categoryInputHash := input
          categoryVocabVersion := some env.vocabVersion })
    else if txn.counterparty.getD "" = "" ∧ txn.rawDescription.getD "" = "" then
      (.emptyInput,
        { txn.toCategoryColumns with
          category := some unknownSlug
          categoryMethod := some .llm
          categoryConfidence := some 0
          categoryModel := some "empty-input"
          categoryInputHash := input
          categoryVocabVersion := some env.vocabVersion
          categorizedAt := some env.now
          reviewStatus := none })
    else (.classifier, ofAnswer env txn answer)

/-- `categorize_one` -/
def categorizeOne (t : Table transactions) (useLlm : Bool) (answer : LlmResult) :
    Path × Table transactions :=
  if referenceRuleApplies txn t then (.reference, applyReferenceSelfTransferRule env txn t)
  else
    let decided := categorizeRow env txn useLlm answer
    (decided.1, t.update (fun row => row.id = txn.id) (setCategorization fun _ => decided.2))

end

/-! ### What is stored -/

section

variable [UnicodeTables] {env : Env} {txn : CategorizedTransaction} {t : Table transactions}
  {useLlm : Bool} {answer : LlmResult} {slug : String}

/-- `categorize_one` stores the category by the rules or the classifier. -/
def Stores (env : Env) (txn : CategorizedTransaction) (t : Table transactions) (useLlm : Bool)
    (answer : LlmResult) (slug : String) : Prop :=
  (categorizeOne env txn t useLlm answer).1.stores = true ∧
    ∃ row ∈ (categorizeOne env txn t useLlm answer).2, row.id = txn.id ∧ row.category = some slug

omit [UnicodeTables] in
/-- The row of a transaction after its columns are written. -/
theorem exists_row_iff {columns : CategoryColumns} (htxn : txn ∈ t) :
    (∃ row ∈ t.update (fun row => row.id = txn.id) (setCategorization fun _ => columns),
      row.id = txn.id ∧ row.category = some slug) ↔ columns.category = some slug := by
  constructor
  · rintro ⟨row, hrow, hid, hcategory⟩
    obtain ⟨r, -, ⟨-, rfl⟩ | ⟨hne, rfl⟩⟩ := Table.mem_update.mp hrow
    · exact hcategory
    · exact absurd hid (of_decide_eq_false hne)
  · intro hcategory
    exact ⟨_, Table.mem_update.mpr ⟨txn, htxn, .inl ⟨decide_eq_true rfl, rfl⟩⟩, rfl, hcategory⟩

theorem stores_iff (htxn : txn ∈ t) :
    Stores env txn t useLlm answer slug ↔ referenceRuleApplies txn t = false ∧
      (categorizeRow env txn useLlm answer).1.stores = true ∧
      (categorizeRow env txn useLlm answer).2.category = some slug := by
  cases href : referenceRuleApplies txn t with
  | true =>
    have hone : categorizeOne env txn t useLlm answer =
        (.reference, applyReferenceSelfTransferRule env txn t) := by
      rw [categorizeOne, if_pos href]
    unfold Stores
    rw [hone]
    constructor
    · rintro ⟨hstores, -⟩
      cases hstores
    · rintro ⟨hfalse, -⟩
      cases hfalse
  | false =>
    have hone : categorizeOne env txn t useLlm answer =
        ((categorizeRow env txn useLlm answer).1, t.update (fun row => row.id = txn.id)
          (setCategorization fun _ => (categorizeRow env txn useLlm answer).2)) := by
      rw [categorizeOne, href]
      rfl
    unfold Stores
    rw [hone]
    dsimp only
    rw [exists_row_iff htxn]
    simp only [true_and]

theorem ofAnswer_category : ∃ slug, (ofAnswer env txn answer).category =
    some (resolveDirection slug txn.direction (resolveAccountType env txn)).slug := by
  unfold ofAnswer
  dsimp only
  split_ifs
  · exact ⟨unknownSlug, rfl⟩
  · exact ⟨answer.slug, rfl⟩
  · exact ⟨answer.slug, rfl⟩

/-- What is stored where no rule decides is possible. -/
theorem directional_of_no_rule
    (hdirection : txn.direction = "debit" ∨ txn.direction = "credit")
    (hnone : matchRules (fieldsOf env txn) env.config = none)
    (hpath : (categorizeRow env txn useLlm answer).1.stores = true)
    (hcategory : (categorizeRow env txn useLlm answer).2.category = some slug) :
    Directional (fieldsOf env txn) slug := by
  unfold categorizeRow at hpath hcategory
  rw [hnone] at hpath hcategory
  dsimp only at hpath hcategory
  by_cases hllm : useLlm = false
  · rw [if_pos hllm] at hpath
    exact absurd hpath Bool.false_ne_true
  rw [if_neg hllm] at hcategory
  by_cases hempty : txn.counterparty.getD "" = "" ∧ txn.rawDescription.getD "" = ""
  · rw [if_pos hempty] at hcategory
    obtain rfl := Option.some.inj hcategory
    exact { debit := fun _ => by decide
            credit := fun _ hmem => absurd hmem (by decide)
            card := fun _ _ => by decide }
  · rw [if_neg hempty] at hcategory
    obtain ⟨given, hgiven⟩ : ∃ given, (ofAnswer env txn answer).category =
        some (resolveDirection given txn.direction (resolveAccountType env txn)).slug :=
      ofAnswer_category
    obtain rfl := Option.some.inj (hgiven.symm.trans hcategory)
    exact directional_resolveDirection given hdirection

/-- **The category is possible unless an unguarded rule decides.**  For a debit or a credit,
what `categorize_one` stores by the rules or the classifier is possible for the direction and
the account if and only if no rule decides that looks at neither. -/
theorem categorizeOne_directional_iff (env : Env) (t : Table transactions) (useLlm : Bool)
    (answer : LlmResult) (htxn : txn ∈ t)
    (hdirection : txn.direction = "debit" ∨ txn.direction = "credit") :
    (∀ slug, Stores env txn t useLlm answer slug → Directional (fieldsOf env txn) slug) ↔
      (referenceRuleApplies txn t = true ∨ ¬ Unguarded (fieldsOf env txn) env.config) := by
  simp only [stores_iff htxn]
  cases hrule : matchRules (fieldsOf env txn) env.config with
  | none =>
    refine iff_of_true (fun slug ⟨_, hpath, hcategory⟩ =>
      directional_of_no_rule hdirection hrule hpath hcategory) (.inr fun hu => ?_)
    obtain ⟨result, hresult⟩ := matchRules_of_unguarded hu
    rw [hrule] at hresult
    cases hresult
  | some hit =>
    have hpath : (categorizeRow env txn useLlm answer).1.stores = true := by
      unfold categorizeRow
      dsimp only
      rw [hrule]
      rfl
    have hstored : (categorizeRow env txn useLlm answer).2.category = some hit.slug := by
      unfold categorizeRow
      dsimp only
      rw [hrule]
    have hfields : (fieldsOf env txn).direction = "debit" ∨
        (fieldsOf env txn).direction = "credit" := hdirection
    have hiff := directional_matchRules_iff hfields hrule
    rw [← hiff]
    constructor
    · intro h
      by_cases href : referenceRuleApplies txn t = true
      · exact .inl href
      · exact .inr (h hit.slug ⟨(Bool.not_eq_true _).mp href, hpath, hstored⟩)
    · rintro (href | hd) slug ⟨hnot, -, hcategory⟩
      · exact absurd (href.symm.trans hnot) (by decide)
      · exact Option.some.inj (hstored.symm.trans hcategory) ▸ hd

end

/-! ### Rows on which each unguarded rule decides -/

/-- The settings of a holder with one merchant rule; account 1 is a credit card. -/
def plainEnv : Env where
  config := { selfNameTokens := [], merchantRules := [("acme payroll", "salary")] }
  vocabVersion := 1
  now := 0
  threshold := 6 / 10
  modelName := "gpt-4o-mini"
  inputHash _ := ""
  accountType id := if id = 1 then some creditCardAccountType else some "bank_account"

/-- A row that is not categorized yet. -/
def freshRow (direction emailType counterparty : String) (channel : Option String)
    (accountId : Nat) : CategorizedTransaction where
  bank := "hdfc"
  emailType := emailType
  direction := direction
  amount := 100
  currency := some "INR"
  transactionDate := some 739647
  transactionTime := none
  counterparty := some counterparty
  cardMask := none
  accountMask := none
  referenceNumber := none
  channel := channel
  balance := none
  rawDescription := none
  transactionTimeIsReceivedTime := false
  identifiesBy := .counterparty
  id := 1
  smsMessageId := none
  emailId := some 1
  source := some Transactions.Channel.email.value
  accountId := some accountId
  cardId := none
  enrichedAt := none
  category := none
  categoryMethod := none
  categoryConfidence := none
  categoryModel := none
  categoryInputHash := none
  categoryVocabVersion := none
  categorizedAt := none
  reviewStatus := none
  reviewReason := none

/-- A table of one row. -/
def single (row : CategorizedTransaction) : Table transactions where
  rows := [row]
  ids := List.nodup_singleton _
  unique := List.pairwise_singleton _ _

def cardInterest : CategorizedTransaction :=
  freshRow "credit" "cc_credit" "Interest" (some "interest") 1

/-- A card's credit at the merchant of the rule. -/
def cardSalary : CategorizedTransaction := freshRow "credit" "cc_credit" "ACME Payroll" none 1

/-- A debit by a refund's email. -/
def debitRefund : CategorizedTransaction := freshRow "debit" "hdfc_cc_refund" "Acme" none 1

/-- A credit at the merchant of the rule on a bank account. -/
def bankSalary : CategorizedTransaction := freshRow "credit" "upi" "ACME Payroll" none 2

/-- An answer of the classifier. -/
def plainAnswer : LlmResult := ⟨"dining", 9 / 10, "a restaurant"⟩

theorem mem_single (row : CategorizedTransaction) : row ∈ single row := List.mem_singleton_self row

theorem categorizeOne_directional_bankSalary :
    let _ := asciiTables
    (¬ Unguarded (fieldsOf plainEnv bankSalary) plainEnv.config) ∧
      Stores plainEnv bankSalary (single bankSalary) true plainAnswer "salary" ∧
      Directional (fieldsOf plainEnv bankSalary) "salary" := by
  intro _
  have hguarded : ¬ Unguarded (fieldsOf plainEnv bankSalary) plainEnv.config := by
    rintro (⟨-, -, -, hacct⟩ | ⟨-, -, hd⟩ | ⟨_, -, -, hacct, -, -⟩)
    · exact absurd hacct (by decide)
    · exact absurd hd (by decide)
    · exact absurd hacct (by decide)
  have hstores : Stores plainEnv bankSalary (single bankSalary) true plainAnswer "salary" :=
    (stores_iff (mem_single _)).mpr ⟨by decide +kernel, by decide +kernel, by decide +kernel⟩
  exact ⟨hguarded, hstores, (categorizeOne_directional_iff plainEnv (single bankSalary) true
    plainAnswer (mem_single _) (.inr rfl)).mpr (.inr hguarded) "salary" hstores⟩

/-- Each of the unguarded rules stores what is impossible. -/
theorem not_directional :
    let _ := asciiTables
    ∀ row ∈ [cardInterest, cardSalary, debitRefund], ∃ slug,
      Stores plainEnv row (single row) true plainAnswer slug ∧
        ¬ Directional (fieldsOf plainEnv row) slug := by
  intro _
  have stored {row slug} (h : referenceRuleApplies row (single row) = false ∧
      (categorizeRow plainEnv row true plainAnswer).1.stores = true ∧
      (categorizeRow plainEnv row true plainAnswer).2.category = some slug) :
      Stores plainEnv row (single row) true plainAnswer slug := (stores_iff (mem_single row)).mpr h
  simp only [List.forall_mem_cons, List.not_mem_nil, false_imp_iff, implies_true, and_true]
  refine ⟨⟨"interest", stored (by decide +kernel), ?_⟩, ⟨"salary", stored (by decide +kernel), ?_⟩,
    ⟨"refund", stored (by decide +kernel), ?_⟩⟩
  · exact fun h => h.card rfl rfl (by decide)
  · exact fun h => h.card rfl rfl (by decide)
  · exact fun h => h.debit rfl (by decide)

end FinancialDashboard.Categorization
