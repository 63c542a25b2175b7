import FinancialDashboard.Cashflow.Report
import Mathlib.Tactic.Linarith
import Mathlib.Tactic.Ring

/-!
# The cashflow report reconciles

Every in-range row of the bank scope that is not excluded is counted in one figure: its
bucket, or the footnote for what the buckets leave out.

A figure is told by the rows it counts, `countedRows`: those of its own query, or those of
the shared scan that Python gives its bucket.

* `holds_uncategorized`, `holds_internal`, `holds_ofCategory`: each clause on the category
  says what `bucketForSlug` says.
* `tally_place`, `tally_foldl_place`: one group, and all of them.
* `tally_cashflowSummary`: each figure is the tally of its rows.
* `cashflowSummary_reconciles`: the figures add up to the flow of the bank.
-/

namespace FinancialDashboard.Cashflow

open Sql Sql.Truth Transactions

/-! ### The clauses -/

section

variable {session : Session} {dateFrom dateTo : Int} {t : BookedTransaction}

theorem holds_blank {value : Option String} :
    (blank value).holds = true ↔ ∀ s, value = some s → trim blankChars s = "" := by
  rw [blank, holds_or, Bool.or_eq_true, holds_isNull, holds_eq]
  cases value with
  | none => simp
  | some s => simp

/-- No slug that has a bucket is blank. -/
theorem trim_ne_of_mem {slug : String} (h : slug ∈ bucketBySlug) : trim blankChars slug ≠ "" := by
  have hall : ∀ k ∈ bucketBySlug.keys, trim blankChars k ≠ "" := by decide +kernel
  exact hall slug h

/-- **The clause on uncategorized rows is the bucket.** -/
theorem holds_uncategorized : (uncategorized t).holds = true ↔
    bucketForSlug t.category (some .bank) = .uncategorized := by
  rw [uncategorized, holds_or, Bool.or_eq_true, holds_or, Bool.or_eq_true, holds_blank, holds_eq,
    holds_notIn]
  cases hcategory : t.category with
  | none => simp [bucketForSlug]
  | some slug =>
    rw [bucketForSlug_uncategorized_iff]
    constructor
    · rintro ((hblank | hunknown) | ⟨other, hother, heq⟩) hmem
      · exact trim_ne_of_mem hmem (hblank slug rfl)
      · rw [Option.some.inj hunknown] at hmem
        exact absurd hmem (by decide +kernel)
      · exact hother (Option.some.inj heq ▸ hmem)
    · intro h
      exact .inr ⟨slug, h, rfl⟩

/-- **A clause on one category is a bucket of one slug.** -/
theorem holds_ofCategory {slug : String} {b : Bucket} (hb : b ≠ .uncategorized)
    (hslugs : slugsOf (some .bank) b = [slug]) : (ofCategory slug t).holds = true ↔
      bucketForSlug t.category (some .bank) = b := by
  rw [ofCategory, holds_eq]
  cases hcategory : t.category with
  | none => simpa [bucketForSlug] using hb.symm
  | some other => rw [bucketForSlug_eq_iff hb, hslugs, List.mem_singleton, Option.some_inj]

theorem holds_transfersIn : (ofCategory transfersInSlug t).holds = true ↔
    bucketForSlug t.category (some .bank) = .transfersIn :=
  holds_ofCategory (by decide) (by decide +kernel)

theorem holds_family : (ofCategory familySlug t).holds = true ↔
    bucketForSlug t.category (some .bank) = .family :=
  holds_ofCategory (by decide) (by decide +kernel)

/-- **Over the bank, internal is what the owner sends themselves.** -/
theorem holds_internal :
    (isIn t.category (internalSlugsForScope (some .bank))).holds = true ↔
      bucketForSlug t.category (some .bank) = .internal := by
  have hself : (ofCategory selfTransferSlug t).holds = true ↔
      bucketForSlug t.category (some .bank) = .internal :=
    holds_ofCategory (by decide) (by decide +kernel)
  have hone : internalSlugsForScope (some .bank) = [selfTransferSlug] := rfl
  rw [← hself, ofCategory, holds_eq, holds_isIn, hone]
  simp

theorem holds_inrOrNull : (inrOrNull t).holds = true ↔ t.currency = none ∨ t.currency = some "INR" := by
  rw [inrOrNull, holds_or, Bool.or_eq_true, holds_isNull, holds_eq]

end

/-! ### Lines -/

/-- The flow and the count of lines; `sign` is that of the flow in their totals. -/
def flowOf (sign : Rat) (lines : List CategoryLine) : Tally Rat :=
  (sign * (lines.map (·.total)).sum, (lines.map (·.count)).sum)

theorem flowOf_perm {sign : Rat} {lines more : List CategoryLine} (h : lines.Perm more) :
    flowOf sign lines = flowOf sign more := by
  rw [flowOf, (h.map _).sum_eq, (h.map _).sum_eq, flowOf]

theorem flowOf_sortCategories (sign : Rat) (lines : List CategoryLine) :
    flowOf sign (sortCategories lines) = flowOf sign lines :=
  flowOf_perm (List.perm_insertionSort _ _)

theorem flowOf_append (sign : Rat) (lines more : List CategoryLine) :
    flowOf sign (lines ++ more) = flowOf sign lines + flowOf sign more := by
  simp [flowOf, mul_add]

/-- Whether the slug has a line or not, the lines gain the flow and the count. -/
theorem flowOf_merge (sign total : Rat) (slug : Option String) (count : Nat)
    (lines : List CategoryLine) :
    flowOf sign (merge slug total count lines) = flowOf sign lines + (sign * total, count) := by
  induction lines with
  | nil => simp [merge, flowOf]
  | cons line rest ih =>
    rw [merge]
    split_ifs with hslug
    · simp only [flowOf, List.map_cons, List.sum_cons, Prod.mk_add_mk, Prod.mk.injEq]
      constructor
      · ring
      · omega
    · simp only [flowOf, List.map_cons, List.sum_cons, Prod.mk_add_mk, Prod.mk.injEq] at ih ⊢
      obtain ⟨htotal, hcount⟩ := ih
      constructor
      · rw [mul_add, htotal]
        ring
      · omega

/-! ### The loop over the groups -/

/-- The flow and the count in the lines of a bucket. -/
def Placed.tally (placed : Placed) : Bucket → Tally Rat
  | .income => flowOf 1 placed.income
  | .expense => flowOf (-1) placed.expense
  | .investment => flowOf (-1) placed.investment
  | _ => 0

/-- The buckets that the loop fills. -/
def headlineBuckets : List Bucket := [.income, .expense, .investment]

/-- **A group is counted in its bucket** and in no other. -/
theorem tally_place {b : Bucket} (hb : b ∈ headlineBuckets) (placed : Placed)
    (group : Group (Option String × String) Rat) :
    (place placed group).tally b = placed.tally b +
      if bucketForSlug group.key.1 (some .bank) = b then group.tally else 0 := by
  have hincome : ∀ lines, flowOf 1 (merge group.key.1 (decimal group.sum) group.count lines) =
      flowOf 1 lines + group.tally := by
    intro lines
    rw [flowOf_merge, one_mul]
    rfl
  have hexpense : ∀ lines, flowOf (-1) (merge group.key.1 (-decimal group.sum) group.count lines) =
      flowOf (-1) lines + group.tally := by
    intro lines
    rw [flowOf_merge, neg_one_mul, neg_neg]
    rfl
  have hinvestment : ∀ lines, flowOf (-1) (lines ++ [investmentLine group]) =
      flowOf (-1) lines + group.tally := by
    intro lines
    rw [flowOf_append]
    simp [flowOf, investmentLine, Group.tally, decimal]
  simp only [headlineBuckets, List.mem_cons, List.not_mem_nil, or_false] at hb
  unfold place
  cases bucketForSlug group.key.1 (some .bank) <;> rcases hb with rfl | rfl | rfl <;>
    simp [Placed.tally, hincome, hexpense, hinvestment]

/-- **Each bucket has the tally of its groups.** -/
theorem tally_foldl_place {b : Bucket} (hb : b ∈ headlineBuckets)
    (groups : List (Group (Option String × String) Rat)) (placed : Placed) :
    (groups.foldl place placed).tally b = placed.tally b +
      ((groups.filter fun g => bucketForSlug g.key.1 (some .bank) = b).map Group.tally).sum := by
  induction groups generalizing placed with
  | nil => simp
  | cons group rest ih =>
    rw [List.foldl_cons, ih, tally_place hb, List.filter_cons]
    by_cases h : bucketForSlug group.key.1 (some .bank) = b
    · simp [h, add_assoc]
    · simp [h]

/-! ### The figures -/

/-- The figure of a bucket in the report: its flow, credits counting as positive, and its
count. -/
def CashflowSummary.tally (summary : CashflowSummary) : Bucket → Tally Rat
  | .income => (summary.income.total, summary.income.count)
  | .expense => (-summary.expense.total, summary.expense.count)
  | .investment => (-summary.investment.net, summary.investment.count)
  | .transfersIn => (summary.transfersIn.total, summary.transfersIn.count)
  | .family => (summary.footnotes.familyNet, summary.footnotes.familyCount)
  | .internal => (summary.footnotes.internalNet, summary.footnotes.internalCount)
  | .uncategorized => (summary.uncategorized.total, summary.uncategorized.count)

theorem flowOf_bucket (lines : List CategoryLine) :
    ((bucket lines).total, (bucket lines).count) = flowOf 1 lines := by
  rw [flowOf, one_mul]
  rfl

theorem flowOf_bucket_neg (lines : List CategoryLine) :
    (-(bucket lines).total, (bucket lines).count) = flowOf (-1) lines := by
  rw [flowOf, neg_one_mul]
  rfl

/-- What is contributed and what is redeemed is all there is. -/
theorem flowOf_investmentSummary {lines : List CategoryLine}
    (hkind : ∀ line ∈ lines, line.kind ≠ none) :
    (-(investmentSummary lines).net, (investmentSummary lines).count) = flowOf (-1) lines := by
  have hnet : (investmentSummary lines).net = (lines.map (·.total)).sum := by
    change totalOfKind .contribution lines - -totalOfKind .redemption lines = _
    rw [sub_neg_eq_add]
    unfold totalOfKind
    induction lines with
    | nil => simp
    | cons line rest ih =>
      have hrest := ih fun l hl => hkind l (List.mem_cons_of_mem _ hl)
      rw [List.map_cons, List.sum_cons, ← hrest]
      cases hk : line.kind with
      | none => exact absurd hk (hkind line List.mem_cons_self)
      | some kind =>
        cases kind with
        | contribution =>
          simp [hk]
          ring
        | redemption =>
          simp [hk]
          ring
  rw [hnet, flowOf, neg_one_mul]
  rfl

section

variable (session : Session) (dateFrom dateTo : Int)

/-- The rows that the figure of a bucket counts. -/
def countedRows : Bucket → List BookedTransaction
  | .transfersIn => transfersInRows session dateFrom dateTo
  | .family => familyRows session dateFrom dateTo
  | .internal => internalRows session dateFrom dateTo
  | .uncategorized => uncategorizedRows session dateFrom dateTo
  | b => (headlineRows session dateFrom dateTo).filter fun t =>
      bucketForSlug t.category (some .bank) = b

/-- The rows that are to be accounted for. -/
def bankRows : List BookedTransaction :=
  select [inRange dateFrom dateTo, bankScope session, included] session.transactions.rows

variable {session dateFrom dateTo}

theorem tally_placedGroups {b : Bucket} (hb : b ∈ headlineBuckets) :
    (placedGroups session dateFrom dateTo).tally b =
      Sql.tally signedFlow ((headlineRows session dateFrom dateTo).filter fun t =>
        bucketForSlug t.category (some .bank) = b) := by
  rw [placedGroups, tally_foldl_place hb]
  have hzero : (⟨[], [], []⟩ : Placed).tally b = 0 := by
    cases b <;> simp [Placed.tally, flowOf]
  rw [hzero, zero_add]
  exact tally_groupBy (fun t : BookedTransaction => (t.category, t.direction)) signedFlow _
    fun key => bucketForSlug key.1 (some .bank) = b

/-- Every line of the investment bucket has a kind. -/
theorem kind_of_investment (groups : List (Group (Option String × String) Rat)) :
    ∀ line ∈ (groups.foldl place ⟨[], [], []⟩).investment, line.kind ≠ none := by
  suffices h : ∀ placed : Placed, (∀ line ∈ placed.investment, line.kind ≠ none) →
      ∀ line ∈ (groups.foldl place placed).investment, line.kind ≠ none by
    exact h _ fun line hline => absurd hline List.not_mem_nil
  induction groups with
  | nil => exact fun placed h => h
  | cons group rest ih =>
    intro placed h
    refine ih (place placed group) fun line hline => ?_
    unfold place at hline
    cases hbucket : bucketForSlug group.key.1 (some .bank) <;> rw [hbucket] at hline
    case investment =>
      rcases List.mem_append.mp hline with hline | hline
      · exact h line hline
      · rw [List.mem_singleton.mp hline]
        exact Option.some_ne_none _
    all_goals exact h line hline

theorem tally_transfersIn : ((transfersIn session dateFrom dateTo).total,
    (transfersIn session dateFrom dateTo).count) =
      Sql.tally signedFlow (transfersInRows session dateFrom dateTo) := by
  rw [← totals_groupBy fun t => normalized t.counterparty]
  unfold transfersIn byMagnitude
  dsimp only
  rw [((List.perm_insertionSort _ _).map _).sum_eq, ((List.perm_insertionSort _ _).map _).sum_eq,
    List.map_map, List.map_map]
  rfl

theorem tally_uncategorized : ((uncategorizedSummary session dateFrom dateTo).total,
    (uncategorizedSummary session dateFrom dateTo).count) =
      Sql.tally signedFlow (uncategorizedRows session dateFrom dateTo) := by
  rw [← totals_groupBy fun t => normalized t.category, uncategorizedSummary, flowOf_bucket,
    flowOf_sortCategories, flowOf, one_mul, List.map_map, List.map_map]
  rfl

theorem tally_net (rows : List BookedTransaction) :
    (net rows, rows.length) = Sql.tally signedFlow rows := by
  rw [tally_eq, net, decimal, getD_sum]

/-- **Each figure of the report is the tally of the rows it counts.** -/
theorem tally_cashflowSummary (b : Bucket) : (cashflowSummary session dateFrom dateTo).tally b =
    Sql.tally signedFlow (countedRows session dateFrom dateTo b) := by
  cases b with
  | income =>
    refine Eq.trans ?_ (tally_placedGroups (b := .income) (by decide))
    exact (flowOf_bucket _).trans (flowOf_sortCategories _ _)
  | expense =>
    refine Eq.trans ?_ (tally_placedGroups (b := .expense) (by decide))
    exact (flowOf_bucket_neg _).trans (flowOf_sortCategories _ _)
  | investment =>
    refine Eq.trans ?_ (tally_placedGroups (b := .investment) (by decide))
    refine (flowOf_investmentSummary fun line hline => ?_).trans (flowOf_sortCategories _ _)
    exact kind_of_investment _ line ((List.mem_insertionSort _).mp hline)
  | transfersIn => exact tally_transfersIn
  | family => exact tally_net _
  | internal => exact tally_net _
  | uncategorized => exact tally_uncategorized

end

/-! ### Reconciliation -/

section

variable {session : Session} {dateFrom dateTo : Int}

/-- A clause that says what the bucket says. -/
theorem filter_bucket {clause : BookedTransaction → Truth} {b : Bucket}
    (h : ∀ t, (clause t).holds = true ↔ bucketForSlug t.category (some .bank) = b)
    (rows : List BookedTransaction) : rows.filter (fun t => (clause t).holds) =
      rows.filter fun t => bucketForSlug t.category (some .bank) = b := by
  refine List.filter_congr fun t _ => ?_
  rw [Bool.eq_iff_iff, h, decide_eq_true_iff]

theorem headlineRows_eq
    (hinr : ∀ t ∈ bankRows session dateFrom dateTo, t.currency = none ∨ t.currency = some "INR") :
    headlineRows session dateFrom dateTo = bankRows session dateFrom dateTo := by
  refine List.filter_congr fun t ht => ?_
  rw [Bool.eq_iff_iff, holds_all, holds_all]
  have hrow : (∀ clause ∈ [inRange dateFrom dateTo, bankScope session, included],
      (clause t).holds = true) → (inrOrNull t).holds = true :=
    fun hall => holds_inrOrNull.mpr (hinr t (mem_select.mpr ⟨ht, hall⟩))
  simp only [List.forall_mem_cons, List.not_mem_nil, false_imp_iff, implies_true, and_true] at hrow ⊢
  tauto

theorem familyRows_eq
    (hfamily : ∀ t ∈ familyRows session dateFrom dateTo, (bankScope session t).holds = true) :
    familyRows session dateFrom dateTo = (bankRows session dateFrom dateTo).filter fun t =>
      (ofCategory familySlug t).holds := by
  rw [bankRows, ← select_concat]
  refine List.filter_congr fun t ht => ?_
  rw [Bool.eq_iff_iff, holds_all, holds_all]
  have hrow : (∀ clause ∈ [inRange dateFrom dateTo, included, ofCategory familySlug],
      (clause t).holds = true) → (bankScope session t).holds = true :=
    fun hall => hfamily t (mem_select.mpr ⟨ht, hall⟩)
  simp only [List.cons_append, List.nil_append, List.forall_mem_cons, List.not_mem_nil,
    false_imp_iff, implies_true, and_true] at hrow ⊢
  tauto

/-- **A figure counts the rows of its bucket**, where the bank has no foreign currency and
family rows are of the bank. -/
theorem countedRows_eq
    (hinr : ∀ t ∈ bankRows session dateFrom dateTo, t.currency = none ∨ t.currency = some "INR")
    (hfamily : ∀ t ∈ familyRows session dateFrom dateTo, (bankScope session t).holds = true)
    (b : Bucket) : countedRows session dateFrom dateTo b =
      (bankRows session dateFrom dateTo).filter fun t =>
        bucketForSlug t.category (some .bank) = b := by
  cases b with
  | income | expense | investment =>
    rw [← headlineRows_eq hinr]
    rfl
  | transfersIn =>
    rw [← headlineRows_eq hinr, ← filter_bucket fun _ => holds_transfersIn]
    exact select_concat [inRange dateFrom dateTo, inrOrNull, bankScope session, included]
      (ofCategory transfersInSlug) session.transactions.rows
  | family =>
    rw [← filter_bucket fun _ => holds_family]
    exact familyRows_eq hfamily
  | internal =>
    rw [← filter_bucket fun _ => holds_internal]
    exact select_concat [inRange dateFrom dateTo, bankScope session, included]
      (fun t => isIn t.category (internalSlugsForScope (some .bank))) session.transactions.rows
  | uncategorized =>
    rw [← filter_bucket fun _ => holds_uncategorized]
    exact select_concat [inRange dateFrom dateTo, bankScope session, included] uncategorized
      session.transactions.rows

def buckets : List Bucket :=
  [.income, .expense, .investment, .transfersIn, .family, .internal, .uncategorized]

theorem mem_buckets (b : Bucket) : b ∈ buckets := by
  cases b <;> decide

/-- The flow of the bank is what the report says became of it, and each row is counted in
one figure. -/
structure Reconciles (session : Session) (dateFrom dateTo : Int) (summary : CashflowSummary) :
    Prop where
  net : ((bankRows session dateFrom dateTo).map signedFlow).sum =
    summary.netCashRetained + summary.footnotes.internalNet + summary.uncategorized.total +
      summary.footnotes.familyNet
  count : (bankRows session dateFrom dateTo).length =
    summary.income.count + summary.expense.count + summary.investment.count +
      summary.transfersIn.count + summary.footnotes.internalCount + summary.uncategorized.count +
      summary.footnotes.familyCount
  counted : ∀ b, summary.tally b = Sql.tally signedFlow (countedRows session dateFrom dateTo b)
  once : ∀ t ∈ bankRows session dateFrom dateTo, ∃! b, t ∈ countedRows session dateFrom dateTo b
  only : ∀ b, ∀ t ∈ countedRows session dateFrom dateTo b, t ∈ bankRows session dateFrom dateTo

/-- What is retained is what the headline buckets and the transfers say. -/
theorem netCashRetained_eq (session : Session) (dateFrom dateTo : Int) :
    (cashflowSummary session dateFrom dateTo).netCashRetained =
      (cashflowSummary session dateFrom dateTo).income.total +
        (cashflowSummary session dateFrom dateTo).transfersIn.total -
        (cashflowSummary session dateFrom dateTo).expense.total -
        (cashflowSummary session dateFrom dateTo).investment.net := rfl

/-- **The report reconciles**: whatever the categories and the directions. -/
theorem cashflowSummary_reconciles
    (hinr : ∀ t ∈ bankRows session dateFrom dateTo, t.currency = none ∨ t.currency = some "INR")
    (hfamily : ∀ t ∈ familyRows session dateFrom dateTo, (bankScope session t).holds = true) :
    Reconciles session dateFrom dateTo (cashflowSummary session dateFrom dateTo) := by
  have htally : (buckets.map (cashflowSummary session dateFrom dateTo).tally).sum =
      Sql.tally signedFlow (bankRows session dateFrom dateTo) := by
    rw [← tally_fibers (fun t => bucketForSlug t.category (some .bank))
      (by decide : buckets.Nodup) fun t _ => mem_buckets _]
    refine congrArg List.sum (List.map_congr_left fun b _ => ?_)
    rw [tally_cashflowSummary, countedRows_eq hinr hfamily]
  rw [tally_eq, sum_tallies, Prod.mk.injEq] at htally
  obtain ⟨hflow, hcount⟩ := htally
  have hmem : ∀ t b, t ∈ countedRows session dateFrom dateTo b ↔
      t ∈ bankRows session dateFrom dateTo ∧ bucketForSlug t.category (some .bank) = b := by
    intro t b
    rw [countedRows_eq hinr hfamily, List.mem_filter, decide_eq_true_iff]
  constructor
  · rw [← hflow, netCashRetained_eq]
    simp only [buckets, CashflowSummary.tally, List.map_cons, List.map_nil, List.sum_cons,
      List.sum_nil]
    ring
  · rw [← hcount]
    simp only [buckets, CashflowSummary.tally, List.map_cons, List.map_nil, List.sum_cons,
      List.sum_nil]
    omega
  · exact tally_cashflowSummary
  · intro t ht
    exact ⟨_, (hmem t _).mpr ⟨ht, rfl⟩, fun b hb => ((hmem t b).mp hb).2.symm⟩
  · exact fun b t ht => ((hmem t b).mp ht).1

/-- A transaction of account 1. -/
def cashRow (id : Nat) (direction : String) (amount : Rat) (category : Option String) :
    BookedTransaction where
  bank := "hdfc"
  emailType := "hdfc_debit"
  direction := direction
  amount := amount
  currency := none
  transactionDate := some 739000
  transactionTime := none
  counterparty := some "Acme"
  cardMask := none
  accountMask := none
  referenceNumber := none
  channel := none
  balance := none
  rawDescription := none
  transactionTimeIsReceivedTime := false
  identifiesBy := .counterparty
  id := id
  smsMessageId := none
  emailId := none
  source := none
  accountId := some 1
  cardId := none
  note := none
  category := category
  excludeFromCashflow := none

/-- A month with rows of every bucket. -/
def aMonth : Session where
  accounts := [⟨1, "hdfc", "Salary", "bank_account", some true⟩]
  nodup_accounts := by decide
  transactions := ⟨[cashRow 1 "credit" 900 (some "salary"), cashRow 2 "debit" 200 (some "rent"),
    cashRow 3 "credit" 20 (some "refund"), cashRow 4 "debit" 300 (some "credit_card_payment"),
    cashRow 5 "debit" 100 (some "investment"), cashRow 6 "credit" 50 (some "investment"),
    cashRow 7 "credit" 30 (some "repayment"), cashRow 8 "debit" 40 (some "self_transfer"),
    cashRow 9 "debit" 15 (some "family"), cashRow 10 "debit" 5 none, cashRow 11 "credit" 6 (some " \t"),
    cashRow 12 "reversed" 7 (some "Rent"), cashRow 13 "debit" 8 (some "unknown")], by decide⟩

theorem cashflowSummary_reconciles_aMonth :
    Reconciles aMonth 738990 739010 (cashflowSummary aMonth 738990 739010) :=
  cashflowSummary_reconciles (by decide +kernel) (by decide +kernel)

end

end FinancialDashboard.Cashflow
