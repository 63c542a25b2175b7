import FinancialDashboard.Cashflow.Listing
import FinancialDashboard.Cashflow.Trend

/-!
# Drill-through

The links of the cashflow page (`templates/cashflow/index.html`): every line, linked tile
and footnote with its count and the query it links with.  A query is given by its
parameters, as the listing reads them.

* `linked_drills`: no line, linked tile or footnote is without its link.
* `count_mergeAll`, `count_line`: what a line that gathers groups counts.
* `normalized_eq_some`, `holds_counterpartyClause`: the blanks are one group, and one filter.
* `faithful_of_chosen`: a link is faithful if its clauses are those of the rows it counts.
* `drills_faithful`: every link is.
-/

namespace FinancialDashboard.Cashflow

open Sql Sql.Truth Transactions PyTime

/-! ### The links -/

/-- A count of the page and the query that it links with. -/
structure Drill where
  count : Nat
  query : TransactionQuery
  deriving DecidableEq, Repr

section

variable (summary : CashflowSummary) (dateFrom dateTo : String)

/-- `range_qs`. -/
def rangeQuery : TransactionQuery := { dateFrom := some dateFrom, dateTo := some dateTo }

/-- `bank_qs`. -/
def bankQuery : TransactionQuery :=
  { rangeQuery dateFrom dateTo with scope := some .bank, excluded := some "0" }

/-- `core_qs`. -/
def coreQuery : TransactionQuery := { bankQuery dateFrom dateTo with nonInr := some "0" }

/-- `detail_qs`. -/
def detailQuery : TransactionQuery :=
  { rangeQuery dateFrom dateTo with nonInr := some "0", excluded := some "0" }

/-- `unaccounted_qs`. -/
def unaccountedQuery : TransactionQuery :=
  { rangeQuery dateFrom dateTo with scope := some .unaccounted, excluded := some "0" }

/-- A slug as the template writes it; no line that it is written for is without. -/
def slugText (slug : Option String) : String := slug.getD "None"

def coreDrill (line : CategoryLine) : Drill :=
  ⟨line.count, { coreQuery dateFrom dateTo with category := some (slugText line.slug) }⟩

/-- The investment lines split a slug by direction. -/
def investmentDrill (line : CategoryLine) : Drill :=
  ⟨line.count, { coreQuery dateFrom dateTo with
    category := some (slugText line.slug)
    direction := some (if line.kind = some .contribution then "debit" else "credit") }⟩

def transferDrill (line : CounterpartyLine) : Drill :=
  ⟨line.count, { coreQuery dateFrom dateTo with
    category := some "repayment"
    counterparty := some (line.counterparty.getD "") }⟩

/-- A line without a slug has a parameter of its own. -/
def uncategorizedDrill (line : CategoryLine) : Drill :=
  ⟨line.count, match line.slug with
    | some slug => { bankQuery dateFrom dateTo with category := some slug }
    | none => { bankQuery dateFrom dateTo with categoryNull := some "1" }⟩

def detailDrill (line : CategoryLine) : Drill :=
  ⟨line.count, { detailQuery dateFrom dateTo with category := some (slugText line.slug) }⟩

/-- The tiles that are links. -/
def tileDrills : List Drill := [
  ⟨summary.transfersIn.count, { coreQuery dateFrom dateTo with category := some "repayment" }⟩,
  ⟨summary.uncategorized.count, { bankQuery dateFrom dateTo with uncategorized := some "1" }⟩]

def footnoteDrills (footnotes : Footnotes) : List Drill := [
  ⟨footnotes.internalCount, { bankQuery dateFrom dateTo with internal := some "1" }⟩,
  ⟨footnotes.familyCount, { rangeQuery dateFrom dateTo with
    category := some "family", excluded := some "0" }⟩,
  ⟨footnotes.nonInrCount, { bankQuery dateFrom dateTo with nonInr := some "1" }⟩,
  ⟨footnotes.unaccountedCount, unaccountedQuery dateFrom dateTo⟩,
  ⟨footnotes.undatedCount, { undated := some "1" }⟩,
  ⟨footnotes.excludedCount, { rangeQuery dateFrom dateTo with excluded := some "1" }⟩]

/-- The links of the page. -/
def drills : List Drill :=
  tileDrills summary dateFrom dateTo ++
  summary.income.lines.map (coreDrill dateFrom dateTo) ++
  summary.expense.lines.map (coreDrill dateFrom dateTo) ++
  summary.investment.lines.map (investmentDrill dateFrom dateTo) ++
  summary.transfersIn.lines.map (transferDrill dateFrom dateTo) ++
  summary.uncategorized.lines.map (uncategorizedDrill dateFrom dateTo) ++
  summary.expenseDetail.lines.map (detailDrill dateFrom dateTo) ++
  footnoteDrills dateFrom dateTo summary.footnotes

/-- Every line, every linked tile and every footnote of the summary has its own link. -/
structure Linked (links : List Drill) : Prop where
  tiles : ∀ drill ∈ tileDrills summary dateFrom dateTo, drill ∈ links
  income : ∀ line ∈ summary.income.lines, coreDrill dateFrom dateTo line ∈ links
  expense : ∀ line ∈ summary.expense.lines, coreDrill dateFrom dateTo line ∈ links
  investment : ∀ line ∈ summary.investment.lines, investmentDrill dateFrom dateTo line ∈ links
  transfersIn : ∀ line ∈ summary.transfersIn.lines, transferDrill dateFrom dateTo line ∈ links
  uncategorized : ∀ line ∈ summary.uncategorized.lines,
    uncategorizedDrill dateFrom dateTo line ∈ links
  expenseDetail : ∀ line ∈ summary.expenseDetail.lines, detailDrill dateFrom dateTo line ∈ links
  footnotes : ∀ drill ∈ footnoteDrills dateFrom dateTo summary.footnotes, drill ∈ links

/-- **The page leaves no figure without its link.** -/
theorem linked_drills : Linked summary dateFrom dateTo (drills summary dateFrom dateTo) := by
  have hmap : ∀ {line : CategoryLine} {lines : List CategoryLine} (link : CategoryLine → Drill),
      line ∈ lines → link line ∈ lines.map link := fun link h => List.mem_map_of_mem h
  unfold drills
  constructor
  case tiles =>
    intro drill h
    simp only [List.mem_append, h, true_or]
  case footnotes =>
    intro drill h
    simp only [List.mem_append, h, or_true]
  case transfersIn =>
    intro line h
    simp only [List.mem_append, List.mem_map_of_mem h, true_or, or_true]
  case income =>
    intro line h
    simp only [List.mem_append, hmap (coreDrill dateFrom dateTo) h, true_or, or_true]
  case expense =>
    intro line h
    simp only [List.mem_append, hmap (coreDrill dateFrom dateTo) h, true_or, or_true]
  case investment =>
    intro line h
    simp only [List.mem_append, hmap (investmentDrill dateFrom dateTo) h, true_or, or_true]
  case uncategorized =>
    intro line h
    simp only [List.mem_append, hmap (uncategorizedDrill dateFrom dateTo) h, true_or, or_true]
  case expenseDetail =>
    intro line h
    simp only [List.mem_append, hmap (detailDrill dateFrom dateTo) h, true_or, or_true]

end

/-! ### What a line counts -/

section

variable {κ : Type} {amount : Group κ Rat → Rat} {slug : Group κ Rat → Option String}
  {groups : List (Group κ Rat)} {line : CategoryLine}

/-- The lines of some groups, one for each slug. -/
def mergeAll (amount : Group κ Rat → Rat) (slug : Group κ Rat → Option String)
    (groups : List (Group κ Rat)) : List CategoryLine :=
  groups.foldl (fun lines g => merge (slug g) (amount g) g.count lines) []

/-- What the lines of a slug count. -/
def countOf (slug : Option String) (lines : List CategoryLine) : Nat :=
  ((lines.filter (·.slug = slug)).map (·.count)).sum

theorem countOf_cons (s : Option String) (line : CategoryLine) (rest : List CategoryLine) :
    countOf s (line :: rest) = (if line.slug = s then line.count else 0) + countOf s rest := by
  by_cases h : line.slug = s
  · simp [countOf, h]
  · simp [countOf, h]

theorem countOf_merge (s slug : Option String) (total : Rat) (count : Nat)
    (lines : List CategoryLine) : countOf s (merge slug total count lines) =
      countOf s lines + if slug = s then count else 0 := by
  induction lines with
  | nil => rw [merge, countOf_cons, Nat.add_comm]
  | cons line rest ih =>
    rw [merge]
    split_ifs with hline hs hs
    · rw [countOf_cons, countOf_cons, if_pos (hline.trans hs), if_pos (hline.trans hs)]
      dsimp only
      omega
    · rw [countOf_cons, countOf_cons, if_neg (hline.trans_ne hs), if_neg (hline.trans_ne hs)]
      rfl
    · rw [countOf_cons, countOf_cons, ih, if_pos hs]
      omega
    · rw [countOf_cons, countOf_cons, ih, if_neg hs]
      rfl

/-- A slug that has a line keeps it, one that has none gets the last. -/
theorem slugs_merge (slug : Option String) (total : Rat) (count : Nat) (lines : List CategoryLine) :
    (merge slug total count lines).map (·.slug) =
      if slug ∈ lines.map (·.slug) then lines.map (·.slug) else lines.map (·.slug) ++ [slug] := by
  induction lines with
  | nil => rfl
  | cons line rest ih =>
    rw [merge]
    by_cases h : line.slug = slug
    · simp [h]
    · have hne : slug ≠ line.slug := fun heq => h heq.symm
      simp only [if_neg h, List.map_cons, ih, List.mem_cons, hne, false_or]
      split_ifs <;> rfl

theorem mergeAll_concat (g : Group κ Rat) : mergeAll amount slug (groups ++ [g]) =
    merge (slug g) (amount g) g.count (mergeAll amount slug groups) := by
  simp [mergeAll]

theorem nodup_mergeAll : ((mergeAll amount slug groups).map (·.slug)).Nodup := by
  induction groups using List.reverseRecOn with
  | nil => exact List.nodup_nil
  | append_singleton groups g ih =>
    rw [mergeAll_concat, slugs_merge]
    split_ifs with h
    · exact ih
    · exact List.nodup_append.mpr ⟨ih, List.nodup_singleton _, fun s hs s' hs' heq =>
        h (List.mem_singleton.mp hs' ▸ heq ▸ hs)⟩

theorem mem_slugs_mergeAll {s : Option String} :
    s ∈ (mergeAll amount slug groups).map (·.slug) ↔ ∃ g ∈ groups, slug g = s := by
  induction groups using List.reverseRecOn with
  | nil => simp [mergeAll]
  | append_singleton groups g ih =>
    rw [mergeAll_concat, slugs_merge]
    constructor
    · intro h
      split_ifs at h
      · obtain ⟨g', hg', hs⟩ := ih.mp h
        exact ⟨g', List.mem_append_left _ hg', hs⟩
      · rcases List.mem_append.mp h with h | h
        · obtain ⟨g', hg', hs⟩ := ih.mp h
          exact ⟨g', List.mem_append_left _ hg', hs⟩
        · exact ⟨g, by simp, (List.mem_singleton.mp h).symm⟩
    · rintro ⟨g', hg', rfl⟩
      rcases List.mem_append.mp hg' with hg' | hg'
      · have hmem := ih.mpr ⟨g', hg', rfl⟩
        split_ifs
        · exact hmem
        · exact List.mem_append_left _ hmem
      · rw [List.mem_singleton.mp hg']
        split_ifs with h
        · exact h
        · simp

variable (amount) in
theorem countOf_mergeAll (s : Option String) : countOf s (mergeAll amount slug groups) =
    ((groups.filter (slug · = s)).map (·.count)).sum := by
  induction groups using List.reverseRecOn with
  | nil => rfl
  | append_singleton groups g ih =>
    rw [mergeAll_concat, countOf_merge, ih, List.filter_append, List.map_append, List.sum_append]
    by_cases h : slug g = s
    · simp [h]
    · simp [h]

theorem countOf_eq {lines : List CategoryLine} (hlines : (lines.map (·.slug)).Nodup)
    (hline : line ∈ lines) : countOf line.slug lines = line.count := by
  induction lines with
  | nil => cases hline
  | cons first rest ih =>
    obtain ⟨hfirst, hrest⟩ := List.nodup_cons.mp hlines
    rw [countOf_cons]
    rcases List.mem_cons.mp hline with rfl | hline
    · have hnone : rest.filter (·.slug = line.slug) = [] := by
        refine List.filter_eq_nil_iff.mpr fun other hother heq => ?_
        exact hfirst (List.mem_map.mpr ⟨other, hother, of_decide_eq_true heq⟩)
      simp [countOf, hnone]
    · have hne : first.slug ≠ line.slug :=
        fun heq => hfirst (List.mem_map.mpr ⟨line, hline, heq.symm⟩)
      rw [if_neg hne, zero_add, ih hrest hline]

/-- **A merged line counts the groups of its slug**, of which there is one. -/
theorem count_mergeAll (hline : line ∈ mergeAll amount slug groups) :
    line.count = ((groups.filter (slug · = line.slug)).map (·.count)).sum ∧
      ∃ g ∈ groups, slug g = line.slug := by
  rw [← countOf_mergeAll amount, countOf_eq nodup_mergeAll hline]
  exact ⟨rfl, mem_slugs_mergeAll.mp (List.mem_map_of_mem hline)⟩

end

/-! ### The lines of slugs -/

/-- A slug that has a bucket is a text. -/
theorem exists_slug {slug : Option String} {scope : Option Scope}
    (h : bucketForSlug slug scope ≠ .uncategorized) : ∃ s, slug = some s ∧ s ≠ "" := by
  cases slug with
  | none => exact absurd rfl h
  | some s =>
    have hmem : s ∈ bucketBySlug := by
      by_contra hnot
      exact h (bucketForSlug_uncategorized_iff.mpr hnot)
    refine ⟨s, rfl, fun hempty => ?_⟩
    rw [hempty] at hmem
    exact trim_ne_of_mem hmem (by decide)

section

variable {κ : Type} [DecidableEq κ] {key : BookedTransaction → κ} {slug : κ → Option String}
  {scope : Option Scope} {b : Bucket} {amount : Group κ Rat → Rat} {line : CategoryLine}
  {rows : List BookedTransaction}

variable (key slug) in
/-- **The line of a slug counts the rows of that category.** -/
theorem count_line (hslug : ∀ t, slug (key t) = t.category) (hb : b ≠ .uncategorized)
    (hline : line ∈ mergeAll amount (fun g => slug g.key)
      ((groupBy key signedFlow rows).filter fun g => bucketForSlug (slug g.key) scope = b)) :
    ∃ s, line.slug = some s ∧ s ≠ "" ∧
      line.count = (rows.filter fun t => (ofCategory s t).holds).length := by
  obtain ⟨hcount, g, hg, hkey⟩ := count_mergeAll hline
  have hbucket : bucketForSlug line.slug scope = b := by
    rw [← hkey]
    exact of_decide_eq_true (List.mem_filter.mp hg).2
  obtain ⟨s, hs, hne⟩ := exists_slug (hbucket ▸ hb)
  refine ⟨s, hs, hne, ?_⟩
  rw [hcount, List.filter_filter, count_groupBy key signedFlow rows fun k =>
    decide (slug k = line.slug) && decide (bucketForSlug (slug k) scope = b)]
  refine congrArg List.length (List.filter_congr fun t _ => ?_)
  rw [hslug, Bool.eq_iff_iff, ofCategory, holds_eq, Bool.and_eq_true, decide_eq_true_iff,
    decide_eq_true_iff, ← hs]
  constructor
  · exact fun h => h.1
  · exact fun h => ⟨h, h ▸ hbucket⟩

end

section

variable {session : Session} {dateFrom dateTo : Int} {line : CategoryLine} {b : Bucket}

/-- The lines that the loop over the groups merges. -/
def Placed.merged (placed : Placed) : Bucket → List CategoryLine
  | .income => placed.income
  | .expense => placed.expense
  | _ => []

def placedAmount (b : Bucket) (g : Group (Option String × String) Rat) : Rat :=
  if b = .expense then -decimal g.sum else decimal g.sum

theorem merged_foldl_place (hb : b = .income ∨ b = .expense)
    (groups : List (Group (Option String × String) Rat)) :
    (groups.foldl place ⟨[], [], []⟩).merged b = mergeAll (placedAmount b) (·.key.1)
      (groups.filter fun g => bucketForSlug g.key.1 (some .bank) = b) := by
  induction groups using List.reverseRecOn with
  | nil => rcases hb with rfl | rfl <;> rfl
  | append_singleton groups g ih =>
    rw [List.foldl_append, List.foldl_cons, List.foldl_nil, List.filter_append]
    by_cases hg : bucketForSlug g.key.1 (some .bank) = b
    · rw [List.filter_cons_of_pos (by simpa using hg), List.filter_nil, mergeAll_concat, ← ih]
      rcases hb with rfl | rfl <;> simp [place, hg, Placed.merged, placedAmount]
    · rw [List.filter_cons_of_neg (by simpa using hg), List.filter_nil, List.append_nil, ← ih]
      unfold place
      rcases hb with rfl | rfl <;>
        cases hbucket : bucketForSlug g.key.1 (some .bank) <;> simp_all [Placed.merged]

theorem investment_foldl_place (groups : List (Group (Option String × String) Rat)) :
    (groups.foldl place ⟨[], [], []⟩).investment =
      (groups.filter fun g => bucketForSlug g.key.1 (some .bank) = .investment).map
        investmentLine := by
  induction groups using List.reverseRecOn with
  | nil => rfl
  | append_singleton groups g ih =>
    rw [List.foldl_append, List.foldl_cons, List.foldl_nil, List.filter_append, List.map_append, ← ih]
    unfold place
    cases hbucket : bucketForSlug g.key.1 (some .bank) <;> simp [hbucket]

end

/-! ### The lines of other texts -/

theorem normalized_eq_none {value : Option String} :
    normalized value = none ↔ (blank value).holds = true := by
  unfold normalized
  split_ifs with h
  · simp [h]
  · constructor
    · intro hnone
      subst hnone
      exact absurd (by simp [blank, isNull]) h
    · exact fun hblank => absurd hblank h

theorem normalized_eq_some {value : Option String} {s : String} :
    normalized value = some s ↔ value = some s ∧ trim blankChars s ≠ "" := by
  unfold normalized
  split_ifs with h
  · refine ⟨nofun, fun ⟨hvalue, hs⟩ => ?_⟩
    exact absurd (holds_blank.mp h s hvalue) hs
  · refine ⟨fun hvalue => ⟨hvalue, fun hs => h (holds_blank.mpr fun s' hs' => ?_)⟩, fun hvalue => hvalue.1⟩
    rw [hvalue] at hs'
    rw [← Option.some.inj hs', hs]

/-- **The parameter of a line selects its counterparties**, the blank ones together. -/
theorem holds_counterpartyClause {value : Option String} {t : BookedTransaction}
    (hvalue : normalized value = value) : (counterpartyClause (value.getD "") t).holds = true ↔
      normalized t.counterparty = value := by
  cases value with
  | none =>
    have hblank : isBlankCounterparty "" = true := by decide
    rw [Option.getD_none, counterpartyClause, if_pos hblank, normalized_eq_none]
  | some s =>
    obtain ⟨-, hs⟩ := normalized_eq_some.mp hvalue
    have hblank : ¬isBlankCounterparty s = true := by simpa [isBlankCounterparty] using hs
    rw [Option.getD_some, counterpartyClause, if_neg hblank, holds_eq, normalized_eq_some]
    exact ⟨fun h => ⟨h, hs⟩, fun h => h.1⟩

/-- The blank values are one, and it is blank. -/
theorem normalized_normalized (value : Option String) :
    normalized (normalized value) = normalized value := by
  cases h : normalized value with
  | none => rfl
  | some s => exact normalized_eq_some.mpr ⟨rfl, (normalized_eq_some.mp h).2⟩

/-! ### Faithfulness -/

section

variable {session : Session} {readInt : String → Option Int} {dateFrom dateTo : Int}
  {clauses : List (BookedTransaction → Truth)} {drill : Drill}

/-- The rows that a link lists are as many as it says. -/
def Faithful (session : Session) (readInt : String → Option Int) (drill : Drill) : Prop :=
  ∃ listed, transactionList session readInt drill.query = .ok (.page listed) ∧
    listed.length = drill.count

/-- A range is two conditions of the listing. -/
theorem holds_inRange_iff {t : BookedTransaction} : (inRange dateFrom dateTo t).holds = true ↔
    holds (t.transactionDate.map fun d => decide (dateFrom ≤ d)) = true ∧
      holds (t.transactionDate.map fun d => decide (d ≤ dateTo)) = true := by
  cases h : t.transactionDate with
  | none => simp [inRange, between, h, holds]
  | some date => simp [inRange, between, h]

/-- The clauses that a link of the page chooses beside the range. -/
def chosen (session : Session) (query : TransactionQuery) : List (BookedTransaction → Truth) :=
  clauseOf (given query.direction) (fun direction t => some (t.direction = direction)) ++
  clauseOf (given query.category) ofCategory ++ clauseOf query.counterparty counterpartyClause ++
  clauseIf query.uncategorized uncategorized ++
  clauseIf query.categoryNull (fun t => blank t.category) ++
  clauseIf query.internal (fun t => isIn t.category (internalSlugsForScope query.scope)) ++
  clauseOneZero query.nonInr nonInr inrOrNull ++
  clauseOneZero query.excluded excluded included ++
  clauseOf query.scope (scopePredicate session)

theorem select_filters {query : TransactionQuery} (hbank : query.bank = none)
    (haccount : query.accountId = none) (hcard : query.cardId = none)
    (hundated : query.undated = none) (rows : List BookedTransaction) :
    select (filters session readInt query (some dateFrom) (some dateTo)) rows =
      select (inRange dateFrom dateTo :: chosen session query) rows := by
  refine select_congr fun t _ => ?_
  rw [filters, hbank, haccount, hcard, hundated, List.forall_mem_cons, holds_inRange_iff, chosen]
  simp only [given_none, Option.bind_none, clauseOf_none, clauseOf_some, clauseIf_none,
    List.nil_append, List.append_nil, List.forall_mem_append, List.forall_mem_singleton]
  constructor
  · rintro ⟨⟨⟨⟨⟨⟨⟨⟨⟨⟨hdirection, hfrom⟩, hto⟩, hcategory⟩, hcounterparty⟩, huncategorized⟩, hnull⟩,
      hinternal⟩, hnonInr⟩, hexcluded⟩, hscope⟩
    exact ⟨⟨hfrom, hto⟩, ⟨⟨⟨⟨⟨⟨⟨hdirection, hcategory⟩, hcounterparty⟩, huncategorized⟩, hnull⟩,
      hinternal⟩, hnonInr⟩, hexcluded⟩, hscope⟩
  · rintro ⟨⟨hfrom, hto⟩, ⟨⟨⟨⟨⟨⟨⟨hdirection, hcategory⟩, hcounterparty⟩, huncategorized⟩, hnull⟩,
      hinternal⟩, hnonInr⟩, hexcluded⟩, hscope⟩
    exact ⟨⟨⟨⟨⟨⟨⟨⟨⟨⟨hdirection, hfrom⟩, hto⟩, hcategory⟩, hcounterparty⟩, huncategorized⟩, hnull⟩,
      hinternal⟩, hnonInr⟩, hexcluded⟩, hscope⟩

/-- **A link is faithful if its clauses are those of the rows it counts.** -/
theorem faithful_of_chosen (clauses : List (BookedTransaction → Truth)) {query : TransactionQuery}
    {count : Nat} {counted : List (BookedTransaction → Truth)} (hfrom : IsDate dateFrom)
    (hto : IsDate dateTo) (hquery : query = { rangeQuery (isoformat dateFrom) (isoformat dateTo) with
      direction := query.direction, category := query.category
      counterparty := query.counterparty, uncategorized := query.uncategorized
      categoryNull := query.categoryNull, internal := query.internal, nonInr := query.nonInr
      excluded := query.excluded, scope := query.scope })
    (hchosen : chosen session query = clauses)
    (hclauses : ∀ t, (∀ clause ∈ inRange dateFrom dateTo :: clauses, (clause t).holds = true) ↔
      ∀ clause ∈ counted, (clause t).holds = true)
    (hcount : count = (select counted session.transactions.rows).length) :
    Faithful session readInt ⟨count, query⟩ := by
  refine ⟨_, transactionList_range hfrom hto (by rw [hquery]; rfl) (by rw [hquery]; rfl), ?_⟩
  rw [select_filters (by rw [hquery]; rfl) (by rw [hquery]; rfl) (by rw [hquery]; rfl)
    (by rw [hquery]; rfl), hchosen, hcount]
  exact congrArg List.length (select_congr fun t _ => hclauses t)

theorem faithful_coreDrill {line : CategoryLine} {slug : String} (hfrom : IsDate dateFrom)
    (hto : IsDate dateTo) (hslug : line.slug = some slug) (hne : slug ≠ "")
    (hcount : line.count = ((headlineRows session dateFrom dateTo).filter
      fun t => (ofCategory slug t).holds).length) :
    Faithful session readInt (coreDrill (isoformat dateFrom) (isoformat dateTo) line) := by
  have hgiven : given (some (slugText line.slug)) = some slug := by
    rw [hslug]
    exact given_some hne
  rw [headlineRows, ← select_concat] at hcount
  refine faithful_of_chosen [ofCategory slug, inrOrNull, included, bankScope session]
    hfrom hto rfl ?_ (fun t => ?_) hcount
  · simp only [chosen, hgiven]
    rfl
  · simp only [List.cons_append, List.nil_append, List.forall_mem_cons]
    tauto

theorem faithful_detailDrill {line : CategoryLine} {slug : String} (hfrom : IsDate dateFrom)
    (hto : IsDate dateTo) (hslug : line.slug = some slug) (hne : slug ≠ "")
    (hcount : line.count = ((detailRows session dateFrom dateTo).filter
      fun t => (ofCategory slug t).holds).length) :
    Faithful session readInt (detailDrill (isoformat dateFrom) (isoformat dateTo) line) := by
  have hgiven : given (some (slugText line.slug)) = some slug := by
    rw [hslug]
    exact given_some hne
  rw [detailRows, ← select_concat] at hcount
  refine faithful_of_chosen [ofCategory slug, inrOrNull, included] hfrom hto rfl ?_
    (fun t => ?_) hcount
  · simp only [chosen, hgiven]
    rfl
  · simp only [List.cons_append, List.nil_append, List.forall_mem_cons]
    tauto

theorem faithful_investmentDrill {line : CategoryLine} {slug : String} (direction : String)
    (hfrom : IsDate dateFrom) (hto : IsDate dateTo) (hslug : line.slug = some slug) (hne : slug ≠ "")
    (hdirection : (if line.kind = some .contribution then "debit" else "credit") = direction)
    (hcount : line.count = ((headlineRows session dateFrom dateTo).filter
      fun t => t.category = some slug ∧ t.direction = direction).length) :
    Faithful session readInt (investmentDrill (isoformat dateFrom) (isoformat dateTo) line) := by
  have hgiven : given (some (slugText line.slug)) = some slug := by
    rw [hslug]
    exact given_some hne
  have hdirected : given (some (if line.kind = some .contribution then "debit" else "credit")) =
      some direction := by
    rw [← hdirection]
    split_ifs <;> exact given_some (by decide)
  have hrows : (headlineRows session dateFrom dateTo).filter
      (fun t => t.category = some slug ∧ t.direction = direction) =
        (headlineRows session dateFrom dateTo).filter fun t =>
          ((ofCategory slug t).and (some (t.direction = direction))).holds := by
    refine List.filter_congr fun t _ => ?_
    rw [Bool.eq_iff_iff, decide_eq_true_iff, holds_and, Bool.and_eq_true, ofCategory, holds_eq,
      holds_some, decide_eq_true_iff]
  rw [hrows, headlineRows, ← select_concat] at hcount
  refine faithful_of_chosen [fun t => some (t.direction = direction), ofCategory slug,
    inrOrNull, included, bankScope session] hfrom hto rfl ?_ (fun t => ?_) hcount
  · simp only [chosen, hgiven, hdirected]
    rfl
  · simp only [List.cons_append, List.nil_append, List.forall_mem_cons, holds_and, Bool.and_eq_true]
    tauto

theorem faithful_transferDrill {line : CounterpartyLine} (hfrom : IsDate dateFrom)
    (hto : IsDate dateTo) (hline : normalized line.counterparty = line.counterparty)
    (hcount : line.count = ((transfersInRows session dateFrom dateTo).filter
      fun t => normalized t.counterparty = line.counterparty).length) :
    Faithful session readInt (transferDrill (isoformat dateFrom) (isoformat dateTo) line) := by
  have hrows : (transfersInRows session dateFrom dateTo).filter
      (fun t => normalized t.counterparty = line.counterparty) =
        (transfersInRows session dateFrom dateTo).filter
          fun t => (counterpartyClause (line.counterparty.getD "") t).holds := by
    refine List.filter_congr fun t _ => ?_
    rw [Bool.eq_iff_iff, decide_eq_true_iff, holds_counterpartyClause hline]
  rw [hrows, transfersInRows, ← select_concat] at hcount
  have hgiven : given (some "repayment") = some transfersInSlug := given_some (by decide)
  refine faithful_of_chosen [ofCategory transfersInSlug,
    counterpartyClause (line.counterparty.getD ""), inrOrNull, included, bankScope session]
    hfrom hto rfl ?_ (fun t => ?_) hcount
  · simp only [chosen, hgiven]
    rfl
  · simp only [List.cons_append, List.nil_append, List.forall_mem_cons]
    generalize (counterpartyClause (line.counterparty.getD "") t).holds = named
    tauto

theorem faithful_uncategorizedDrill {line : CategoryLine} (hfrom : IsDate dateFrom)
    (hto : IsDate dateTo) (hline : normalized line.slug = line.slug)
    (hslug : ∀ s, line.slug = some s → ∀ t : BookedTransaction, t.category = some s →
      (uncategorized t).holds = true)
    (hcount : line.count = ((uncategorizedRows session dateFrom dateTo).filter
      fun t => normalized t.category = line.slug).length) :
    Faithful session readInt (uncategorizedDrill (isoformat dateFrom) (isoformat dateTo) line) := by
  cases hcategory : line.slug with
  | none =>
    have hrows : (uncategorizedRows session dateFrom dateTo).filter
        (fun t => normalized t.category = line.slug) =
          (uncategorizedRows session dateFrom dateTo).filter fun t => (blank t.category).holds := by
      refine List.filter_congr fun t _ => ?_
      rw [Bool.eq_iff_iff, decide_eq_true_iff, hcategory, normalized_eq_none]
    rw [hrows, uncategorizedRows, ← select_concat] at hcount
    rw [uncategorizedDrill, hcategory]
    refine faithful_of_chosen [fun t => blank t.category, included, bankScope session]
      hfrom hto rfl (by simp only [chosen, clauseIf_one]; rfl) (fun t => ?_) hcount
    have hblank : (blank t.category).holds = true → (uncategorized t).holds = true := by
      intro h
      rw [uncategorized, holds_or, holds_or, h]
      rfl
    simp only [List.cons_append, List.nil_append, List.forall_mem_cons]
    constructor
    · rintro ⟨hin, hnull, hincluded, hscope, hrest⟩
      exact ⟨hin, hscope, hincluded, hblank hnull, hnull, hrest⟩
    · rintro ⟨hin, hscope, hincluded, -, hnull, hrest⟩
      exact ⟨hin, hnull, hincluded, hscope, hrest⟩
  | some slug =>
    have hnormal := hcategory ▸ hline
    have hne : slug ≠ "" := by
      rintro rfl
      exact (normalized_eq_some.mp hnormal).2 (by decide)
    have hrows : (uncategorizedRows session dateFrom dateTo).filter
        (fun t => normalized t.category = line.slug) =
          (uncategorizedRows session dateFrom dateTo).filter fun t => (ofCategory slug t).holds := by
      refine List.filter_congr fun t _ => ?_
      rw [Bool.eq_iff_iff, decide_eq_true_iff, hcategory, normalized_eq_some, ofCategory, holds_eq]
      exact ⟨fun h => h.1, fun h => ⟨h, (normalized_eq_some.mp hnormal).2⟩⟩
    rw [hrows, uncategorizedRows, ← select_concat] at hcount
    rw [uncategorizedDrill, hcategory]
    refine faithful_of_chosen [ofCategory slug, included, bankScope session]
      hfrom hto rfl ?_ (fun t => ?_) hcount
    · simp only [chosen, given_some hne]
      rfl
    · have hall : (ofCategory slug t).holds = true → (uncategorized t).holds = true :=
        fun h => hslug slug hcategory t (holds_eq.mp h)
      simp only [List.cons_append, List.nil_append, List.forall_mem_cons]
      constructor
      · rintro ⟨hin, hcategory, hincluded, hscope, hrest⟩
        exact ⟨hin, hscope, hincluded, hall hcategory, hcategory, hrest⟩
      · rintro ⟨hin, hscope, hincluded, -, hcategory, hrest⟩
        exact ⟨hin, hcategory, hincluded, hscope, hrest⟩

/-! ### Every link -/

/-- What is uncategorized is told by the category. -/
theorem uncategorized_congr {t u : BookedTransaction} (h : t.category = u.category) :
    uncategorized t = uncategorized u := by
  rw [uncategorized, uncategorized, h]

theorem faithful_headlineLine {b : Bucket} {line : CategoryLine} (hb : b = .income ∨ b = .expense)
    (hfrom : IsDate dateFrom) (hto : IsDate dateTo)
    (hline : line ∈ (placedGroups session dateFrom dateTo).merged b) :
    Faithful session readInt (coreDrill (isoformat dateFrom) (isoformat dateTo) line) := by
  rw [placedGroups, merged_foldl_place hb] at hline
  obtain ⟨slug, hslug, hne, hcount⟩ := count_line (fun t => (t.category, t.direction)) Prod.fst
    (fun t => rfl) (by rcases hb with rfl | rfl <;> decide) hline
  exact faithful_coreDrill hfrom hto hslug hne hcount

theorem foldl_mergeExpense (groups : List (Group (Option String) Rat)) :
    groups.foldl mergeExpense [] = mergeAll (fun g => -decimal g.sum) (·.key)
      (groups.filter fun g => bucketForSlug g.key none = .expense) := by
  induction groups using List.reverseRecOn with
  | nil => rfl
  | append_singleton groups g ih =>
    rw [List.foldl_append, List.foldl_cons, List.foldl_nil, List.filter_append, ih, mergeExpense]
    split_ifs with h
    · rw [List.filter_cons_of_pos (by simpa using h), List.filter_nil, mergeAll_concat]
    · rw [List.filter_cons_of_neg (by simpa using h), List.filter_nil, List.append_nil]

theorem faithful_detailLine {line : CategoryLine} (hfrom : IsDate dateFrom) (hto : IsDate dateTo)
    (hline : line ∈ (expenseDetail session dateFrom dateTo).lines) :
    Faithful session readInt (detailDrill (isoformat dateFrom) (isoformat dateTo) line) := by
  have hmerged := (List.mem_insertionSort _).mp hline
  rw [foldl_mergeExpense] at hmerged
  obtain ⟨slug, hslug, hne, hcount⟩ := count_line _ id (fun t => rfl) (by decide) hmerged
  exact faithful_detailDrill hfrom hto hslug hne hcount

theorem faithful_investmentLine {line : CategoryLine} (hfrom : IsDate dateFrom)
    (hto : IsDate dateTo)
    (hdirection : ∀ t ∈ session.transactions.rows, t.direction = "debit" ∨ t.direction = "credit")
    (hline : line ∈ (placedGroups session dateFrom dateTo).investment) :
    Faithful session readInt (investmentDrill (isoformat dateFrom) (isoformat dateTo) line) := by
  rw [placedGroups, investment_foldl_place] at hline
  obtain ⟨g, hg, rfl⟩ := List.mem_map.mp hline
  obtain ⟨hg, hbucket⟩ := List.mem_filter.mp hg
  obtain ⟨⟨r, hr, hkey⟩, hcount⟩ := of_mem_groupBy hg
  have hnamed : bucketForSlug g.key.1 (some .bank) ≠ .uncategorized := by
    rw [of_decide_eq_true hbucket]
    decide
  obtain ⟨slug, hslug, hne⟩ := exists_slug hnamed
  have hrow : g.key.2 = "debit" ∨ g.key.2 = "credit" := by
    rw [← hkey]
    exact hdirection r (mem_select.mp hr).1
  refine faithful_investmentDrill g.key.2 hfrom hto hslug hne ?_ ?_
  · rcases hrow with h | h
    · simp [investmentLine, h]
    · simp [investmentLine, h]
  · rw [investmentLine, hcount]
    refine congrArg List.length (List.filter_congr fun t _ => ?_)
    rw [Bool.eq_iff_iff, decide_eq_true_iff, decide_eq_true_iff, Prod.ext_iff, hslug]

theorem faithful_transferLine {line : CounterpartyLine} (hfrom : IsDate dateFrom)
    (hto : IsDate dateTo) (hline : line ∈ (transfersIn session dateFrom dateTo).lines) :
    Faithful session readInt (transferDrill (isoformat dateFrom) (isoformat dateTo) line) := by
  obtain ⟨g, hg, rfl⟩ := List.mem_map.mp ((List.mem_insertionSort _).mp hline)
  obtain ⟨⟨r, -, hkey⟩, hcount⟩ := of_mem_groupBy hg
  refine faithful_transferDrill hfrom hto ?_ hcount
  rw [counterpartyLine, ← hkey, normalized_normalized]

theorem faithful_uncategorizedLine {line : CategoryLine} (hfrom : IsDate dateFrom)
    (hto : IsDate dateTo) (hline : line ∈ (uncategorizedSummary session dateFrom dateTo).lines) :
    Faithful session readInt (uncategorizedDrill (isoformat dateFrom) (isoformat dateTo) line) := by
  obtain ⟨g, hg, rfl⟩ := List.mem_map.mp ((List.mem_insertionSort _).mp hline)
  obtain ⟨⟨r, hr, hkey⟩, hcount⟩ := of_mem_groupBy hg
  refine faithful_uncategorizedDrill hfrom hto ?_ (fun s hs t ht => ?_) hcount
  · rw [categoryLine, ← hkey, normalized_normalized]
  · have hcategory : r.category = some s := (normalized_eq_some.mp (hkey.trans hs)).1
    rw [uncategorized_congr (ht.trans hcategory.symm)]
    exact (mem_select.mp hr).2 uncategorized (by simp)

/-- A figure counts as many rows as its bucket has. -/
theorem count_cashflowSummary (b : Bucket) : ((cashflowSummary session dateFrom dateTo).tally b).2 =
    (countedRows session dateFrom dateTo b).length := by
  rw [tally_cashflowSummary, tally_eq]

theorem faithful_tileDrills (hfrom : IsDate dateFrom) (hto : IsDate dateTo) :
    ∀ drill ∈ tileDrills (cashflowSummary session dateFrom dateTo) (isoformat dateFrom)
      (isoformat dateTo), Faithful session readInt drill := by
  rw [tileDrills, List.forall_mem_cons, List.forall_mem_singleton]
  constructor
  · have hgiven : given (some "repayment") = some transfersInSlug := given_some (by decide)
    refine faithful_of_chosen [ofCategory transfersInSlug, inrOrNull, included,
      bankScope session] hfrom hto rfl ?_ (fun t => ?_) (count_cashflowSummary .transfersIn)
    · simp only [chosen, hgiven]
      rfl
    · simp only [List.forall_mem_cons]
      tauto
  · refine faithful_of_chosen [uncategorized, included, bankScope session] hfrom hto rfl
      ?_ (fun t => ?_) (count_cashflowSummary .uncategorized)
    · simp only [chosen, clauseIf_one]
      rfl
    · simp only [List.forall_mem_cons]
      tauto

theorem faithful_undated : Faithful session readInt
    ⟨(undatedRows session).length, { undated := some "1" }⟩ := by
  refine ⟨_, transactionList_undated rfl rfl, ?_⟩
  refine congrArg List.length (select_congr fun t _ => ?_)
  rw [filters]
  simp only [clauseIf_one]
  rfl

theorem faithful_footnoteDrills (hfrom : IsDate dateFrom) (hto : IsDate dateTo) :
    ∀ drill ∈ footnoteDrills (isoformat dateFrom) (isoformat dateTo)
      (footnotes session dateFrom dateTo), Faithful session readInt drill := by
  rw [footnoteDrills]
  simp only [List.forall_mem_cons, List.not_mem_nil, false_imp_iff, implies_true, and_true]
  refine ⟨?internal, ?family, ?nonInr, ?unaccounted, faithful_undated, ?excluded⟩
  case internal =>
    refine faithful_of_chosen [fun t => isIn t.category (internalSlugsForScope (some .bank)),
      included, bankScope session] hfrom hto rfl ?_ (fun t => ?_) rfl
    · simp only [chosen, clauseIf_one]
      rfl
    · simp only [List.forall_mem_cons]
      tauto
  case family =>
    have hgiven : given (some "family") = some familySlug := given_some (by decide)
    refine faithful_of_chosen [ofCategory familySlug, included] hfrom hto rfl ?_
      (fun t => ?_) rfl
    · simp only [chosen, hgiven]
      rfl
    · simp only [List.forall_mem_cons]
      tauto
  case nonInr =>
    refine faithful_of_chosen [nonInr, included, bankScope session] hfrom hto rfl ?_
      (fun t => ?_) rfl
    · simp only [chosen, clauseOneZero_one]
      rfl
    · simp only [List.forall_mem_cons]
      tauto
  case unaccounted =>
    exact faithful_of_chosen [included, scopePredicate session .unaccounted] hfrom hto
      rfl rfl (fun t => Iff.rfl) rfl
  case excluded =>
    refine faithful_of_chosen [excluded] hfrom hto rfl ?_ (fun t => Iff.rfl) rfl
    simp only [chosen, clauseOneZero_one]
    rfl

/-- **Every link of the page lists as many rows as it says.** -/
theorem drills_faithful (hfrom : IsDate dateFrom) (hto : IsDate dateTo)
    (hdirection : ∀ t ∈ session.transactions.rows, t.direction = "debit" ∨ t.direction = "credit") :
    ∀ drill ∈ drills (cashflowSummary session dateFrom dateTo) (isoformat dateFrom)
      (isoformat dateTo), ∃ listed, transactionList session readInt drill.query = .ok (.page listed) ∧
        listed.length = drill.count := by
  rw [drills]
  simp only [List.forall_mem_append, List.forall_mem_map]
  refine ⟨⟨⟨⟨⟨⟨⟨faithful_tileDrills hfrom hto, ?income⟩, ?expense⟩, ?investment⟩, ?transfersIn⟩,
    ?uncategorized⟩, ?expenseDetail⟩, faithful_footnoteDrills hfrom hto⟩
  case income =>
    exact fun line hline => faithful_headlineLine (.inl rfl) hfrom hto
      ((List.mem_insertionSort _).mp hline)
  case expense =>
    exact fun line hline => faithful_headlineLine (.inr rfl) hfrom hto
      ((List.mem_insertionSort _).mp hline)
  case investment =>
    exact fun line hline => faithful_investmentLine hfrom hto hdirection
      ((List.mem_insertionSort _).mp hline)
  case transfersIn => exact fun line => faithful_transferLine hfrom hto
  case uncategorized => exact fun line => faithful_uncategorizedLine hfrom hto
  case expenseDetail => exact fun line => faithful_detailLine hfrom hto

/-- A month with lines of every kind, and blanks of every spelling. -/
def aPage : Session where
  accounts := aMonth.accounts
  nodup_accounts := aMonth.nodup_accounts
  transactions := ⟨[cashRow 1 "credit" 900 (some "salary"), cashRow 2 "debit" 200 (some "rent"),
    cashRow 3 "credit" 20 (some "refund"), cashRow 4 "debit" 100 (some "investment"),
    cashRow 5 "credit" 50 (some "investment"), cashRow 6 "credit" 30 (some "repayment"),
    { cashRow 7 "credit" 9 (some "repayment") with counterparty := some " \t" },
    { cashRow 8 "debit" 4 (some "repayment") with counterparty := none },
    cashRow 9 "debit" 40 (some "self_transfer"), cashRow 10 "debit" 15 (some "family"),
    cashRow 11 "debit" 5 none, cashRow 12 "credit" 6 (some " \n"), cashRow 13 "debit" 7 (some "Rent "),
    { cashRow 14 "debit" 8 (some "unknown") with currency := some "USD" },
    { cashRow 15 "debit" 8 (some "rent") with accountId := none },
    { cashRow 16 "debit" 8 (some "rent") with transactionDate := none },
    { cashRow 17 "debit" 8 (some "rent") with excludeFromCashflow := some true }], by decide⟩

theorem drills_faithful_aPage :
    (drills (cashflowSummary aPage 738990 739010) (isoformat 738990)
      (isoformat 739010)).Forall fun drill =>
        ∃ listed, transactionList aPage String.toInt? drill.query = .ok (.page listed) ∧
          listed.length = drill.count :=
  List.forall_iff_forall_mem.mpr (drills_faithful (by decide) (by decide) (by decide))

end

end FinancialDashboard.Cashflow
