import FinancialDashboard.Categorization.Engine
import FinancialDashboard.Lib.Transition
import Mathlib.Data.List.Sort
import Mathlib.Logic.Function.Basic

/-!
# The sweeps and the manual assignments

`run_rule_sweep` and `run_llm_sweep` of `services/categorization/sweep.py` and
`assign_category_manual` of `manual.py`, as processes on one table.

Each process reads rows, decides, and commits; between two of its steps the others take
theirs.  A commit writes the columns that differ from what the process has read.  The
reference rule is not taken: a step in which it would apply is not enabled.

* `Kept`: the category of the last manual assignment of a row is the category it has.
* `manual_kept`: it holds in every run in which no sweep commits to a row that is manual
  by then, and no assignment of what its session had read comes after a change of it.
* `manual_kept_of_fresh`: it holds where every commit finds its rows as they were read.
* `manualCommit_kept_iff`: for an assignment the condition is exact.
-/

namespace FinancialDashboard.Categorization

open PyText
open Cashflow (unknownSlug)
open Transition (System)

/-! ### The vocabulary -/

section

variable [UnicodeTables]

/-- `canonicalize_slug` -/
def canonicalizeSlug (raw : String) : String :=
  let blanked := (lower (strip raw)).toList.map fun c => if isToken c then c else '_'
  String.ofList (['_'].intercalate ((blanked.splitOnP (· = '_')).filter (· ≠ [])))

/-- `is_valid_slug` -/
def isValidSlug (slug : String) : Bool :=
  match slug.toList with
  | [] => false
  | first :: rest =>
    ('a' ≤ first && first ≤ 'z') && (1 ≤ rest.length && rest.length ≤ 40) &&
      rest.all fun c => isToken c || c = '_'

/-- The category that `assign_category_manual` sets, `none` for a clearing; it refuses a slug
that is no slug or, without `create`, not in the vocabulary. -/
def assignment (categories : List String) (raw : String) (create : Bool) :
    Option (Option String) :=
  let cleaned := strip raw
  if cleaned = "" then some none
  else
    let slug := canonicalizeSlug cleaned
    if isValidSlug slug = false then none
    else if create = false ∧ slug ∉ categories then none
    else some (some slug)

end

/-- The columns that `assign_category_manual` sets. -/
def manualColumns (row : CategorizedTransaction) (category : Option String) (actor : String)
    (now vocabVersion : Int) : CategoryColumns :=
  match category with
  | none =>
    { row.toCategoryColumns with
      category := none
      categoryMethod := some .manual
      categoryConfidence := some 1
      categorizedAt := some now
      reviewStatus := some "resolved" }
  | some slug =>
    { row.toCategoryColumns with
      category := some slug
      categoryMethod := some .manual
      categoryConfidence := some 1
      categoryModel := some ("manual:" ++ actor)
      categoryVocabVersion := some vocabVersion
      categorizedAt := some now
      reviewStatus := some "resolved" }

/-! ### Which rows need work -/

/-- `_needs_llm` -/
def needsLlm (row : CategorizedTransaction) : Bool :=
  row.categoryMethod = none || row.categoryMethod = some .pendingLlm ||
    (row.category = some unknownSlug && row.categoryMethod = some .llm)

/-- The `WHERE` of `select_needs_work_stmt`. -/
def needsWork (llm : Bool) (vocabVersion : Int) (row : CategorizedTransaction) : Bool :=
  match llm with
  | false => row.categoryMethod = none
  | true =>
    row.categoryMethod = none || row.categoryMethod = some .pendingLlm ||
      (row.category = some unknownSlug && row.categoryMethod = some .llm &&
        match row.categoryVocabVersion with
        | none => true
        | some version => version < vocabVersion)

/-- `select_needs_work_stmt` -/
def selectNeedsWork (llm : Bool) (limit : Nat) (vocabVersion : Int) (t : Table transactions) :
    List CategorizedTransaction :=
  ((t.rows.filter (needsWork llm vocabVersion)).insertionSort fun a b => a.id ≤ b.id).take limit

/-! ### The processes -/

/-- Where an LLM sweep is with a row. -/
inductive Stage
  | loaded (row : CategorizedTransaction)
  /-- The classifier is awaited. -/
  | classifying (row : CategorizedTransaction) (env : Env)
  | decided (row : CategorizedTransaction) (columns : CategoryColumns)

/-- The row as it was read. -/
def Stage.row : Stage → CategorizedTransaction
  | loaded row | classifying row _ | decided row _ => row

inductive Process
  | idle
  /-- The rows that were read, and the columns of those that are decided. -/
  | ruleSweep (todo : List CategorizedTransaction)
      (decided : List (CategorizedTransaction × CategoryColumns))
  | llmSweep (todo : List Nat) (failures : Nat) (stage : Option Stage)
  | manual (row : CategorizedTransaction)

structure State where
  table : Table transactions
  /-- The slugs of the vocabulary. -/
  categories : List String
  process : Nat → Process
  /-- The category of the last manual assignment of a row that committed. -/
  assigned : Nat → Option (Option String)

/-- The steps of the processes.  `stop` is an exception or a cancellation. -/
inductive Event
  | ruleSelect (p limit : Nat)
  | ruleRow (p : Nat) (env : Env)
  | ruleCommit (p : Nat)
  | llmSelect (p limit : Nat) (vocabVersion : Int)
  | llmGet (p : Nat)
  | llmDecide (p : Nat) (env : Env)
  | llmAnswer (p : Nat) (env : Env) (answer : LlmResult)
  | llmCommit (p : Nat)
  | llmFail (p : Nat)
  | llmDone (p : Nat)
  | manualGet (p id : Nat)
  | manualCommit (p : Nat) (raw actor : String) (create : Bool) (now vocabVersion : Int)
  | stop (p : Nat)

/-- `_MAX_CONSECUTIVE_FAILURES` -/
def maxConsecutiveFailures : Nat := 5

/-- What a commit leaves of the categorization of a row. -/
def commitColumns (read new current : CategoryColumns) : CategoryColumns where
  category := writeDirty read.category new.category current.category
  categoryMethod := writeDirty read.categoryMethod new.categoryMethod current.categoryMethod
  categoryConfidence :=
    writeDirty read.categoryConfidence new.categoryConfidence current.categoryConfidence
  categoryModel := writeDirty read.categoryModel new.categoryModel current.categoryModel
  categoryInputHash :=
    writeDirty read.categoryInputHash new.categoryInputHash current.categoryInputHash
  categoryVocabVersion :=
    writeDirty read.categoryVocabVersion new.categoryVocabVersion current.categoryVocabVersion
  categorizedAt := writeDirty read.categorizedAt new.categorizedAt current.categorizedAt
  reviewStatus := writeDirty read.reviewStatus new.reviewStatus current.reviewStatus
  reviewReason := writeDirty read.reviewReason new.reviewReason current.reviewReason

/-- The `UPDATE` of a row that a session has read and set. -/
def writeRow (t : Table transactions) (row : CategorizedTransaction) (columns : CategoryColumns) :
    Table transactions :=
  t.update (fun r => r.id = row.id)
    (setCategorization fun r => commitColumns row.toCategoryColumns columns r.toCategoryColumns)

namespace State

variable (s : State)

/-- Process `p` goes on as `q`. -/
def become (p : Nat) (q : Process) : State := { s with process := Function.update s.process p q }

/-- The rows are written, one after the other. -/
def write (writes : List (CategorizedTransaction × CategoryColumns)) : State :=
  { s with table := writes.foldl (fun t w => writeRow t w.1 w.2) s.table }

/-- The commit of a manual assignment; a slug that is not in the vocabulary is added. -/
def assign (row : CategorizedTransaction) (category : Option String) (columns : CategoryColumns) :
    State where
  table := writeRow s.table row columns
  categories := s.categories ++ category.toList.filter (· ∉ s.categories)
  process := s.process
  assigned := Function.update s.assigned row.id (some category)

end State

/-- The rows that a sweep's commit writes. -/
def Process.sweepWrites : Process → List (CategorizedTransaction × CategoryColumns)
  | ruleSweep [] decided => decided
  | llmSweep _ _ (some (.decided row columns)) => [(row, columns)]
  | _ => []

/-- The row that a manual assignment has read. -/
def Process.manualRow : Process → Option CategorizedTransaction
  | manual row => some row
  | _ => none

section

variable [UnicodeTables]

/-- `categorize_one` without the classifier. -/
def ruleColumns (env : Env) (row : CategorizedTransaction) : CategoryColumns :=
  (categorizeRow env row false ⟨needsReview, 0, ""⟩).2

/-- `categorize_one` up to the classifier. -/
def decideRow (env : Env) (row : CategorizedTransaction) : Stage :=
  match categorizeRow env row true ⟨needsReview, 0, ""⟩ with
  | (.classifier, _) => .classifying row env
  | (_, columns) => .decided row columns

/-- `categorize_one` from the classifier on: the input and the account are what they were
before the classifier was asked. -/
def answerRow (asked env : Env) (row : CategorizedTransaction) (answer : LlmResult) : Stage :=
  let env := { env with inputHash := asked.inputHash, accountType := asked.accountType }
  .decided row (ofAnswer env row answer)

/-- The processes as a system.  A sweep and an assignment start as `idle` and end as it. -/
def system : System State Event where
  step s
    | .ruleSelect p limit =>
      match s.process p with
      | .idle => some (s.become p (.ruleSweep (selectNeedsWork false limit 0 s.table) []))
      | _ => none
    | .ruleRow p env =>
      match s.process p with
      | .ruleSweep (row :: todo) decided =>
        if referenceRuleApplies row s.table then none
        else some (s.become p (.ruleSweep todo (decided ++ [(row, ruleColumns env row)])))
      | _ => none
    | .ruleCommit p =>
      match s.process p with
      | .ruleSweep [] decided => some ((s.write decided).become p .idle)
      | _ => none
    | .llmSelect p limit vocabVersion =>
      match s.process p with
      | .idle =>
        let rows := selectNeedsWork true limit vocabVersion s.table
        some (s.become p (.llmSweep (rows.map (·.id)) 0 none))
      | _ => none
    | .llmGet p =>
      match s.process p with
      | .llmSweep (id :: todo) failures none =>
        match s.table.rows.find? fun row => row.id = id && needsLlm row with
        | none => some (s.become p (.llmSweep todo failures none))
        | some row => some (s.become p (.llmSweep (id :: todo) failures (some (.loaded row))))
      | _ => none
    | .llmDecide p env =>
      match s.process p with
      | .llmSweep todo failures (some (.loaded row)) =>
        if referenceRuleApplies row s.table then none
        else some (s.become p (.llmSweep todo failures (some (decideRow env row))))
      | _ => none
    | .llmAnswer p env answer =>
      match s.process p with
      | .llmSweep todo failures (some (.classifying row asked)) =>
        some (s.become p (.llmSweep todo failures (some (answerRow asked env row answer))))
      | _ => none
    | .llmCommit p =>
      match s.process p with
      | .llmSweep (_ :: todo) _ (some (.decided row columns)) =>
        some ((s.write [(row, columns)]).become p (.llmSweep todo 0 none))
      | _ => none
    | .llmFail p =>
      match s.process p with
      | .llmSweep (_ :: todo) failures _ =>
        if maxConsecutiveFailures ≤ failures + 1 then some (s.become p .idle)
        else some (s.become p (.llmSweep todo (failures + 1) none))
      | _ => none
    | .llmDone p =>
      match s.process p with
      | .llmSweep [] _ none => some (s.become p .idle)
      | _ => none
    | .manualGet p id =>
      match s.process p with
      | .idle =>
        match s.table.rows.find? fun row => row.id = id with
        | none => some s
        | some row => some (s.become p (.manual row))
      | _ => none
    | .manualCommit p raw actor create now vocabVersion =>
      match s.process p with
      | .manual row =>
        match assignment s.categories raw create with
        | none => some (s.become p .idle)
        | some category =>
          some ((s.assign row category (manualColumns row category actor now vocabVersion)).become
            p .idle)
      | _ => none
    | .stop p => some (s.become p .idle)

end

/-! ### What holds in every state -/

/-- The category of the last manual assignment of a row is the one it has. -/
def Kept (s : State) : Prop :=
  ∀ id category, s.assigned id = some category →
    ∃ row ∈ s.table, row.id = id ∧ row.categoryMethod = some .manual ∧ row.category = category

/-- A sweep's commit writes to no row that is manual by then.  An assignment of a value that
its session has read comes to a row that still has it. -/
def Undisturbed [UnicodeTables] (s : State) : Event → Prop
  | .ruleCommit p | .llmCommit p =>
    ∀ w ∈ (s.process p).sweepWrites, ∀ row ∈ s.table.rows, row.id = w.1.id →
      row.categoryMethod ≠ some .manual
  | .manualCommit p raw _ create _ _ =>
    ∀ read ∈ (s.process p).manualRow, ∀ category ∈ assignment s.categories raw create,
      ∀ row ∈ s.table.rows, row.id = read.id →
        (read.category = category → row.category = category) ∧
          (read.categoryMethod = some .manual → row.categoryMethod = some .manual)
  | _ => True

/-- Every commit finds the rows that it writes as they were read. -/
def Fresh (s : State) : Event → Prop
  | .ruleCommit p | .llmCommit p =>
    ∀ w ∈ (s.process p).sweepWrites, ∀ row ∈ s.table.rows, row.id = w.1.id →
      row.categoryMethod = w.1.categoryMethod
  | .manualCommit p _ _ _ _ _ =>
    ∀ read ∈ (s.process p).manualRow, ∀ row ∈ s.table.rows, row.id = read.id →
      row.category = read.category ∧ row.categoryMethod = read.categoryMethod
  | _ => True

namespace Process

/-- What a process has read was there to be worked on. -/
def Sound (t : Table transactions) : Process → Prop
  | idle => True
  | ruleSweep todo decided =>
    (∀ row ∈ todo, row.categoryMethod = none) ∧ ∀ w ∈ decided, w.1.categoryMethod = none
  | llmSweep _ _ stage => ∀ st ∈ stage, needsLlm st.row = true
  | manual row => ∃ r ∈ t, r.id = row.id

end Process

/-! ### What a commit writes -/

/-- The row `r` after the commit of a session that has read `row`. -/
def written (row : CategorizedTransaction) (columns : CategoryColumns)
    (r : CategorizedTransaction) : CategorizedTransaction :=
  { r with toCategoryColumns := commitColumns row.toCategoryColumns columns r.toCategoryColumns }

section

variable {t : Table transactions} {row r : CategorizedTransaction} {columns : CategoryColumns}
  {writes : List (CategorizedTransaction × CategoryColumns)} {id : Nat}

theorem mem_writeRow : r ∈ writeRow t row columns ↔
    ∃ b ∈ t, (b.id = row.id ∧ r = written row columns b) ∨ (b.id ≠ row.id ∧ r = b) := by
  simp only [writeRow, Table.mem_update, decide_eq_true_eq, decide_eq_false_iff_not]
  exact Iff.rfl

/-- A row is written or not, but it stays. -/
theorem exists_id_writeRow (h : ∃ b ∈ t, b.id = id) : ∃ b ∈ writeRow t row columns, b.id = id := by
  obtain ⟨b, hb, rfl⟩ := h
  by_cases hid : b.id = row.id
  · exact ⟨_, mem_writeRow.mpr ⟨b, hb, .inl ⟨hid, rfl⟩⟩, rfl⟩
  · exact ⟨b, mem_writeRow.mpr ⟨b, hb, .inr ⟨hid, rfl⟩⟩, rfl⟩

theorem exists_id_write {s : State} (h : ∃ b ∈ s.table, b.id = id) :
    ∃ b ∈ (s.write writes).table, b.id = id := by
  unfold State.write
  dsimp only
  generalize s.table = t at h ⊢
  induction writes generalizing t with
  | nil => exact h
  | cons w ws ih => exact ih _ (exists_id_writeRow h)

/-- A row that is none of those written stays as it is. -/
theorem mem_write {s : State} (hr : r ∈ s.table) (h : ∀ w ∈ writes, r.id ≠ w.1.id) :
    r ∈ (s.write writes).table := by
  unfold State.write
  dsimp only
  generalize s.table = t at hr ⊢
  induction writes generalizing t with
  | nil => exact hr
  | cons w ws ih =>
    refine ih (fun v hv => h v (List.mem_cons_of_mem w hv)) _ ?_
    exact mem_writeRow.mpr ⟨r, hr, .inr ⟨h w List.mem_cons_self, rfl⟩⟩

theorem manualColumns_category (row : CategorizedTransaction) (category : Option String)
    (actor : String) (now vocabVersion : Int) :
    (manualColumns row category actor now vocabVersion).category = category ∧
      (manualColumns row category actor now vocabVersion).categoryMethod = some .manual := by
  cases category with
  | none => exact ⟨rfl, rfl⟩
  | some slug => exact ⟨rfl, rfl⟩

/-- **An assignment is what the row has after its commit** if and only if what it leaves as
it was read is still so. -/
theorem manual_writeRow_iff (hb : r ∈ t) (hid : r.id = row.id) (category : Option String)
    (actor : String) (now vocabVersion : Int) :
    (∃ b ∈ writeRow t row (manualColumns row category actor now vocabVersion), b.id = row.id ∧
      b.categoryMethod = some .manual ∧ b.category = category) ↔
      (row.category = category → r.category = category) ∧
        (row.categoryMethod = some .manual → r.categoryMethod = some .manual) := by
  obtain ⟨hcategory, hmethod⟩ := manualColumns_category row category actor now vocabVersion
  have hwritten : ∀ b, b.id = row.id →
      (b ∈ writeRow t row (manualColumns row category actor now vocabVersion) ↔
        b = written row (manualColumns row category actor now vocabVersion) r) := by
    intro b hbid
    rw [mem_writeRow]
    constructor
    · rintro ⟨c, hc, ⟨hcid, rfl⟩ | ⟨hne, rfl⟩⟩
      · obtain rfl := Table.eq_of_id_eq hc hb (hcid.trans hid.symm)
        rfl
      · exact absurd hbid hne
    · rintro rfl
      exact ⟨r, hb, .inl ⟨hid, rfl⟩⟩
  have hset : writeDirty row.category (manualColumns row category actor now vocabVersion).category
        r.category = category ↔ (row.category = category → r.category = category) := by
    rw [hcategory]
    exact writeDirty_eq_new_iff
  have hset' : writeDirty row.categoryMethod
        (manualColumns row category actor now vocabVersion).categoryMethod r.categoryMethod =
          some .manual ↔
      (row.categoryMethod = some .manual → r.categoryMethod = some .manual) := by
    rw [hmethod]
    exact writeDirty_eq_new_iff
  constructor
  · rintro ⟨b, hmem, hbid, hm, hc⟩
    obtain rfl := (hwritten b hbid).mp hmem
    exact ⟨hset.mp hc, hset'.mp hm⟩
  · rintro ⟨hc, hm⟩
    exact ⟨written row _ r, (hwritten (written row _ r) hid).mpr rfl, hid, hset'.mpr hm,
      hset.mpr hc⟩

end

/-! ### The steps -/

section

variable {s t : State} {e : Event} {p : Nat}

@[simp] theorem become_table (q : Process) : (s.become p q).table = s.table := rfl
theorem become_self (p : Nat) : s.become p (s.process p) = s := by
  rw [State.become, Function.update_eq_self]

@[simp] theorem become_assigned (q : Process) : (s.become p q).assigned = s.assigned := rfl
@[simp] theorem become_process (q : Process) :
    (s.become p q).process = Function.update s.process p q := rfl

theorem mem_selectNeedsWork {llm : Bool} {limit : Nat} {vocabVersion : Int}
    {table : Table transactions} {row : CategorizedTransaction}
    (h : row ∈ selectNeedsWork llm limit vocabVersion table) :
    row ∈ table ∧ needsWork llm vocabVersion row = true :=
  List.mem_filter.mp ((List.mem_insertionSort _).mp (List.mem_of_mem_take h))

variable [UnicodeTables]

theorem decideRow_row (env : Env) (row : CategorizedTransaction) :
    (decideRow env row).row = row := by
  unfold decideRow
  split <;> rfl

/-- What a step can be: a process goes on, a sweep commits, or an assignment commits. -/
inductive Effect (s : State) : Event → State → Prop
  | moves (e : Event) (p : Nat) (q : Process)
      (hsound : (s.process p).Sound s.table → q.Sound s.table) : Effect s e (s.become p q)
  | sweeps (e : Event) (p : Nat) (q : Process) (he : e = .ruleCommit p ∨ e = .llmCommit p)
      (hsound : ∀ table, q.Sound table) :
      Effect s e ((s.write (s.process p).sweepWrites).become p q)
  | assigns (p : Nat) (raw actor : String) (create : Bool) (now vocabVersion : Int)
      (read : CategorizedTransaction) (category : Option String)
      (hread : s.process p = .manual read)
      (hcategory : assignment s.categories raw create = some category) :
      Effect s (.manualCommit p raw actor create now vocabVersion)
        ((s.assign read category (manualColumns read category actor now vocabVersion)).become p
          .idle)

/-- **Every step is one of the three.** -/
theorem effect_of_step (h : system.step s e = some t) : Effect s e t := by
  cases e with
  | ruleSelect p limit =>
    simp only [system] at h
    split at h
    · refine Option.some.inj h ▸ .moves _ p _ fun _ => ⟨fun row hrow => ?_, fun w hw => ?_⟩
      · exact of_decide_eq_true (mem_selectNeedsWork hrow).2
      · exact absurd hw List.not_mem_nil
    · cases h
  | ruleRow p env =>
    simp only [system] at h
    split at h
    · rename_i row todo decided hp
      split_ifs at h with href
      refine Option.some.inj h ▸ .moves _ p _ fun hsound => ?_
      rw [hp] at hsound
      refine ⟨fun r hr => hsound.1 r (List.mem_cons_of_mem row hr), fun w hw => ?_⟩
      rcases List.mem_append.mp hw with hw | hw
      · exact hsound.2 w hw
      · obtain rfl := List.mem_singleton.mp hw
        exact hsound.1 row List.mem_cons_self
    · cases h
  | ruleCommit p =>
    simp only [system] at h
    split at h
    · rename_i decided hp
      have hwrites : (s.process p).sweepWrites = decided := by rw [hp]; rfl
      rw [← hwrites] at h
      exact Option.some.inj h ▸ .sweeps _ p _ (.inl rfl) fun _ => trivial
    · cases h
  | llmSelect p limit vocabVersion =>
    simp only [system] at h
    split at h
    · refine Option.some.inj h ▸ .moves _ p _ fun _ st hst => ?_
      cases hst
    · cases h
  | llmGet p =>
    simp only [system] at h
    split at h
    · split at h
      · refine Option.some.inj h ▸ .moves _ p _ fun _ st hst => ?_
        cases hst
      · rename_i row hrow
        refine Option.some.inj h ▸ .moves _ p _ fun _ st hst => ?_
        obtain rfl := Option.mem_some_iff.mp hst
        have hfound := List.find?_some hrow
        exact (Bool.and_eq_true_iff.mp hfound).2
    · cases h
  | llmDecide p env =>
    simp only [system] at h
    split at h
    · rename_i todo failures row hp
      split_ifs at h with href
      refine Option.some.inj h ▸ .moves _ p _ fun hsound st hst => ?_
      rw [hp] at hsound
      obtain rfl := Option.mem_some_iff.mp hst
      rw [decideRow_row]
      exact hsound _ (Option.mem_some_iff.mpr rfl)
    · cases h
  | llmAnswer p env answer =>
    simp only [system] at h
    split at h
    · rename_i todo failures row asked hp
      refine Option.some.inj h ▸ .moves _ p _ fun hsound st hst => ?_
      rw [hp] at hsound
      obtain rfl := Option.mem_some_iff.mp hst
      exact hsound (.classifying row asked) (Option.mem_some_iff.mpr rfl)
    · cases h
  | llmCommit p =>
    simp only [system] at h
    split at h
    · rename_i id todo failures row columns hp
      have hwrites : (s.process p).sweepWrites = [(row, columns)] := by rw [hp]; rfl
      rw [← hwrites] at h
      exact Option.some.inj h ▸ .sweeps _ p _ (.inr rfl) fun _ st hst => by cases hst
    · cases h
  | llmFail p =>
    simp only [system] at h
    split at h
    · split_ifs at h
      · exact Option.some.inj h ▸ .moves _ p _ fun _ => trivial
      · exact Option.some.inj h ▸ .moves _ p _ fun _ st hst => by cases hst
    · cases h
  | llmDone p =>
    simp only [system] at h
    split at h
    · exact Option.some.inj h ▸ .moves _ p _ fun _ => trivial
    · cases h
  | manualGet p id =>
    simp only [system] at h
    split at h
    · split at h
      · obtain rfl := Option.some.inj h
        have hmoves : Effect s (.manualGet p id) (s.become p (s.process p)) :=
          .moves _ p _ fun hsound => hsound
        rwa [become_self] at hmoves
      · rename_i row hrow
        exact Option.some.inj h ▸ .moves _ p _ fun _ => ⟨row, List.mem_of_find?_eq_some hrow, rfl⟩
    · cases h
  | manualCommit p raw actor create now vocabVersion =>
    simp only [system] at h
    split at h
    · rename_i row hp
      split at h
      · exact Option.some.inj h ▸ .moves _ p _ fun _ => trivial
      · rename_i category hcategory
        exact Option.some.inj h ▸ .assigns p raw actor create now vocabVersion row category hp
          hcategory
    · cases h
  | stop p => exact Option.some.inj h ▸ .moves _ p _ fun _ => trivial

/-! ### Runs -/

/-- The invariant. -/
structure Inv (s : State) : Prop where
  kept : Kept s
  sound : ∀ p, (s.process p).Sound s.table

omit [UnicodeTables] in
theorem sound_become {q : Process} (h : ∀ p, (s.process p).Sound t.table) (hq : q.Sound t.table)
    (ht : t.process = Function.update s.process p q) (p' : Nat) : (t.process p').Sound t.table := by
  rw [ht]
  by_cases hp : p' = p
  · rw [hp, Function.update_self]
    exact hq
  · rw [Function.update_of_ne hp]
    exact h p'

omit [UnicodeTables] in
/-- What a process has read stays to be worked on where every row stays. -/
theorem Process.Sound.mono {table table' : Table transactions} {q : Process} (h : q.Sound table)
    (hids : ∀ id, (∃ b ∈ table, b.id = id) → ∃ b ∈ table', b.id = id) : q.Sound table' := by
  cases q with
  | idle => trivial
  | ruleSweep todo decided => exact h
  | llmSweep todo failures stage => exact h
  | manual row => exact hids row.id h

/-- **One step keeps it.** -/
theorem Inv.step (h : Inv s) (hok : Undisturbed s e) (hstep : system.step s e = some t) :
    Inv t := by
  cases effect_of_step hstep with
  | moves _ p q hsound =>
    exact ⟨h.kept, sound_become h.sound (hsound (h.sound p)) rfl⟩
  | sweeps _ p q he hsound =>
    have hok : ∀ w ∈ (s.process p).sweepWrites, ∀ row ∈ s.table.rows, row.id = w.1.id →
        row.categoryMethod ≠ some .manual := by
      rcases he with rfl | rfl
      · exact hok
      · exact hok
    refine ⟨fun id category hassigned => ?_, sound_become (fun p' => ?_) (hsound _) rfl⟩
    · obtain ⟨row, hrow, hid, hmethod, hcategory⟩ := h.kept id category hassigned
      exact ⟨row, mem_write hrow fun w hw hne => hok w hw row hrow hne hmethod, hid, hmethod,
        hcategory⟩
    · exact (h.sound p').mono fun id => exists_id_write
  | assigns p raw actor create now vocabVersion read category hread hcategory =>
    obtain ⟨r, hr, hid⟩ : ∃ r ∈ s.table, r.id = read.id := by
      have hsound := h.sound p
      rwa [hread] at hsound
    have hidle : Process.idle.Sound (s.assign read category
        (manualColumns read category actor now vocabVersion)).table := trivial
    refine ⟨fun id c (hassigned : Function.update s.assigned read.id (some category) id = some c) =>
      ?_, sound_become (fun p' => ?_) hidle rfl⟩
    · by_cases hne : id = read.id
      · rw [hne, Function.update_self] at hassigned
        obtain rfl := Option.some.inj hassigned
        rw [hne]
        exact (manual_writeRow_iff hr hid category actor now vocabVersion).mpr
          (hok read (by rw [hread]; exact rfl) category hcategory r hr hid)
      · rw [Function.update_of_ne hne] at hassigned
        obtain ⟨row, hrow, rfl, hmethod, hc⟩ := h.kept id c hassigned
        exact ⟨row, mem_writeRow.mpr ⟨row, hrow, .inr ⟨hne, rfl⟩⟩, rfl, hmethod, hc⟩
    · exact (h.sound p').mono fun id => exists_id_writeRow

/-- The processes before their first step. -/
def start (table : Table transactions) (categories : List String) : State where
  table := table
  categories := categories
  process _ := .idle
  assigned _ := none

omit [UnicodeTables] in
theorem inv_start (table : Table transactions) (categories : List String) :
    Inv (start table categories) :=
  ⟨fun _ _ h => (Option.some_ne_none _ h.symm).elim, fun _ => trivial⟩

/-- **A manual category is kept**, in every run in which no sweep commits to a row that is
manual by then, and what an assignment leaves as its session has read it is still so. -/
theorem manual_kept {table : Table transactions} {categories : List String}
    (h : system.Run Undisturbed (start table categories) s) : Kept s :=
  (h.invariant (I := Inv) (fun _ _ _ hs hok hstep => hs.step hok hstep)
    (inv_start table categories)).kept

omit [UnicodeTables] in
/-- A row that needs the classifier is not manual. -/
theorem method_of_needsLlm {row : CategorizedTransaction} (h : needsLlm row = true) :
    row.categoryMethod ≠ some .manual := by
  intro hm
  simp [needsLlm, hm] at h

omit [UnicodeTables] in
/-- A sweep has read no row that is manual. -/
theorem Process.Sound.sweepWrites {table : Table transactions} :
    ∀ {q : Process}, q.Sound table → ∀ w ∈ q.sweepWrites, w.1.categoryMethod ≠ some .manual
  | .idle, _, _, hw => absurd hw List.not_mem_nil
  | .ruleSweep (_ :: _) _, _, _, hw => absurd hw List.not_mem_nil
  | .ruleSweep [] _, hsound, w, hw => by
    rw [hsound.2 w hw]
    exact Option.some_ne_none _ |>.symm
  | .llmSweep _ _ none, _, _, hw => absurd hw List.not_mem_nil
  | .llmSweep _ _ (some (.loaded _)), _, _, hw => absurd hw List.not_mem_nil
  | .llmSweep _ _ (some (.classifying _ _)), _, _, hw => absurd hw List.not_mem_nil
  | .llmSweep _ _ (some (.decided row columns)), hsound, w, hw => by
    obtain rfl := List.mem_singleton.mp hw
    exact method_of_needsLlm (hsound (.decided row columns) (Option.mem_some_iff.mpr rfl))
  | .manual _, _, _, hw => absurd hw List.not_mem_nil

/-- A commit that finds its rows as they were read disturbs nothing. -/
theorem Inv.undisturbed (h : Inv s) (hfresh : Fresh s e) : Undisturbed s e := by
  have hsweep : ∀ p, (∀ w ∈ (s.process p).sweepWrites, ∀ row ∈ s.table.rows, row.id = w.1.id →
      row.categoryMethod = w.1.categoryMethod) → ∀ w ∈ (s.process p).sweepWrites,
      ∀ row ∈ s.table.rows, row.id = w.1.id → row.categoryMethod ≠ some .manual :=
    fun p hsame w hw row hrow hid => hsame w hw row hrow hid ▸ (h.sound p).sweepWrites w hw
  cases e with
  | ruleCommit p => exact hsweep p hfresh
  | llmCommit p => exact hsweep p hfresh
  | manualCommit p raw actor create now vocabVersion =>
    intro read hread category hcategory row hrow hid
    obtain ⟨hsame, hmethod⟩ := hfresh read hread row hrow hid
    exact ⟨fun hc => hsame.trans hc, fun hm => hmethod.trans hm⟩
  | _ => trivial

/-- A manual category is kept in every run in which each commit finds the rows it writes as
they were read. -/
theorem manual_kept_of_fresh {table : Table transactions} {categories : List String}
    (h : system.Run Fresh (start table categories) s) : Kept s :=
  (h.invariant (I := Inv) (fun _ _ _ hs hok hstep => hs.step (hs.undisturbed hok) hstep)
    (inv_start table categories)).kept

/-- **For an assignment the condition is exact**: the row has what is assigned to it after
the commit if and only if the condition is met. -/
theorem manualCommit_kept_iff (h : Inv s) {raw actor : String} {create : Bool}
    {now vocabVersion : Int} {read : CategorizedTransaction} {category : Option String}
    (hread : s.process p = .manual read)
    (hcategory : assignment s.categories raw create = some category)
    (hstep : system.step s (.manualCommit p raw actor create now vocabVersion) = some t) :
    (∃ row ∈ t.table, row.id = read.id ∧ row.categoryMethod = some .manual ∧
      row.category = category) ↔
      Undisturbed s (.manualCommit p raw actor create now vocabVersion) := by
  obtain ⟨r, hr, hid⟩ : ∃ r ∈ s.table, r.id = read.id := by
    have hsound := h.sound p
    rwa [hread] at hsound
  have ht : t.table =
      writeRow s.table read (manualColumns read category actor now vocabVersion) := by
    simp only [system, hread, hcategory] at hstep
    exact (congrArg State.table (Option.some.inj hstep)).symm
  rw [ht, manual_writeRow_iff hr hid]
  constructor
  · intro hboth read' hread' category' hcategory' row hrow hrowid
    rw [hread] at hread'
    obtain rfl := Option.mem_some_iff.mp hread'
    obtain rfl := Option.some.inj (hcategory.symm.trans hcategory')
    obtain rfl := Table.eq_of_id_eq hrow hr (hrowid.trans hid.symm)
    exact hboth
  · intro hok
    exact hok read (by rw [hread]; exact rfl) category hcategory r hr hid

instance Undisturbed.decidable (s : State) : ∀ e, Decidable (Undisturbed s e)
  | .ruleCommit _ | .llmCommit _ => inferInstanceAs (Decidable (∀ w ∈ _, ∀ row ∈ _, _))
  | .manualCommit .. => inferInstanceAs (Decidable (∀ read ∈ _, ∀ category ∈ _, _))
  | .ruleSelect .. | .ruleRow .. | .llmSelect .. | .llmGet _ | .llmDecide .. | .llmAnswer ..
  | .llmFail _ | .llmDone _ | .manualGet .. | .stop _ => inferInstanceAs (Decidable True)

end

/-! ### An assignment while the classifier is awaited -/

/-- A debit that no rule knows. -/
def cafeDebit : CategorizedTransaction := freshRow "debit" "upi" "Cafe" none 2

/-- Both sweeps find the row; it is assigned while the second one is on its way to it. -/
def quietEvents : List Event :=
  [.ruleSelect 0 500, .ruleRow 0 plainEnv, .ruleCommit 0, .llmSelect 0 100 1, .manualGet 1 1,
    .manualCommit 1 "Groceries" "user" true 1 2, .llmGet 0, .llmDone 0, .ruleSelect 0 500,
    .ruleCommit 0]

/-- The row is assigned while the classifier is awaited. -/
def racingEvents : List Event :=
  [.llmSelect 0 100 1, .llmGet 0, .llmDecide 0 plainEnv, .manualGet 1 1,
    .manualCommit 1 "Groceries" "user" true 1 2, .llmAnswer 0 plainEnv plainAnswer, .llmCommit 0]

/-- The row is cleared by a session that has read it before the sweep's commit. -/
def clearingEvents : List Event :=
  [.llmSelect 0 100 1, .llmGet 0, .llmDecide 0 plainEnv, .llmAnswer 0 plainEnv plainAnswer,
    .manualGet 1 1, .llmCommit 0, .manualCommit 1 " " "user" false 1 1]

/-- What is seen of a state: the row's categorization, and its last assignment. -/
def view (s : State) : List (Option String × Option Method) × Option (Option String) :=
  (s.table.rows.map fun row => (row.category, row.categoryMethod), s.assigned 1)

theorem manual_kept_quietEvents :
    let _ := asciiTables
    ∃ s, system.Run Undisturbed (start (single cafeDebit) []) s ∧ Kept s ∧
      view s = ([(some "groceries", some .manual)], some (some "groceries")) := by
  have hmeets : (@system asciiTables).Meets (@Undisturbed asciiTables)
      (start (single cafeDebit) []) quietEvents := by decide +kernel
  intro _
  have hview : (system.exec (start (single cafeDebit) []) quietEvents).map view =
      some ([(some "groceries", some .manual)], some (some "groceries")) := by decide +kernel
  obtain ⟨s, -, hrun, hs⟩ := System.run_of_view hmeets hview
  exact ⟨s, hrun, manual_kept hrun, hs⟩

/-- In one run the sweep overwrites the category, in another the clearing is lost. -/
theorem not_manual_kept :
    let _ := asciiTables
    (∃ s, system.Run System.always (start (single cafeDebit) []) s ∧
      view s = ([(some "dining", some .llm)], some (some "groceries")) ∧ ¬ Kept s) ∧
    ∃ s, system.Run System.always (start (single cafeDebit) []) s ∧
      view s = ([(some "dining", some .manual)], some none) ∧ ¬ Kept s := by
  intro _
  have hracing : (system.exec (start (single cafeDebit) []) racingEvents).map view =
      some ([(some "dining", some .llm)], some (some "groceries")) := by decide +kernel
  have hclearing : (system.exec (start (single cafeDebit) []) clearingEvents).map view =
      some ([(some "dining", some .manual)], some none) := by decide +kernel
  have hmeets (es : List Event) : system.Meets System.always (start (single cafeDebit) []) es :=
    System.meets_of_always es _ fun _ _ _ => trivial
  obtain ⟨s, -, hrun, hs⟩ := System.run_of_view (hmeets _) hracing
  obtain ⟨s', -, hrun', hs'⟩ := System.run_of_view (hmeets _) hclearing
  refine ⟨⟨s, hrun, hs, fun h => ?_⟩, ⟨s', hrun', hs', fun h => ?_⟩⟩
  · obtain ⟨hrows, hassigned⟩ := Prod.mk.inj hs
    obtain ⟨row, hrow, -, hmethod, -⟩ := h 1 _ hassigned
    have hmem := List.mem_map_of_mem (f := fun row => (row.category, row.categoryMethod)) hrow
    rw [hrows, List.mem_singleton] at hmem
    exact absurd (hmethod.symm.trans (Prod.mk.inj hmem).2) (by decide)
  · obtain ⟨hrows, hassigned⟩ := Prod.mk.inj hs'
    obtain ⟨row, hrow, -, -, hcategory⟩ := h 1 _ hassigned
    have hmem := List.mem_map_of_mem (f := fun row => (row.category, row.categoryMethod)) hrow
    rw [hrows, List.mem_singleton] at hmem
    exact absurd (hcategory.symm.trans (Prod.mk.inj hmem).1) (by decide)

end FinancialDashboard.Categorization
