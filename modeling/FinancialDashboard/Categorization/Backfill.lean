import FinancialDashboard.Categorization.Sweep
import FinancialDashboard.Lib.Drain
import FinancialDashboard.Lib.Posting
import Mathlib.Data.Finset.Card
import Mathlib.Data.List.Forall2

/-!
# The backfill

`run_backfill` of `services/categorization/backfill.py`: the rule sweep until it finds no row,
then the classifier's sweep until it categorizes none.  The classifier raises on some rows and
answers on the others; nothing else writes in the meantime.

A failing row stays where it is in the order of ids, so that enough of them at the head take
the whole batch, or end the sweep, in every round.

* `runBackfill_complete_iff`: the loops stop, and every row that needed work and does not fail
  is categorized if and only if no sweep begins in a state that is `Blocked`.
* `not_blocked_of_few`: none does while fewer rows fail than a sweep takes.
-/

namespace FinancialDashboard.Categorization

open PyText
open Drain (Begins drain)
open Posting (exists_left exists_right)

/-! ### The sweeps -/

/-- The classifier in the course of a backfill. -/
structure Classifier where
  /-- Categorization is switched on, and there is a key. -/
  enabled : Bool
  /-- The answer for a row, by its id; `none` where it raises. -/
  answer : Nat → Option LlmResult

/-- `LIMIT`; a negative one limits nothing. -/
def rowLimit (t : Table transactions) (limit : Int) : Nat :=
  if limit < 0 then t.rows.length else limit.toNat

/-- The answer where the classifier is not asked. -/
def noAnswer : LlmResult := ⟨needsReview, 0, ""⟩

section

variable [UnicodeTables] (env : Env) (classifier : Classifier)

/-- The rule pass over a row, as the session has it by then. -/
def ruleRow (t : Table transactions) (row : CategorizedTransaction) : Table transactions :=
  match t.rows.find? fun current => current.id = row.id with
  | none => t
  | some current => (categorizeOne env current t false noAnswer).2

/-- `run_rule_sweep` -/
def runRuleSweep (batchLimit : Int) (t : Table transactions) : Table transactions × Nat :=
  let rows := selectNeedsWork false (rowLimit t batchLimit) env.vocabVersion t
  (rows.foldl (ruleRow env) t, rows.length)

/-- `categorize_one` with the classifier; `none` if that raises. -/
def categorizeWith (row : CategorizedTransaction) (t : Table transactions) :
    Option (Table transactions) :=
  match classifier.answer row.id with
  | some answer => some (categorizeOne env row t true answer).2
  | none =>
    match categorizeOne env row t true noAnswer with
    | (.classifier, _) => none
    | (_, t') => some t'

/-- The loop of `run_llm_sweep`; a row that raises leaves nothing behind. -/
def llmRows : List Nat → Nat → Table transactions → Table transactions × Nat
  | [], _, t => (t, 0)
  | id :: txnIds, failures, t =>
    match t.rows.find? fun row => row.id = id && needsLlm row with
    | none => llmRows txnIds failures t
    | some row =>
      match categorizeWith env classifier row t with
      | some t' =>
        let (last, count) := llmRows txnIds 0 t'
        (last, count + 1)
      | none =>
        if maxConsecutiveFailures ≤ failures + 1 then (t, 0)
        else llmRows txnIds (failures + 1) t

/-- `run_llm_sweep` -/
def runLlmSweep (batchLimit : Int) (t : Table transactions) : Table transactions × Nat :=
  if classifier.enabled then
    llmRows env classifier
      ((selectNeedsWork true (rowLimit t batchLimit) env.vocabVersion t).map (·.id)) 0 t
  else (t, 0)

/-! ### The backfill -/

structure BackfillResult where
  rulesProcessed : Nat
  llmCategorized : Nat
  deriving DecidableEq, Repr

variable (rulesOnly : Bool) (batchSize : Int)

/-- The loop over the rule sweep.  Each round but the last takes a row off the backlog. -/
def rulePass (t : Table transactions) : Option (Nat × Table transactions) :=
  drain (runRuleSweep env (max batchSize 500)) (t.rows.length + 1) t

/-- `run_backfill`; `none` if a loop does not stop. -/
def runBackfill (t : Table transactions) : Option (BackfillResult × Table transactions) := do
  let (totalRules, t) ← rulePass env batchSize t
  if rulesOnly then return (⟨totalRules, 0⟩, t)
  let (totalLlm, t) ← drain (runLlmSweep env classifier batchSize) (t.rows.length + 1) t
  return (⟨totalRules, totalLlm⟩, t)

/-! ### What is expected of it -/

/-- The categorization of the row raises. -/
def fails (t : Table transactions) (row : CategorizedTransaction) : Bool :=
  !referenceRuleApplies row t && (categorizeRow env row true noAnswer).1 = .classifier &&
    (classifier.answer row.id).isNone

/-- A row is categorized: by a rule, or by the classifier under the vocabulary there is. -/
def IsCategorized (row : CategorizedTransaction) : Prop :=
  row.category ≠ none ∧ (row.categoryMethod = some .rule ∨
    row.categoryMethod = some .llm ∧ row.categoryVocabVersion = some env.vocabVersion)

instance (row : CategorizedTransaction) : Decidable (IsCategorized env row) :=
  inferInstanceAs (Decidable (_ ∧ (_ ∨ _ ∧ _)))

/-- Every row that needed work and does not fail is categorized. -/
def Complete (t last : Table transactions) : Prop :=
  ∀ row ∈ t.rows, needsWork true env.vocabVersion row = true → fails env classifier t row = false →
    ∃ row' ∈ last.rows, row'.id = row.id ∧ IsCategorized env row'

instance (t last : Table transactions) : Decidable (Complete env classifier t last) :=
  inferInstanceAs (Decidable (∀ row ∈ t.rows, _ → _ → ∃ row' ∈ last.rows, _ ∧ _))

/-- A sweep gets to no row that does not fail although there is one: there is no sweep, or the
rows that it takes up to the abort all fail. -/
def Blocked (t : Table transactions) : Prop :=
  (∃ row ∈ t.rows, needsWork true env.vocabVersion row = true ∧
    fails env classifier t row = false) ∧
  (rulesOnly = true ∨ classifier.enabled = false ∨
    ∀ row ∈ selectNeedsWork true (min maxConsecutiveFailures (rowLimit t batchSize))
      env.vocabVersion t, fails env classifier t row = true)

/-- A step of the second loop, which `rules_only` leaves out. -/
def llmStep (t : Table transactions) : Table transactions × Nat :=
  if rulesOnly then (t, 0) else runLlmSweep env classifier batchSize t

/-- A sweep begins in the state that the rule pass leaves, and in those that are left by a sweep
that has categorized a row. -/
def SweepBegins (t s : Table transactions) : Prop :=
  ∃ total swept, rulePass env batchSize t = some (total, swept) ∧
    Begins (llmStep env classifier rulesOnly batchSize) swept s

end

/-! ### What the passes do to a row -/

/-- The row with other columns of its categorization. -/
def recategorized (row : CategorizedTransaction) (columns : CategoryColumns) :
    CategorizedTransaction :=
  { row with toCategoryColumns := columns }

/-- What becomes of a row: it stays, it is categorized, or it was not looked at yet and waits
for the classifier. -/
inductive Moves (env : Env) (row : CategorizedTransaction) : CategorizedTransaction → Prop
  | stays : Moves env row row
  | categorized (columns : CategoryColumns) (h : IsCategorized env (recategorized row columns)) :
      Moves env row (recategorized row columns)
  | waits (columns : CategoryColumns) (hread : row.categoryMethod = none)
      (h : columns.categoryMethod = some .pendingLlm) : Moves env row (recategorized row columns)

section

variable {env : Env} {a b c : CategorizedTransaction}

theorem not_needsWork_of_isCategorized (h : IsCategorized env a) (llm : Bool) :
    needsWork llm env.vocabVersion a = false := by
  obtain ⟨-, hmethod | ⟨hmethod, hversion⟩⟩ := h
  · cases llm <;> simp [needsWork, hmethod]
  · cases llm <;> simp [needsWork, hmethod, hversion]

theorem needsWork_of_none (h : a.categoryMethod = none) (llm : Bool) :
    needsWork llm env.vocabVersion a = true := by
  cases llm <;> simp [needsWork, h]

theorem needsWork_of_pending (h : a.categoryMethod = some .pendingLlm) :
    needsWork true env.vocabVersion a = true := by
  simp [needsWork, h]

theorem needsLlm_of_needsWork {llm : Bool} (h : needsWork llm env.vocabVersion a = true) :
    needsLlm a = true := by
  cases llm with
  | false =>
    have hmethod : a.categoryMethod = none := of_decide_eq_true h
    simp [needsLlm, hmethod]
  | true =>
    unfold needsWork at h
    unfold needsLlm
    simp only [Bool.or_eq_true, Bool.and_eq_true] at h ⊢
    exact h.imp_right fun h => h.1

theorem method_ne_none_of_isCategorized (h : IsCategorized env a) : a.categoryMethod ≠ none := by
  obtain ⟨-, hmethod | ⟨hmethod, -⟩⟩ := h
  · exact hmethod ▸ Option.some_ne_none _
  · exact hmethod ▸ Option.some_ne_none _

namespace Moves

theorem id_eq (h : Moves env a b) : b.id = a.id := by
  cases h with
  | stays => rfl
  | categorized => rfl
  | waits => rfl

theorem trans (h : Moves env a b) (h' : Moves env b c) : Moves env a c := by
  cases h' with
  | stays => exact h
  | categorized columns hc =>
    cases h with
    | stays => exact .categorized columns hc
    | categorized => exact .categorized columns hc
    | waits => exact .categorized columns hc
  | waits columns hread hc =>
    cases h with
    | stays => exact .waits columns hread hc
    | categorized _ hb => exact absurd hread (method_ne_none_of_isCategorized hb)
    | waits _ _ hb => exact absurd (hb.symm.trans hread) (Option.some_ne_none _)

theorem recategorized_eq (h : Moves env a b) (columns : CategoryColumns) :
    recategorized b columns = recategorized a columns := by
  cases h with
  | stays => rfl
  | categorized => rfl
  | waits => rfl

/-- What is categorized stays so. -/
theorem isCategorized (h : Moves env a b) (ha : IsCategorized env a) : IsCategorized env b := by
  cases h with
  | stays => exact ha
  | categorized _ hb => exact hb
  | waits _ hread _ => exact absurd hread (method_ne_none_of_isCategorized ha)

/-- Only what needed work needs it afterwards. -/
theorem needsWork_of (h : Moves env a b) {llm : Bool}
    (hb : needsWork llm env.vocabVersion b = true) : needsWork llm env.vocabVersion a = true := by
  cases h with
  | stays => exact hb
  | categorized _ hdone =>
    exact absurd (hb.symm.trans (not_needsWork_of_isCategorized hdone llm)) (by decide)
  | waits _ hread _ => exact needsWork_of_none hread llm

/-- What needs work is categorized or needs it still. -/
theorem isCategorized_or (h : Moves env a b) (ha : needsWork true env.vocabVersion a = true) :
    IsCategorized env b ∨ needsWork true env.vocabVersion b = true := by
  cases h with
  | stays => exact .inr ha
  | categorized _ hdone => exact .inl hdone
  | waits _ _ hc => exact .inr (needsWork_of_pending hc)

end Moves

end

/-! ### What is read of a row -/

section

variable [UnicodeTables] {env : Env} {classifier : Classifier} {t t' : Table transactions}
  {row a b : CategorizedTransaction} {answer : LlmResult} {useLlm : Bool}

/-- Row by row. -/
def Moved (env : Env) (t t' : Table transactions) : Prop :=
  List.Forall₂ (Moves env) t.rows t'.rows

theorem categorizeRow_path_recategorized (columns : CategoryColumns) :
    (categorizeRow env (recategorized row columns) useLlm answer).1 =
      (categorizeRow env row useLlm answer).1 := by
  have hfields : fieldsOf env (recategorized row columns) = fieldsOf env row := rfl
  have hcounterparty : (recategorized row columns).counterparty = row.counterparty := rfl
  have hdescription : (recategorized row columns).rawDescription = row.rawDescription := rfl
  unfold categorizeRow
  dsimp only
  rw [hfields, hcounterparty, hdescription]
  cases matchRules (fieldsOf env row) env.config with
  | some hit => rfl
  | none =>
    dsimp only
    split_ifs
    · rfl
    · rfl
    · rfl

/-- The other legs are looked for in columns that no pass writes. -/
theorem otherLegs_eq_nil_iff (h : Moved env t t') :
    otherLegs row t' = [] ↔ otherLegs row t = [] := by
  unfold otherLegs
  cases oppositeDirection row.direction with
  | none => rfl
  | some opposite =>
    dsimp only
    rw [List.filter_eq_nil_iff, List.filter_eq_nil_iff]
    constructor
    · intro hnone other hother
      obtain ⟨other', hother', hmoves⟩ := exists_right h hother
      have hnot := hnone other' hother'
      cases hmoves with
      | stays => exact hnot
      | categorized => exact hnot
      | waits => exact hnot
    · intro hnone other' hother'
      obtain ⟨other, hother, hmoves⟩ := exists_left h hother'
      have hnot := hnone other hother
      cases hmoves with
      | stays => exact hnot
      | categorized => exact hnot
      | waits => exact hnot

theorem referenceRuleApplies_eq (h : Moved env t t') (hmoves : Moves env a b) :
    referenceRuleApplies b t' = referenceRuleApplies a t := by
  have hlegs : referenceRuleApplies a t' = referenceRuleApplies a t := by
    unfold referenceRuleApplies
    simp only [ne_eq, otherLegs_eq_nil_iff h]
  rw [← hlegs]
  cases hmoves with
  | stays => rfl
  | categorized => rfl
  | waits => rfl

/-- Whether a row fails does not change. -/
theorem fails_eq (h : Moved env t t') (hmoves : Moves env a b) :
    fails env classifier t' b = fails env classifier t a := by
  have hpath : (categorizeRow env b true noAnswer).1 = (categorizeRow env a true noAnswer).1 := by
    cases hmoves with
    | stays => rfl
    | categorized => exact categorizeRow_path_recategorized _
    | waits => exact categorizeRow_path_recategorized _
  unfold fails
  rw [referenceRuleApplies_eq h hmoves, hpath, hmoves.id_eq]

omit [UnicodeTables] in
theorem Moved.refl (t : Table transactions) : Moved env t t :=
  List.forall₂_same.mpr fun _ _ => .stays

omit [UnicodeTables] in
theorem Moved.trans {t'' : Table transactions} (h : Moved env t t') (h' : Moved env t' t'') :
    Moved env t t'' := by
  unfold Moved at h h' ⊢
  generalize t.rows = rows, t'.rows = rows', t''.rows = l at h h' ⊢
  induction h generalizing l with
  | nil => exact h'
  | cons hmoves _ ih =>
    cases h' with
    | cons hmoves' h' => exact .cons (hmoves.trans hmoves') (ih _ h')

omit [UnicodeTables] in
/-- An update moves the rows as it moves each. -/
theorem Moved.update (h : Moved env t t') {p : CategorizedTransaction → Bool}
    {change : Table.Change transactions}
    (hset : ∀ a ∈ t.rows, ∀ b, Moves env a b → p b = true → Moves env a (change.set b)) :
    Moved env t (t'.update p change) := by
  refine List.forall₂_map_right_iff.mpr ?_
  have hmem : List.Forall₂ (fun a b => a ∈ t.rows ∧ Moves env a b) t.rows t'.rows :=
    (List.forall₂_and_left _ _).mpr ⟨fun a ha => ha, h⟩
  refine hmem.imp fun a b ⟨ha, hmoves⟩ => ?_
  split_ifs with hp
  · exact hset a ha b hmoves hp
  · exact hmoves

omit [UnicodeTables] in
theorem eq_of_id {t : Table transactions} (ha : a ∈ t.rows) (hb : b ∈ t.rows) (h : a.id = b.id) :
    a = b :=
  Table.eq_of_id_eq (t := t) ha hb h

/-! ### One row -/

theorem isCategorized_markSelfTransfer :
    IsCategorized env (recategorized row (markSelfTransfer env row)) := by
  unfold markSelfTransfer
  dsimp only
  split_ifs
  · exact ⟨Option.some_ne_none _, .inl rfl⟩
  · exact ⟨Option.some_ne_none _, .inl rfl⟩

theorem isCategorized_ofAnswer :
    IsCategorized env (recategorized b (ofAnswer env row answer)) := by
  unfold ofAnswer
  dsimp only
  split_ifs
  · exact ⟨Option.some_ne_none _, .inr ⟨rfl, rfl⟩⟩
  · exact ⟨Option.some_ne_none _, .inr ⟨rfl, rfl⟩⟩
  · exact ⟨Option.some_ne_none _, .inr ⟨rfl, rfl⟩⟩

/-- A row that is looked at is categorized, or waits for the classifier. -/
theorem categorizeRow_spec (env : Env) (row b : CategorizedTransaction) (useLlm : Bool)
    (answer : LlmResult) :
    IsCategorized env (recategorized b (categorizeRow env row useLlm answer).2) ∨
      useLlm = false ∧
        (categorizeRow env row useLlm answer).2.categoryMethod = some .pendingLlm := by
  unfold categorizeRow
  dsimp only
  split
  · exact .inl ⟨Option.some_ne_none _, .inl rfl⟩
  · split_ifs with hllm
    · exact .inr ⟨hllm, rfl⟩
    · exact .inl ⟨Option.some_ne_none _, .inr ⟨rfl, rfl⟩⟩
    · exact .inl isCategorized_ofAnswer

/-- The columns of a table's row after they are written. -/
theorem categorizeOne_of_not_applies (href : ¬ referenceRuleApplies row t = true) :
    categorizeOne env row t useLlm answer =
      ((categorizeRow env row useLlm answer).1, t.update (fun b => b.id = row.id)
        (setCategorization fun _ => (categorizeRow env row useLlm answer).2)) := by
  rw [categorizeOne, if_neg href]

theorem categorizeOne_of_applies (href : referenceRuleApplies row t = true) :
    categorizeOne env row t useLlm answer =
      (.reference, t.update
        (fun b => b.id = row.id || (otherLegs row t).any fun other => b.id = other.id)
        (setCategorization (markSelfTransfer env))) := by
  rw [categorizeOne, if_pos href, applyReferenceSelfTransferRule, if_pos href]

/-- **With the classifier a row is categorized.** -/
theorem categorizeOne_true (hrow : row ∈ t.rows) :
    Moved env t (categorizeOne env row t true answer).2 ∧
      ∃ row' ∈ (categorizeOne env row t true answer).2.rows, row'.id = row.id ∧
        IsCategorized env row' := by
  by_cases href : referenceRuleApplies row t = true
  · rw [categorizeOne_of_applies href]
    refine ⟨(Moved.refl t).update fun a _ b hmoves _ =>
      hmoves.trans (.categorized _ isCategorized_markSelfTransfer), ?_⟩
    exact ⟨_, Table.mem_update.mpr ⟨row, hrow, .inl ⟨by simp, rfl⟩⟩, rfl,
      isCategorized_markSelfTransfer⟩
  · have hdone : ∀ b, IsCategorized env (recategorized b (categorizeRow env row true answer).2) :=
      fun b => (categorizeRow_spec env row b true answer).resolve_right fun h =>
        absurd h.1 (by decide)
    rw [categorizeOne_of_not_applies href]
    refine ⟨(Moved.refl t).update fun a _ b hmoves _ =>
      hmoves.trans (.categorized _ (hdone b)), ?_⟩
    exact ⟨_, Table.mem_update.mpr ⟨row, hrow, .inl ⟨decide_eq_true rfl, rfl⟩⟩, rfl, hdone row⟩

/-- **Without it a row is looked at**, and no other loses its place. -/
theorem ruleRow_spec (hrow : row ∈ t.rows) (hmethod : row.categoryMethod = none)
    (h : Moved env t t') : Moved env t (ruleRow env t' row) ∧
      ∀ b ∈ (ruleRow env t' row).rows, b.categoryMethod = none → b ∈ t'.rows ∧ b.id ≠ row.id := by
  unfold ruleRow
  split
  next hfind =>
    refine ⟨h, fun b hb _ => ⟨hb, fun hid => ?_⟩⟩
    exact absurd (decide_eq_true hid) (List.find?_eq_none.mp hfind b hb)
  next current hfind =>
    have hid : current.id = row.id := by simpa using List.find?_some hfind
    by_cases href : referenceRuleApplies current t' = true
    · rw [categorizeOne_of_applies href]
      refine ⟨h.update fun a _ b hmoves _ =>
        hmoves.trans (.categorized _ isCategorized_markSelfTransfer), fun b hb hnone => ?_⟩
      obtain ⟨b', hb', ⟨-, rfl⟩ | ⟨hnot, rfl⟩⟩ := Table.mem_update.mp hb
      · exact absurd hnone (method_ne_none_of_isCategorized isCategorized_markSelfTransfer)
      · refine ⟨hb', fun hid' => ?_⟩
        rw [Bool.or_eq_false_iff] at hnot
        exact absurd (hid'.trans hid.symm) (of_decide_eq_false hnot.1)
    · rw [categorizeOne_of_not_applies href]
      have hspec := fun b => categorizeRow_spec env current b false noAnswer
      generalize (categorizeRow env current false noAnswer).2 = columns at hspec ⊢
      refine ⟨h.update fun a ha b hmoves hp => ?_, fun b hb hnone => ?_⟩
      · have heq : a = row :=
          eq_of_id ha hrow (hmoves.id_eq.symm.trans ((of_decide_eq_true hp).trans hid))
        rcases hspec b with hdone | ⟨-, hwaits⟩
        · exact hmoves.trans (.categorized _ hdone)
        · show Moves env a (recategorized b columns)
          rw [hmoves.recategorized_eq]
          exact .waits _ (heq ▸ hmethod) hwaits
      · obtain ⟨b', hb', ⟨-, rfl⟩ | ⟨hnot, rfl⟩⟩ := Table.mem_update.mp hb
        · rcases hspec b' with hdone | ⟨-, hwaits⟩
          · exact absurd hnone (method_ne_none_of_isCategorized hdone)
          · exact absurd (hwaits.symm.trans hnone) (Option.some_ne_none _)
        · have hne : b.id ≠ current.id := by simpa using hnot
          exact ⟨hb', hid ▸ hne⟩

/-! ### One sweep -/

/-- **The rule sweep looks at every row that it takes.** -/
theorem foldl_ruleRow {rows : List CategorizedTransaction}
    (hrows : ∀ row ∈ rows, row ∈ t.rows ∧ row.categoryMethod = none) (h : Moved env t t') :
    Moved env t (rows.foldl (ruleRow env) t') ∧
      ∀ b ∈ (rows.foldl (ruleRow env) t').rows, b.categoryMethod = none →
        ∀ row ∈ rows, b.id ≠ row.id := by
  have hboth : Moved env t (rows.foldl (ruleRow env) t') ∧
      ∀ b ∈ (rows.foldl (ruleRow env) t').rows, b.categoryMethod = none →
        b ∈ t'.rows ∧ ∀ row ∈ rows, b.id ≠ row.id := by
    induction rows generalizing t' with
    | nil => exact ⟨h, fun b hb _ => ⟨hb, fun _ hrow => absurd hrow List.not_mem_nil⟩⟩
    | cons row rows ih =>
      obtain ⟨⟨hrow, hmethod⟩, hrest⟩ := List.forall_mem_cons.mp hrows
      obtain ⟨hmoved, hleft⟩ := ruleRow_spec hrow hmethod h
      obtain ⟨hlast, hnone⟩ := ih hrest hmoved
      refine ⟨hlast, fun b hb hbnone => ?_⟩
      obtain ⟨hb', hids⟩ := hnone b hb hbnone
      obtain ⟨hbt, hid⟩ := hleft b hb' hbnone
      exact ⟨hbt, List.forall_mem_cons.mpr ⟨hid, hids⟩⟩
  exact ⟨hboth.1, fun b hb hnone => (hboth.2 b hb hnone).2⟩

theorem runRuleSweep_spec (env : Env) (limit : Int) (t : Table transactions) :
    Moved env t (runRuleSweep env limit t).1 ∧ ((runRuleSweep env limit t).2 ≠ 0 →
      ∃ row ∈ t.rows, row.categoryMethod = none ∧
        ∀ b ∈ (runRuleSweep env limit t).1.rows, b.categoryMethod = none → b.id ≠ row.id) := by
  unfold runRuleSweep
  dsimp only
  have hrows : ∀ row ∈ selectNeedsWork false (rowLimit t limit) env.vocabVersion t,
      row ∈ t.rows ∧ row.categoryMethod = none := fun row hrow =>
    (mem_selectNeedsWork hrow).imp_right of_decide_eq_true
  obtain ⟨hmoved, hnone⟩ := foldl_ruleRow hrows (Moved.refl t)
  refine ⟨hmoved, fun hne => ?_⟩
  obtain ⟨row, hrow⟩ := List.exists_mem_of_length_pos (Nat.pos_of_ne_zero hne)
  exact ⟨row, (hrows row hrow).1, (hrows row hrow).2, fun b hb hbnone => hnone b hb hbnone row hrow⟩

/-- A row raises, and leaves nothing behind, if and only if it fails. -/
theorem categorizeWith_eq_none_iff :
    categorizeWith env classifier row t = none ↔ fails env classifier t row = true := by
  have hpath : (categorizeOne env row t true noAnswer).1 =
      if referenceRuleApplies row t then .reference
      else (categorizeRow env row true noAnswer).1 := by
    by_cases href : referenceRuleApplies row t = true
    · rw [categorizeOne_of_applies href, if_pos href]
    · rw [categorizeOne_of_not_applies href, if_neg href]
  unfold categorizeWith fails
  cases classifier.answer row.id with
  | some answer => simp
  | none =>
    dsimp only
    split
    next t' hcategorize =>
      rw [hcategorize] at hpath
      by_cases href : referenceRuleApplies row t = true
      · rw [if_pos href] at hpath
        cases hpath
      · rw [if_neg href] at hpath
        simp [href, ← hpath]
    next path t' hne hcategorize =>
      rw [hcategorize] at hpath
      refine iff_of_false (Option.some_ne_none _) fun h => ?_
      simp only [Bool.and_eq_true, Bool.not_eq_true', decide_eq_true_eq] at h
      rw [h.1.1, h.1.2] at hpath
      exact hne hpath

theorem categorizeWith_spec (hrow : row ∈ t.rows)
    (h : categorizeWith env classifier row t = some t') :
    Moved env t t' ∧ ∃ row' ∈ t'.rows, row'.id = row.id ∧ IsCategorized env row' := by
  unfold categorizeWith at h
  split at h
  next answer _ =>
    obtain rfl := Option.some.inj h
    exact categorizeOne_true hrow
  next _ =>
    split at h
    next => cases h
    next path t'' _ hcategorize =>
      obtain rfl := Option.some.inj h
      have hdone : Moved env t (categorizeOne env row t true noAnswer).2 ∧ _ :=
        categorizeOne_true hrow
      rwa [hcategorize] at hdone

omit [UnicodeTables] in
/-- The loop finds a row that was taken and still needs the classifier. -/
theorem find?_needsLlm (hrow : row ∈ t.rows) (h : needsLlm row = true) :
    (t.rows.find? fun b => b.id = row.id && needsLlm b) = some row := by
  cases hfind : t.rows.find? fun b => b.id = row.id && needsLlm b with
  | none =>
    have hnot := List.find?_eq_none.mp hfind row hrow
    simp [h] at hnot
  | some found =>
    have hfound := List.find?_some hfind
    simp only [Bool.and_eq_true, decide_eq_true_eq] at hfound
    rw [eq_of_id (List.mem_of_find?_eq_some hfind) hrow hfound.1]

theorem llmRows_moved (ids : List Nat) (failures : Nat) (t : Table transactions) :
    Moved env t (llmRows env classifier ids failures t).1 := by
  induction ids generalizing failures t with
  | nil => exact Moved.refl t
  | cons id ids ih =>
    unfold llmRows
    split
    next => exact ih failures t
    next row hfind =>
      split
      next t' hcategorize =>
        exact (categorizeWith_spec (List.mem_of_find?_eq_some hfind) hcategorize).1.trans (ih 0 t')
      next =>
        split_ifs
        · exact Moved.refl t
        · exact ih (failures + 1) t

omit [UnicodeTables] in
theorem Moved.exists_isCategorized (h : Moved env t t') {id : Nat}
    (hdone : ∃ row ∈ t.rows, row.id = id ∧ IsCategorized env row) :
    ∃ row ∈ t'.rows, row.id = id ∧ IsCategorized env row := by
  obtain ⟨row, hrow, hid, hdone⟩ := hdone
  obtain ⟨row', hrow', hmoves⟩ := exists_right h hrow
  exact ⟨row', hrow', hmoves.id_eq.trans hid, hmoves.isCategorized hdone⟩

/-- **A sweep categorizes no row if and only if those up to the abort all fail**; then it leaves
the table as it was, and else a row that it took is categorized. -/
theorem llmRows_spec (classifier : Classifier) {rows : List CategorizedTransaction}
    {failures : Nat} (hrows : ∀ row ∈ rows, row ∈ t.rows ∧ needsLlm row = true)
    (hfailures : failures < maxConsecutiveFailures) :
    let sweep := llmRows env classifier (rows.map (·.id)) failures t
    (sweep.2 = 0 ↔ ∀ row ∈ rows.take (maxConsecutiveFailures - failures),
      fails env classifier t row = true) ∧
    (sweep.2 = 0 → sweep.1 = t) ∧
    (sweep.2 ≠ 0 → ∃ row ∈ rows, ∃ row' ∈ sweep.1.rows, row'.id = row.id ∧
      IsCategorized env row') := by
  induction rows generalizing failures with
  | nil => exact ⟨iff_of_true rfl (by simp), fun _ => rfl, fun h => absurd rfl h⟩
  | cons row rows ih =>
    obtain ⟨⟨hrow, hneeds⟩, hrest⟩ := List.forall_mem_cons.mp hrows
    have htake : (row :: rows).take (maxConsecutiveFailures - failures) =
        row :: rows.take (maxConsecutiveFailures - (failures + 1)) := by
      rw [← Nat.sub_add_cancel (Nat.sub_pos_of_lt hfailures), List.take_succ_cons, Nat.sub_sub]
    rw [htake, List.forall_mem_cons, List.map_cons]
    unfold llmRows
    rw [find?_needsLlm hrow hneeds]
    dsimp only
    cases hcategorize : categorizeWith env classifier row t with
    | some t' =>
      have hnot : ¬ fails env classifier t row = true := fun h =>
        Option.some_ne_none _ (hcategorize.symm.trans (categorizeWith_eq_none_iff.mpr h))
      obtain ⟨-, hdone⟩ := categorizeWith_spec hrow hcategorize
      dsimp only
      refine ⟨iff_of_false (Nat.succ_ne_zero _) fun h => hnot h.1,
        fun h => absurd h (Nat.succ_ne_zero _), fun _ => ⟨row, List.mem_cons_self, ?_⟩⟩
      exact (llmRows_moved _ 0 t').exists_isCategorized hdone
    | none =>
      have hfails := categorizeWith_eq_none_iff.mp hcategorize
      dsimp only
      split_ifs with habort
      · have hlast : maxConsecutiveFailures - (failures + 1) = 0 := Nat.sub_eq_zero_of_le habort
        refine ⟨iff_of_true rfl ⟨hfails, ?_⟩, fun _ => rfl, fun h => absurd rfl h⟩
        rw [hlast]
        exact fun _ hmem => absurd hmem List.not_mem_nil
      · have hnext : failures + 1 < maxConsecutiveFailures := Nat.lt_of_not_le habort
        obtain ⟨hzero, hsame, hcategorized⟩ := ih hrest hnext
        refine ⟨hzero.trans ⟨fun h => ⟨hfails, h⟩, And.right⟩, hsame, fun hne => ?_⟩
        obtain ⟨row', hrow', hdone⟩ := hcategorized hne
        exact ⟨row', List.mem_cons_of_mem _ hrow', hdone⟩

theorem runLlmSweep_moved (limit : Int) (t : Table transactions) :
    Moved env t (runLlmSweep env classifier limit t).1 := by
  unfold runLlmSweep
  split_ifs
  · exact llmRows_moved _ _ _
  · exact Moved.refl t

theorem runLlmSweep_spec (env : Env) (classifier : Classifier) (limit : Int)
    (t : Table transactions) :
    let sweep := runLlmSweep env classifier limit t
    (sweep.2 = 0 ↔ classifier.enabled = false ∨
      ∀ row ∈ selectNeedsWork true (min maxConsecutiveFailures (rowLimit t limit))
        env.vocabVersion t, fails env classifier t row = true) ∧
    (sweep.2 = 0 → sweep.1 = t) ∧
    (sweep.2 ≠ 0 → ∃ row ∈ t.rows, needsWork true env.vocabVersion row = true ∧
      ∃ row' ∈ sweep.1.rows, row'.id = row.id ∧ IsCategorized env row') := by
  have hrows : ∀ row ∈ selectNeedsWork true (rowLimit t limit) env.vocabVersion t,
      row ∈ t.rows ∧ needsLlm row = true := fun row hrow =>
    (mem_selectNeedsWork hrow).imp_right needsLlm_of_needsWork
  have htake : selectNeedsWork true (min maxConsecutiveFailures (rowLimit t limit))
      env.vocabVersion t = (selectNeedsWork true (rowLimit t limit) env.vocabVersion t).take
        (maxConsecutiveFailures - 0) := List.take_take.symm
  have hstart : 0 < maxConsecutiveFailures := by decide
  obtain ⟨hzero, hsame, hdone⟩ := llmRows_spec classifier hrows hstart
  rw [htake]
  unfold runLlmSweep
  by_cases henabled : classifier.enabled = true
  · rw [if_pos henabled]
    refine ⟨hzero.trans ⟨.inr, fun h => h.resolve_left fun hoff => ?_⟩, hsame, fun hne => ?_⟩
    · exact absurd (henabled.symm.trans hoff) (by decide)
    · obtain ⟨row, hrow, hcategorized⟩ := hdone hne
      obtain ⟨hmem, hneeds⟩ := mem_selectNeedsWork hrow
      exact ⟨row, hmem, hneeds, hcategorized⟩
  · rw [if_neg henabled]
    exact ⟨iff_of_true rfl (.inl ((Bool.not_eq_true _).mp henabled)), fun _ => rfl,
      fun h => absurd rfl h⟩

end

/-! ### The loops -/

/-- The ids of the rows that need work. -/
def dueIds (llm : Bool) (version : Int) (t : Table transactions) : Finset Nat :=
  ((t.rows.filter (needsWork llm version)).map (·.id)).toFinset

section

variable {env : Env} {llm : Bool} {version : Int} {t t' : Table transactions}
  {row : CategorizedTransaction}

theorem mem_dueIds {id : Nat} :
    id ∈ dueIds llm version t ↔ ∃ row ∈ t.rows, needsWork llm version row = true ∧ row.id = id := by
  simp only [dueIds, List.mem_toFinset, List.mem_map, List.mem_filter, and_assoc]

theorem card_dueIds_le (llm : Bool) (version : Int) (t : Table transactions) :
    (dueIds llm version t).card ≤ t.rows.length :=
  (List.toFinset_card_le _).trans ((List.length_map _).trans_le (List.length_filter_le _ _))

/-- A row that needs no more work makes the backlog smaller. -/
theorem card_dueIds_lt (h : Moved env t t') (hrow : row ∈ t.rows)
    (hdue : needsWork llm env.vocabVersion row = true)
    (hgone : ∀ b ∈ t'.rows, b.id = row.id → needsWork llm env.vocabVersion b = false) :
    (dueIds llm env.vocabVersion t').card < (dueIds llm env.vocabVersion t).card := by
  refine Finset.card_lt_card ((Finset.ssubset_iff_of_subset fun id hid => ?_).mpr
    ⟨row.id, mem_dueIds.mpr ⟨row, hrow, hdue, rfl⟩, fun hid => ?_⟩)
  · obtain ⟨b, hb, hneeds, rfl⟩ := mem_dueIds.mp hid
    obtain ⟨a, ha, hmoves⟩ := exists_left h hb
    exact mem_dueIds.mpr ⟨a, ha, hmoves.needsWork_of hneeds, hmoves.id_eq.symm⟩
  · obtain ⟨b, hb, hneeds, hid⟩ := mem_dueIds.mp hid
    exact absurd (hneeds.symm.trans (hgone b hb hid)) (by decide)

theorem Moved.of_begins {step : Table transactions → Table transactions × Nat}
    (hstep : ∀ t, Moved env t (step t).1) (h : Begins step t t') : Moved env t t' :=
  h.invariant (P := Moved env t) (fun s hs _ => hs.trans (hstep s)) (Moved.refl t)

end

section

variable [UnicodeTables] {env : Env} {classifier : Classifier} {rulesOnly : Bool}
  {batchSize : Int} {t s swept last : Table transactions}

/-- **The rule pass stops.** -/
theorem rulePass_spec (env : Env) (batchSize : Int) (t : Table transactions) :
    ∃ total swept, rulePass env batchSize t = some (total, swept) ∧ Moved env t swept := by
  have hspec := fun s => runRuleSweep_spec env (max batchSize 500) s
  have hless : ∀ s, (runRuleSweep env (max batchSize 500) s).2 ≠ 0 →
      (dueIds false env.vocabVersion (runRuleSweep env (max batchSize 500) s).1).card <
        (dueIds false env.vocabVersion s).card := by
    intro s hne
    obtain ⟨row, hrow, hmethod, hgone⟩ := (hspec s).2 hne
    refine card_dueIds_lt (hspec s).1 hrow (needsWork_of_none hmethod false) fun b hb hid => ?_
    exact decide_eq_false fun hnone => hgone b hb hnone hid
  obtain ⟨total, last, hdrain, hbegins, -⟩ := Drain.drain_spec
    (μ := fun s => (dueIds false env.vocabVersion s).card) hless
    (Nat.lt_succ_of_le (card_dueIds_le false env.vocabVersion t))
  exact ⟨total, _, hdrain, (Moved.of_begins (fun s => (hspec s).1) hbegins).trans (hspec last).1⟩

theorem llmStep_moved (t : Table transactions) :
    Moved env t (llmStep env classifier rulesOnly batchSize t).1 := by
  unfold llmStep
  split_ifs
  · exact Moved.refl t
  · exact runLlmSweep_moved batchSize t

/-- A step stops the loop if and only if it gets to no row that does not fail. -/
theorem llmStep_eq_zero_iff : (llmStep env classifier rulesOnly batchSize t).2 = 0 ↔
    rulesOnly = true ∨ classifier.enabled = false ∨
      ∀ row ∈ selectNeedsWork true (min maxConsecutiveFailures (rowLimit t batchSize))
        env.vocabVersion t, fails env classifier t row = true := by
  unfold llmStep
  by_cases hrules : rulesOnly = true
  · rw [if_pos hrules]
    exact iff_of_true rfl (.inl hrules)
  · rw [if_neg hrules, (runLlmSweep_spec env classifier batchSize t).1]
    exact ⟨.inr, fun h => h.resolve_left hrules⟩

/-- **The backfill stops**, in a state in which a sweep begins that categorizes no row. -/
theorem runBackfill_spec (env : Env) (classifier : Classifier) (rulesOnly : Bool)
    (batchSize : Int) (t : Table transactions) :
    ∃ result last, runBackfill env classifier rulesOnly batchSize t = some (result, last) ∧
      SweepBegins env classifier rulesOnly batchSize t last ∧
      (llmStep env classifier rulesOnly batchSize last).2 = 0 := by
  obtain ⟨total, swept, hrules, -⟩ := rulePass_spec env batchSize t
  unfold runBackfill
  rw [hrules]
  cases rulesOnly with
  | true => exact ⟨_, swept, rfl, ⟨total, swept, hrules, .first⟩, rfl⟩
  | false =>
    have hstep : llmStep env classifier false batchSize = runLlmSweep env classifier batchSize :=
      rfl
    have hless : ∀ s, (runLlmSweep env classifier batchSize s).2 ≠ 0 →
        (dueIds true env.vocabVersion (runLlmSweep env classifier batchSize s).1).card <
          (dueIds true env.vocabVersion s).card := by
      intro s hne
      obtain ⟨row, hrow, hdue, row', hrow', hid, hdone⟩ :=
        (runLlmSweep_spec env classifier batchSize s).2.2 hne
      refine card_dueIds_lt (runLlmSweep_moved batchSize s) hrow hdue fun b hb hbid => ?_
      rw [eq_of_id hb hrow' (hbid.trans hid.symm)]
      exact not_needsWork_of_isCategorized hdone true
    obtain ⟨totalLlm, last, hdrain, hbegins, hzero⟩ := Drain.drain_spec
      (μ := fun s => (dueIds true env.vocabVersion s).card) hless
      (Nat.lt_succ_of_le (card_dueIds_le true env.vocabVersion swept))
    rw [(runLlmSweep_spec env classifier batchSize last).2.1 hzero] at hdrain
    refine ⟨⟨total, totalLlm⟩, last, ?_, ⟨total, swept, hrules, hstep ▸ hbegins⟩, hzero⟩
    show (drain (runLlmSweep env classifier batchSize) (swept.rows.length + 1) swept).bind _ = _
    rw [hdrain]
    rfl

theorem SweepBegins.moved (h : SweepBegins env classifier rulesOnly batchSize t s) :
    Moved env t s := by
  obtain ⟨total, swept, hrules, hbegins⟩ := h
  obtain ⟨_, _, hrules', hmoved⟩ := rulePass_spec env batchSize t
  obtain ⟨-, rfl⟩ := Prod.mk.inj (Option.some.inj (hrules.symm.trans hrules'))
  exact hmoved.trans (Moved.of_begins llmStep_moved hbegins)

/-- A loop that is blocked has ended. -/
theorem SweepBegins.eq_of_stops (h : SweepBegins env classifier rulesOnly batchSize t s)
    (h' : SweepBegins env classifier rulesOnly batchSize t last)
    (hstop : (llmStep env classifier rulesOnly batchSize s).2 = 0)
    (hstop' : (llmStep env classifier rulesOnly batchSize last).2 = 0) : s = last := by
  obtain ⟨total, swept, hrules, hbegins⟩ := h
  obtain ⟨_, _, hrules', hbegins'⟩ := h'
  obtain ⟨-, rfl⟩ := Prod.mk.inj (Option.some.inj (hrules.symm.trans hrules'))
  exact hbegins.eq_of_stops hbegins' hstop hstop'

/-- **The backfill stops, and starves no row if and only if it is never blocked.** -/
theorem runBackfill_complete_iff (env : Env) (classifier : Classifier) (rulesOnly : Bool)
    (batchSize : Int) (t : Table transactions) :
    ∃ result last, runBackfill env classifier rulesOnly batchSize t = some (result, last) ∧
      (Complete env classifier t last ↔
        ∀ s, SweepBegins env classifier rulesOnly batchSize t s →
          ¬ Blocked env classifier rulesOnly batchSize s) := by
  obtain ⟨result, last, hrun, hbegins, hstop⟩ :=
    runBackfill_spec env classifier rulesOnly batchSize t
  refine ⟨result, last, hrun, fun hcomplete s hs hblocked => ?_, fun hfree row hrow hdue hnot => ?_⟩
  · -- a blocked sweep is the last one, and the row that it does not get to was there before
    obtain ⟨⟨row, hrow, hdue, hnot⟩, hhead⟩ := hblocked
    obtain rfl := hs.eq_of_stops hbegins (llmStep_eq_zero_iff.mpr hhead) hstop
    obtain ⟨row₀, hrow₀, hmoves⟩ := exists_left hs.moved hrow
    obtain ⟨row', hrow', hid, hdone⟩ := hcomplete row₀ hrow₀ (hmoves.needsWork_of hdue)
      ((fails_eq hs.moved hmoves).symm.trans hnot)
    obtain rfl := eq_of_id hrow' hrow (hid.trans hmoves.id_eq.symm)
    exact absurd (hdue.symm.trans (not_needsWork_of_isCategorized hdone true)) (by decide)
  · obtain ⟨row', hrow', hmoves⟩ := exists_right hbegins.moved hrow
    rcases hmoves.isCategorized_or hdue with hdone | hdue'
    · exact ⟨row', hrow', hmoves.id_eq, hdone⟩
    · refine absurd ⟨⟨row', hrow', hdue', ?_⟩, llmStep_eq_zero_iff.mp hstop⟩ (hfree last hbegins)
      exact (fails_eq hbegins.moved hmoves).trans hnot

/-- The rows that need work and fail. -/
def failingRows (env : Env) (classifier : Classifier) (t : Table transactions) :
    List CategorizedTransaction :=
  t.rows.filter fun row => needsWork true env.vocabVersion row && fails env classifier t row

/-- A sweep that is blocked takes as many failing rows as it can. -/
theorem le_failingRows_of_blocked (henabled : classifier.enabled = true)
    (h : Blocked env classifier false batchSize s) :
    min maxConsecutiveFailures (rowLimit s batchSize) ≤ (failingRows env classifier s).length := by
  obtain ⟨⟨row, hrow, hdue, hnot⟩, hhead⟩ := h
  have hhead := (hhead.resolve_left (by decide)).resolve_left (by simp [henabled])
  set taken := selectNeedsWork true (min maxConsecutiveFailures (rowLimit s batchSize))
    env.vocabVersion s with htaken
  have hlength : taken.length = min maxConsecutiveFailures (rowLimit s batchSize) := by
    by_contra hne
    -- fewer rows than the limit are all that need work
    have hall : taken = (s.rows.filter (needsWork true env.vocabVersion)).insertionSort
        fun a b => a.id ≤ b.id := by
      refine List.take_of_length_le ?_
      have hle := List.length_take_le (min maxConsecutiveFailures (rowLimit s batchSize))
        ((s.rows.filter (needsWork true env.vocabVersion)).insertionSort fun a b => a.id ≤ b.id)
      rw [htaken, selectNeedsWork, List.length_take] at hne
      omega
    have hmem : row ∈ taken := by
      rw [hall, List.mem_insertionSort]
      exact List.mem_filter.mpr ⟨hrow, hdue⟩
    exact absurd ((hhead row hmem).symm.trans hnot) (by decide)
  have hnodup : taken.Nodup := by
    have hrows : s.rows.Nodup := List.Nodup.of_map _ s.ids
    exact (((List.perm_insertionSort _ _).nodup_iff.mpr (hrows.filter _))).sublist
      (List.take_sublist _ _)
  rw [← hlength]
  refine (hnodup.subperm fun b hb => ?_).length_le
  obtain ⟨hmem, hneeds⟩ := mem_selectNeedsWork hb
  exact List.mem_filter.mpr ⟨hmem, by rw [hneeds, hhead b hb]; rfl⟩

/-- No row is starved while fewer fail than a sweep takes up to its abort. -/
theorem not_blocked_of_few (henabled : classifier.enabled = true)
    (hfew : (failingRows env classifier t).length <
      min maxConsecutiveFailures (rowLimit t batchSize)) :
    ∀ s, SweepBegins env classifier false batchSize t s →
      ¬ Blocked env classifier false batchSize s := by
  intro s hs hblocked
  have hmany := le_failingRows_of_blocked henabled hblocked
  have hlimit : rowLimit s batchSize = rowLimit t batchSize := by
    unfold rowLimit
    rw [hs.moved.length_eq]
  have hsub : ((failingRows env classifier s).map (·.id)).Subperm
      ((failingRows env classifier t).map (·.id)) := by
    refine (s.ids.sublist (List.filter_sublist.map _)).subperm fun id hid => ?_
    obtain ⟨b, hb, rfl⟩ := List.mem_map.mp hid
    obtain ⟨hmem, hboth⟩ := List.mem_filter.mp hb
    obtain ⟨hdue, hfails⟩ := Bool.and_eq_true_iff.mp hboth
    obtain ⟨a, ha, hmoves⟩ := exists_left hs.moved hmem
    refine List.mem_map.mpr ⟨a, List.mem_filter.mpr ⟨ha, ?_⟩, hmoves.id_eq.symm⟩
    rw [hmoves.needsWork_of hdue, ← fails_eq hs.moved hmoves, hfails]
    rfl
  have hle := hsub.length_le
  rw [List.length_map, List.length_map] at hle
  omega

end

/-! ### A backlog with failing rows at its head -/

def waitingRow (id : Nat) : CategorizedTransaction :=
  { freshRow "debit" "upi" "Cafe" none 2 with id := id, categoryMethod := some .pendingLlm }

def sixWaiting : Table transactions where
  rows := [1, 2, 3, 4, 5, 6].map waitingRow
  ids := by decide
  unique := by decide +kernel

/-- It raises on the rows up to an id. -/
def failsUpTo (id : Nat) : Classifier where
  enabled := true
  answer n := if n ≤ id then none else some plainAnswer

/-- One failing row at the head starves the others of batches of one row, five those of any
batch. -/
theorem not_complete_sixWaiting :
    let _ := asciiTables
    (∃ r ∈ runBackfill plainEnv (failsUpTo 1) false 1 sixWaiting,
      ¬ Complete plainEnv (failsUpTo 1) sixWaiting r.2) ∧
    ∃ r ∈ runBackfill plainEnv (failsUpTo 5) false 100 sixWaiting,
      ¬ Complete plainEnv (failsUpTo 5) sixWaiting r.2 := by
  intro _
  have hone : (runBackfill plainEnv (failsUpTo 1) false 1 sixWaiting).any
      (fun r => !decide (Complete plainEnv (failsUpTo 1) sixWaiting r.2)) = true := by
    decide +kernel
  have hfive : (runBackfill plainEnv (failsUpTo 5) false 100 sixWaiting).any
      (fun r => !decide (Complete plainEnv (failsUpTo 5) sixWaiting r.2)) = true := by
    decide +kernel
  obtain ⟨r, hr, hnot⟩ := (Option.any_eq_true _ _).mp hone
  obtain ⟨r', hr', hnot'⟩ := (Option.any_eq_true _ _).mp hfive
  exact ⟨⟨r, hr, by simpa using hnot⟩, r', hr', by simpa using hnot'⟩

end FinancialDashboard.Categorization
