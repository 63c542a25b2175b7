import FinancialDashboard.Lib.Dict
import Mathlib.Algebra.BigOperators.Group.List.Basic
import Mathlib.Algebra.GroupWithZero.Nat

/-!
# Queries as SQL sees them

A condition is true, false or unknown, and `WHERE` keeps a row if its condition is true.
`NULL` is `none`; what compares with it is unknown.

`groupBy` is a query that sums and counts: one `Group` for each key there is, in an order
that SQL leaves open.  A `Tally` is a sum and a count together.

* `holds_and`, `holds_or`, `holds_eq`, `holds_isIn`, `holds_notIn`: when a condition is true.
* `tally_groupBy`: the groups of some keys have the tally of the rows with these keys.
* `of_mem_groupBy`, `count_groupBy`: what the groups count.
* `tally_fibers`: the tallies of the parts add up to the tally of all.
-/

namespace Sql

/-! ### Conditions -/

/-- A truth value; `none` is unknown. -/
abbrev Truth := Option Bool

namespace Truth

/-- The condition of a `WHERE` is true. -/
def holds (t : Truth) : Bool := t = some true

/-- `NOT`. -/
def not (t : Truth) : Truth := t.map (!·)

/-- `AND`. -/
def and : Truth → Truth → Truth
  | some false, _ | _, some false => some false
  | some true, u => u
  | none, _ => none

/-- `OR`. -/
def or : Truth → Truth → Truth
  | some true, _ | _, some true => some true
  | some false, u => u
  | none, _ => none

variable {t u : Truth}

@[simp] theorem holds_some (b : Bool) : holds (some b) = b := by
  cases b <;> rfl

@[simp] theorem holds_and : holds (t.and u) = (holds t && holds u) := by
  rcases t with _ | _ | _ <;> rcases u with _ | _ | _ <;> rfl

@[simp] theorem holds_or : holds (t.or u) = (holds t || holds u) := by
  rcases t with _ | _ | _ <;> rcases u with _ | _ | _ <;> rfl

end Truth

variable {α κ M : Type*}

/-- The clauses of a `WHERE` in one. -/
def all (clauses : List (α → Truth)) (a : α) : Truth :=
  clauses.foldr (fun clause rest => (clause a).and rest) (some true)

/-- `SELECT … WHERE clause AND …`. -/
def select (clauses : List (α → Truth)) (rows : List α) : List α :=
  rows.filter fun a => (all clauses a).holds

/-- `x IS NULL`. -/
def isNull (x : Option α) : Truth := some x.isNone

/-- `x IS TRUE`, of which an unknown is not. -/
def isTrue (x : Option Bool) : Truth := some (x = some true)

/-- `x = a`. -/
def eq [DecidableEq α] (x : Option α) (a : α) : Truth := x.map fun y => y = a

/-- `x IN (a, …)`. -/
def isIn [DecidableEq α] (x : Option α) (l : List α) : Truth := x.map fun y => y ∈ l

/-- `x BETWEEN low AND high`. -/
def between [LE α] [DecidableLE α] (x : Option α) (low high : α) : Truth :=
  x.map fun y => low ≤ y && y ≤ high

/-- `trim(x, chars)`. -/
def trim (chars : List Char) (x : String) : String :=
  String.ofList ((x.toList.dropWhile (· ∈ chars)).reverse.dropWhile (· ∈ chars)).reverse

open Truth

variable {x : Option α} {a : α} {l : List α}

theorem holds_all {clauses : List (α → Truth)} :
    (all clauses a).holds = true ↔ ∀ clause ∈ clauses, (clause a).holds = true := by
  induction clauses with
  | nil => simp [all]
  | cons clause rest ih =>
    have hcons : all (clause :: rest) a = (clause a).and (all rest a) := rfl
    rw [hcons, holds_and, Bool.and_eq_true, ih, List.forall_mem_cons]

theorem mem_select {clauses : List (α → Truth)} :
    a ∈ select clauses l ↔ a ∈ l ∧ ∀ clause ∈ clauses, (clause a).holds = true := by
  rw [select, List.mem_filter, holds_all]

/-- One clause more is a filter of the rows. -/
theorem select_concat (clauses : List (α → Truth)) (clause : α → Truth) (l : List α) :
    select (clauses ++ [clause]) l = (select clauses l).filter fun a => (clause a).holds := by
  rw [select, select, List.filter_filter]
  refine List.filter_congr fun a _ => ?_
  rw [Bool.eq_iff_iff, Bool.and_eq_true, holds_all, holds_all, List.forall_mem_append,
    List.forall_mem_singleton, and_comm]

theorem holds_eq [DecidableEq α] : holds (eq x a) = true ↔ x = some a := by
  cases x with
  | none => simp [eq, holds]
  | some y => simp [eq]

theorem holds_isIn [DecidableEq α] : holds (isIn x l) = true ↔ ∃ a ∈ l, x = some a := by
  cases x with
  | none => simp [isIn, holds]
  | some y => simp [isIn]

theorem holds_notIn [DecidableEq α] :
    holds (isIn x l).not = true ↔ ∃ a ∉ l, x = some a := by
  cases x with
  | none => simp [isIn, holds, Truth.not]
  | some y => simp [isIn, Truth.not]

theorem holds_isNull : holds (isNull x) = true ↔ x = none := by simp [isNull]

/-! ### Sums and counts -/

/-- A sum and a count. -/
abbrev Tally (M : Type*) := M × ℕ

variable [AddCommMonoid M]

/-- The sum of what the rows say, and their number. -/
def tally (flow : α → M) (rows : List α) : Tally M := (rows.map fun r => (flow r, 1)).sum

/-- `SUM`, which is `NULL` of no rows. -/
def sum (flow : α → M) (rows : List α) : Option M :=
  if rows.isEmpty then none else some (rows.map flow).sum

variable {flow : α → M} {rows : List α}

theorem tally_eq (flow : α → M) (rows : List α) :
    tally flow rows = ((rows.map flow).sum, rows.length) := by
  induction rows with
  | nil => rfl
  | cons r rest ih =>
    unfold tally at ih ⊢
    rw [List.map_cons, List.sum_cons, ih, List.map_cons, List.sum_cons, List.length_cons,
      Prod.mk_add_mk, Nat.add_comm]

/-- A missing sum is read as zero. -/
theorem getD_sum (flow : α → M) (rows : List α) : (sum flow rows).getD 0 = (rows.map flow).sum := by
  cases rows with
  | nil => rfl
  | cons r rest => rfl

theorem sum_tallies (tallies : List (Tally M)) :
    tallies.sum = ((tallies.map (·.1)).sum, (tallies.map (·.2)).sum) := by
  induction tallies with
  | nil => rfl
  | cons t rest ih =>
    rw [List.sum_cons, ih, List.map_cons, List.sum_cons, List.map_cons, List.sum_cons]
    rfl

/-- **The tallies of the parts add up.** -/
theorem tally_fibers {β : Type*} [DecidableEq β] (part : α → β) {parts : List β}
    (hparts : parts.Nodup) (hall : ∀ r ∈ rows, part r ∈ parts) (flow : α → M) :
    (parts.map fun b => tally flow (rows.filter (part · = b))).sum = tally flow rows := by
  rw [tally, ← Dict.sum_groups hparts hall, Dict.groups, List.map_map]
  rfl

/-! ### Groups -/

/-- A row of a query that groups. -/
structure Group (κ M : Type*) where
  key : κ
  sum : Option M
  count : ℕ

def Group.tally (g : Group κ M) : Tally M := (g.sum.getD 0, g.count)

variable [DecidableEq κ]

/-- `SELECT key, SUM(flow), COUNT(*) … GROUP BY key`. -/
def groupBy (key : α → κ) (flow : α → M) (rows : List α) : List (Group κ M) :=
  (Dict.groups key (rows.map key).dedup rows).map fun g => ⟨g.1, sum flow g.2, g.2.length⟩

/-- **The groups of some keys have the tally of the rows with these keys.** -/
theorem tally_groupBy (key : α → κ) (flow : α → M) (rows : List α) (p : κ → Bool) :
    (((groupBy key flow rows).filter (p ·.key)).map Group.tally).sum =
      tally flow (rows.filter fun r => p (key r)) := by
  have hkeys : ((rows.map key).dedup.filter p).Nodup := (List.nodup_dedup _).filter p
  have hall : ∀ r ∈ rows.filter (fun r => p (key r)), key r ∈ (rows.map key).dedup.filter p := by
    intro r hr
    obtain ⟨hr, hp⟩ := List.mem_filter.mp hr
    exact List.mem_filter.mpr ⟨List.mem_dedup.mpr (List.mem_map_of_mem hr), hp⟩
  have htally : ∀ g : κ × List α, Group.tally (⟨g.1, sum flow g.2, g.2.length⟩ : Group κ M) =
      (g.2.map fun r => (flow r, 1)).sum := by
    intro g
    rw [Group.tally, getD_sum, ← tally_eq]
    rfl
  unfold groupBy
  rw [List.filter_map, List.map_map]
  have hfilter : (Dict.groups key (rows.map key).dedup rows).filter
      ((p ·.key) ∘ fun g : κ × List α => (⟨g.1, sum flow g.2, g.2.length⟩ : Group κ M)) =
      Dict.groups key ((rows.map key).dedup.filter p) (rows.filter fun r => p (key r)) :=
    Dict.filter_groups key _ rows p
  rw [hfilter, tally, ← Dict.sum_groups hkeys hall]
  exact congrArg List.sum (List.map_congr_left fun g _ => htally g)

/-- The groups have the sum and the count of the rows. -/
theorem totals_groupBy (key : α → κ) (flow : α → M) (rows : List α) :
    (((groupBy key flow rows).map fun g => g.sum.getD 0).sum,
      ((groupBy key flow rows).map (·.count)).sum) = tally flow rows := by
  have hall := tally_groupBy key flow rows fun _ => true
  rw [List.filter_true, List.filter_true, sum_tallies, List.map_map, List.map_map] at hall
  exact hall

/-- **The groups of some keys count the rows with these keys.** -/
theorem count_groupBy (key : α → κ) (flow : α → M) (rows : List α) (p : κ → Bool) :
    (((groupBy key flow rows).filter (p ·.key)).map (·.count)).sum =
      (rows.filter fun r => p (key r)).length := by
  have htally := congrArg Prod.snd (tally_groupBy key flow rows p)
  rw [sum_tallies, tally_eq, List.map_map, List.map_map] at htally
  exact htally

/-- A group has the key of a row, and counts the rows with that key. -/
theorem of_mem_groupBy {key : α → κ} {g : Group κ M} (h : g ∈ groupBy key flow rows) :
    (∃ r ∈ rows, key r = g.key) ∧ g.count = (rows.filter (key · = g.key)).length := by
  obtain ⟨pair, hpair, rfl⟩ := List.mem_map.mp h
  obtain ⟨k, hk, rfl⟩ := List.mem_map.mp hpair
  exact ⟨List.mem_map.mp (List.mem_dedup.mp hk), rfl⟩

end Sql
