import Mathlib.Data.List.Infix
import Mathlib.Data.List.Range

/-!
# Looking for a needle

`find` is the first place from a start on where a needle begins, and `search` goes from one
such place to the next until one of them is accepted.  The next one is looked for from one
place further, so that the needles may overlap.

* `find_eq_some_iff`, `find_eq_none_iff`: what is found.
* `search_iff`: a search stops, with `true` if and only if some place is accepted.
* `occursAt_iff`: a needle begins at a place if the text can be cut there.
-/

namespace Find

variable {α : Type*} [DecidableEq α] {needle hay : List α} {start i : ℕ}

/-- The needle begins at place `i`. -/
def OccursAt (needle hay : List α) (i : ℕ) : Prop := i ≤ hay.length ∧ needle <+: hay.drop i

instance (needle hay : List α) (i : ℕ) : Decidable (OccursAt needle hay i) :=
  inferInstanceAs (Decidable (_ ∧ _))

omit [DecidableEq α] in
theorem occursAt_iff :
    OccursAt needle hay i ↔ ∃ pre post, hay = pre ++ needle ++ post ∧ pre.length = i := by
  constructor
  · rintro ⟨hi, post, hdrop⟩
    refine ⟨hay.take i, post, ?_, List.length_take_of_le hi⟩
    rw [List.append_assoc, hdrop, List.take_append_drop]
  · rintro ⟨pre, post, rfl, rfl⟩
    rw [List.append_assoc]
    refine ⟨by rw [List.length_append]; exact Nat.le_add_right _ _, ?_⟩
    rw [List.drop_left]
    exact List.prefix_append _ _

/-- The first place from `start` on where the needle begins. -/
def find (needle hay : List α) (start : ℕ) : Option ℕ :=
  (List.range' start (hay.length + 1 - start)).find? fun i => OccursAt needle hay i

theorem find_eq_some_iff : find needle hay start = some i ↔
    OccursAt needle hay i ∧ start ≤ i ∧ ∀ j, start ≤ j → j < i → ¬ OccursAt needle hay j := by
  unfold find
  rw [List.find?_range'_eq_some, List.mem_range'_1, decide_eq_true_eq]
  constructor
  · rintro ⟨hoccurs, ⟨hstart, -⟩, hfirst⟩
    exact ⟨hoccurs, hstart, fun j hj hlt => by simpa using hfirst j hj hlt⟩
  · rintro ⟨hoccurs, hstart, hfirst⟩
    have hend : i ≤ hay.length := hoccurs.1
    exact ⟨hoccurs, ⟨hstart, by omega⟩, fun j hj hlt => by simpa using hfirst j hj hlt⟩

theorem find_eq_none_iff : find needle hay start = none ↔
    ∀ i, start ≤ i → ¬ OccursAt needle hay i := by
  unfold find
  rw [List.find?_range'_eq_none]
  constructor
  · intro h i hi hoccurs
    have hend : i ≤ hay.length := hoccurs.1
    exact absurd hoccurs (by simpa using h i hi (by omega))
  · intro h i hi _
    simpa using h i hi

/-- From place to place until one is accepted. -/
def search (accept : ℕ → Bool) (needle hay : List α) (start : ℕ) : Bool :=
  match h : find needle hay start with
  | none => false
  | some i => if accept i then true else search accept needle hay (i + 1)
termination_by hay.length + 1 - start
decreasing_by
  -- the next search starts behind the place that was found
  obtain ⟨⟨hend, -⟩, hstart, -⟩ := find_eq_some_iff.mp h
  omega

/-- **A search finds what is to be accepted**, wherever it is. -/
theorem search_iff {accept : ℕ → Bool} (needle hay : List α) (start : ℕ) :
    search accept needle hay start = true ↔
      ∃ i, start ≤ i ∧ OccursAt needle hay i ∧ accept i = true := by
  fun_induction search accept needle hay start with
  | case1 start hnone =>
    refine iff_of_false Bool.false_ne_true ?_
    rintro ⟨i, hi, hoccurs, -⟩
    exact find_eq_none_iff.mp hnone i hi hoccurs
  | case2 start i hsome haccept =>
    obtain ⟨hoccurs, hi, -⟩ := find_eq_some_iff.mp hsome
    exact iff_of_true rfl ⟨i, hi, hoccurs, haccept⟩
  | case3 start i hsome hreject ih =>
    obtain ⟨-, hi, hfirst⟩ := find_eq_some_iff.mp hsome
    rw [ih]
    constructor
    · rintro ⟨j, hj, hoccurs, haccept⟩
      exact ⟨j, by omega, hoccurs, haccept⟩
    · rintro ⟨j, hj, hoccurs, haccept⟩
      refine ⟨j, ?_, hoccurs, haccept⟩
      -- neither a place before the one that was found, nor this one
      rcases Nat.lt_trichotomy j i with hlt | rfl | hlt
      · exact absurd hoccurs (hfirst j hj hlt)
      · exact absurd haccept hreject
      · omega

end Find
