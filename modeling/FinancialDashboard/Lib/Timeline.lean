import Mathlib.Algebra.BigOperators.Group.List.Basic
import Mathlib.Data.Nat.Find
import Mathlib.Order.Lattice

/-!
# Values over time

A history is a list of points in time with the value observed there, in
increasing order of time.  Between two points the earlier value is in force.

* `valueFrom`: the value in force, given the one before the first point.
* `valueFrom_of_last`: it is the value of the last point not in the future.
* `valueFrom_split`: the part of a history up to a cut is summed up by the value
  in force at the cut.
* `existsUnique_piece`: cuts in order cut the line into pieces.
* `sum_steps`: the steps from value to value, summed up to a time, give the value
  in force then.
-/

namespace Timeline

variable {T V : Type*} [LinearOrder T]

/-- The points are in strictly increasing order of time. -/
abbrev Increasing (points : List (T × V)) : Prop := points.Pairwise fun a b => a.1 < b.1

/-- The value in force at `d`, where `before` is in force until the first point. -/
def valueFrom (before : V) (points : List (T × V)) (d : T) : V :=
  (((points.filter (·.1 ≤ d)).getLast?).map (·.2)).getD before

variable {before v : V} {points : List (T × V)} {t c d : T}

@[simp] theorem valueFrom_nil : valueFrom before [] d = before := rfl

theorem valueFrom_cons_of_le (h : t ≤ d) :
    valueFrom before ((t, v) :: points) d = valueFrom v points d := by
  unfold valueFrom
  rw [List.filter_cons_of_pos (by simpa using h), List.getLast?_cons]
  cases (points.filter (·.1 ≤ d)).getLast? <;> rfl

theorem valueFrom_of_forall_lt (h : ∀ p ∈ points, d < p.1) : valueFrom before points d = before := by
  have hnone : points.filter (·.1 ≤ d) = [] := by
    rw [List.filter_eq_nil_iff]
    intro p hp
    simpa using h p hp
  simp [valueFrom, hnone]

theorem valueFrom_concat_of_le (h : t ≤ d) : valueFrom before (points ++ [(t, v)]) d = v := by
  simp [valueFrom, h]

theorem valueFrom_concat_of_lt (h : d < t) :
    valueFrom before (points ++ [(t, v)]) d = valueFrom before points d := by
  simp [valueFrom, not_le_of_gt h]

/-- The points after one in the future are in the future. -/
theorem Increasing.forall_lt (h : Increasing ((t, v) :: points)) (hd : d < t) :
    ∀ p ∈ (t, v) :: points, d < p.1 := by
  intro p hp
  rcases List.mem_cons.mp hp with rfl | hp
  · exact hd
  · exact hd.trans (List.rel_of_pairwise_cons h hp)

/-- **The value in force is that of the last point not in the future.** -/
theorem valueFrom_of_last (h : Increasing points) (hmem : (t, v) ∈ points) (ht : t ≤ d)
    (hlast : ∀ p ∈ points, p.1 ≤ d → p.1 ≤ t) : valueFrom before points d = v := by
  induction points generalizing before with
  | nil => cases hmem
  | cons p points ih =>
    obtain ⟨s, w⟩ := p
    rcases List.mem_cons.mp hmem with heq | hmem
    · obtain ⟨rfl, rfl⟩ := Prod.mk.inj heq
      rw [valueFrom_cons_of_le ht]
      refine valueFrom_of_forall_lt fun q hq => lt_of_not_ge fun hqd => ?_
      have hlt : t < q.1 := List.rel_of_pairwise_cons h hq
      exact absurd (hlast q (List.mem_cons_of_mem _ hq) hqd) (not_le_of_gt hlt)
    · have hst : s < t := List.rel_of_pairwise_cons h hmem
      rw [valueFrom_cons_of_le (hst.le.trans ht)]
      exact ih h.of_cons hmem fun q hq => hlast q (List.mem_cons_of_mem _ hq)

/-- **A history may be cut**: up to the cut only the value in force there counts. -/
theorem valueFrom_split (h : Increasing points) (hcd : c ≤ d) :
    valueFrom (valueFrom before points c) (points.filter (c < ·.1)) d =
      valueFrom before points d := by
  induction points generalizing before with
  | nil => rfl
  | cons p points ih =>
    obtain ⟨s, w⟩ := p
    by_cases hs : s ≤ c
    · rw [valueFrom_cons_of_le hs, valueFrom_cons_of_le (hs.trans hcd),
        List.filter_cons_of_neg (by simpa using hs)]
      exact ih h.of_cons
    · have hlt := h.forall_lt (lt_of_not_ge hs)
      rw [valueFrom_of_forall_lt hlt, List.filter_eq_self.mpr (by simpa using hlt)]

/-- The change at each point. -/
def steps [Sub V] (running : V) : List (T × V) → List (T × V)
  | [] => []
  | (t, v) :: points => (t, v - running) :: steps v points

omit [LinearOrder T] in
theorem map_fst_steps [Sub V] (points : List (T × V)) :
    (steps before points).map (·.1) = points.map (·.1) := by
  induction points generalizing before with
  | nil => rfl
  | cons p points ih =>
    rw [steps, List.map_cons, List.map_cons, ih]

/-- **The steps up to a time give the value in force then.** -/
theorem sum_steps [AddCommGroup V] (h : Increasing points) :
    (((steps before points).filter (·.1 ≤ d)).map (·.2)).sum = valueFrom before points d - before := by
  induction points generalizing before with
  | nil => simp [steps]
  | cons p points ih =>
    obtain ⟨s, w⟩ := p
    by_cases hs : s ≤ d
    · rw [steps, List.filter_cons_of_pos (by simpa using hs), List.map_cons, List.sum_cons,
        ih h.of_cons, valueFrom_cons_of_le hs]
      exact sub_add_sub_cancel' w before _
    · have hlt := h.forall_lt (lt_of_not_ge hs)
      have hnone : (steps before ((s, w) :: points)).filter (·.1 ≤ d) = [] := by
        rw [List.filter_eq_nil_iff]
        intro q hq
        have htime : q.1 ∈ ((s, w) :: points).map (·.1) := by
          rw [← map_fst_steps]
          exact List.mem_map_of_mem hq
        obtain ⟨p, hp, heq⟩ := List.mem_map.mp htime
        simpa [← heq] using hlt p hp
      rw [hnone, valueFrom_of_forall_lt hlt]
      simp

/-! ### The pieces between cuts -/

section

variable {cuts : List T} {i j : Nat}

/-- `d` is in the piece `i`: not before the cut before it, and before the cut after it. -/
structure InPiece (cuts : List T) (i : Nat) (d : T) : Prop where
  from_cut : ∀ c, i ≠ 0 → cuts[i - 1]? = some c → c ≤ d
  before_cut : ∀ c, cuts[i]? = some c → d < c

/-- A day is in no later piece. -/
theorem InPiece.le (hcuts : cuts.Pairwise (· ≤ ·)) (hi : InPiece cuts i d)
    (hj : InPiece cuts j d) (hlength : j ≤ cuts.length) : j ≤ i := by
  by_contra hij
  have hlast : j - 1 < cuts.length := by omega
  have hfirst : i < cuts.length := by omega
  have hbefore := hi.before_cut _ (List.getElem?_eq_getElem hfirst)
  have hfrom := hj.from_cut _ (by omega) (List.getElem?_eq_getElem hlast)
  have hmono : cuts[i] ≤ cuts[j - 1] := by
    rcases Nat.lt_or_ge i (j - 1) with h | h
    · exact List.pairwise_iff_getElem.mp hcuts i (j - 1) hfirst hlast h
    · obtain rfl : i = j - 1 := by omega
      exact le_rfl
  exact absurd (hbefore.trans_le hmono) (not_lt_of_ge hfrom)

/-- **Cuts in order cut the line into pieces.** -/
theorem existsUnique_piece (hcuts : cuts.Pairwise (· ≤ ·)) (d : T) :
    ∃! i, i ≤ cuts.length ∧ InPiece cuts i d := by
  classical
  have hex : ∃ i, ∀ c, cuts[i]? = some c → d < c :=
    ⟨cuts.length, fun c hc => by simp at hc⟩
  have hlength : Nat.find hex ≤ cuts.length := Nat.find_min' hex fun c hc => by simp at hc
  have hpiece : InPiece cuts (Nat.find hex) d := by
    refine ⟨fun c hne hc => ?_, Nat.find_spec hex⟩
    by_contra hlt
    refine Nat.find_min hex (m := Nat.find hex - 1) (by omega) fun c' hc' => ?_
    obtain rfl := Option.some.inj (hc.symm.trans hc')
    exact lt_of_not_ge hlt
  refine ⟨Nat.find hex, ⟨hlength, hpiece⟩, fun j hj => ?_⟩
  exact le_antisymm (hpiece.le hcuts hj.2 hj.1) (hj.2.le hcuts hpiece hlength)

end

end Timeline
