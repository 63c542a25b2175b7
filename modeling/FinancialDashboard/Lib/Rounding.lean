import Mathlib.Algebra.Order.Ring.Rat
import Mathlib.Data.Int.Log
import Mathlib.Data.Rat.Floor
import Mathlib.Tactic.Linarith
import Mathlib.Tactic.Ring

/-!
# Rounding to the nearest, ties to even

`roundEven` rounds to an integer and `roundSig` to a number of significant decimal
digits, as decimal arithmetic does after every operation.

A sum can be rounded as a whole, or its terms one by one.  `loss` is what rounding costs
the terms, and what the arithmetic costs the running total.

* `roundEven_eq_iff`: the rounded integer, told by its distance.
* `roundEven_neg`: rounding is odd.
* `roundSig_of_lt`: a number of few digits is rounded to itself.
* `runningTotal_eq`: a total is its rounded terms and the loss.
* `roundEven_total_iff`: the rounded total is the total of the rounded terms if and only
  if the loss `Settles`: it stays below one half, or is one half at an even total.
* `settles_of_units`: whole units that are added exactly settle.
-/

namespace Rounding

/-! ### To integers -/

/-- The nearest integer, ties to the even one. -/
def roundEven (x : ℚ) : ℤ :=
  let low := x.floor
  let rest := x - low
  if rest < 1 / 2 then low
  else if 1 / 2 < rest then low + 1
  else if low % 2 = 0 then low else low + 1

/-- The integer is nearest, and even if there are two. -/
def IsNearest (x : ℚ) (n : ℤ) : Prop := |x - n| < 1 / 2 ∨ |x - n| = 1 / 2 ∧ Even n

variable {x : ℚ} {n m : ℤ}

theorem isNearest_roundEven (x : ℚ) : IsNearest x (roundEven x) := by
  have hlow : (x.floor : ℚ) ≤ x := Rat.floor_le x
  have hhigh : x < x.floor + 1 := Int.lt_floor_add_one x
  unfold roundEven IsNearest
  dsimp only
  split_ifs with hless hmore heven
  · left
    rw [abs_of_nonneg (by linarith)]
    exact hless
  · left
    push_cast
    rw [abs_of_neg (by linarith)]
    linarith
  · right
    refine ⟨?_, Int.even_iff.mpr heven⟩
    rw [abs_of_nonneg (by linarith)]
    linarith
  · right
    refine ⟨?_, ?_⟩
    · push_cast
      rw [abs_of_nonpos (by linarith)]
      linarith
    · exact (Int.not_even_iff_odd.mp (mt Int.even_iff.mp heven)).add_one

theorem IsNearest.le (h : IsNearest x n) : |x - n| ≤ 1 / 2 := by
  rcases h with h | ⟨h, -⟩
  · exact h.le
  · exact h.le

/-- Two nearest integers would be one apart, each at one half, and both even. -/
theorem IsNearest.unique (hn : IsNearest x n) (hm : IsNearest x m) : n = m := by
  by_contra hne
  have hapart : (1 : ℚ) ≤ |(n : ℚ) - m| := by
    exact_mod_cast Int.one_le_abs (sub_ne_zero.mpr hne)
  have hsplit : |(n : ℚ) - m| ≤ |x - n| + |x - m| := by
    have htriangle := abs_sub_le (n : ℚ) x m
    rwa [abs_sub_comm (n : ℚ) x] at htriangle
  have hnle := hn.le
  have hmle := hm.le
  rcases hn with hn | ⟨hn, hneven⟩
  · linarith
  rcases hm with hm | ⟨hm, hmeven⟩
  · linarith
  have hone : |n - m| = 1 := by
    have hq : |(n : ℚ) - m| = 1 := le_antisymm (by linarith) hapart
    exact_mod_cast hq
  have heven : Even (n - m) := hneven.sub hmeven
  rcases abs_eq (by decide : (0 : ℤ) ≤ 1) |>.mp hone with h | h
  · rw [h] at heven
    exact absurd heven (by decide)
  · rw [h] at heven
    exact absurd heven (by decide)

/-- **The rounded integer, by its distance.** -/
theorem roundEven_eq_iff : roundEven x = n ↔ IsNearest x n :=
  ⟨fun h => h ▸ isNearest_roundEven x, fun h => (isNearest_roundEven x).unique h⟩

theorem roundEven_neg (x : ℚ) : roundEven (-x) = -roundEven x := by
  rw [roundEven_eq_iff]
  have hx := isNearest_roundEven x
  have habs : |-x - ((-roundEven x : ℤ) : ℚ)| = |x - roundEven x| := by
    rw [← abs_neg]
    push_cast
    ring_nf
  unfold IsNearest at hx ⊢
  rw [habs, even_neg]
  exact hx

theorem roundEven_intCast (n : ℤ) : roundEven n = n := by
  rw [roundEven_eq_iff]
  left
  norm_num

/-! ### To significant digits -/

/-- The nearest number of so many significant digits, ties to the even digit. -/
def roundSig (digits : ℕ) (x : ℚ) : ℚ :=
  if x = 0 then 0
  else
    let scale : ℚ := 10 ^ (Int.log 10 |x| + 1 - digits)
    roundEven (x / scale) * scale

/-- **A number of no more digits is rounded to itself.** -/
theorem roundSig_of_lt {digits k : ℕ} {n : ℤ} (h : |n| < 10 ^ digits) :
    roundSig digits (n / 10 ^ k) = n / 10 ^ k := by
  unfold roundSig
  split_ifs with hzero
  · exact hzero.symm
  dsimp only
  -- the last digit kept is not to the left of the last digit there is
  have hlog : Int.log 10 |(n / 10 ^ k : ℚ)| < digits - k := by
    have hn : |(n : ℚ)| < 10 ^ digits := by exact_mod_cast h
    rw [← Int.lt_zpow_iff_log_lt (by decide) (abs_pos.mpr hzero), Nat.cast_ofNat,
      zpow_sub₀ (by norm_num), zpow_natCast, zpow_natCast, abs_div, abs_of_pos (a := (10 : ℚ) ^ k)
        (by positivity)]
    exact div_lt_div_of_pos_right hn (by positivity)
  obtain ⟨e, he⟩ : ∃ e : ℕ, Int.log 10 |(n / 10 ^ k : ℚ)| + 1 - digits = -(k + e : ℤ) :=
    ⟨(digits - k - 1 - Int.log 10 |(n / 10 ^ k : ℚ)|).toNat, by omega⟩
  have hscale : (10 : ℚ) ^ (-(k + e : ℤ)) ≠ 0 := zpow_ne_zero _ (by norm_num)
  have hint : (n / 10 ^ k : ℚ) / 10 ^ (-(k + e : ℤ)) = ((n * 10 ^ e : ℤ) : ℚ) := by
    rw [zpow_neg, div_inv_eq_mul, zpow_add₀ (by norm_num), zpow_natCast, zpow_natCast]
    push_cast
    field_simp
  rw [he, hint, roundEven_intCast, ← hint, div_mul_cancel₀ _ hscale]

/-! ### Sums -/

section

variable (fl : ℚ → ℚ) (scale : ℚ)

/-- The terms added one after the other, each sum rounded by the arithmetic. -/
def runningTotal (start : ℚ) (terms : List ℚ) : ℚ := terms.foldl (fun t a => fl (t + a)) start

/-- The terms rounded one by one, in units of the scale. -/
def roundedTotal (terms : List ℚ) : ℤ := (terms.map fun a => roundEven (a * scale)).sum

/-- What rounding takes from the terms, and the arithmetic adds to the running total. -/
def loss : ℚ → List ℚ → ℚ
  | _, [] => 0
  | t, a :: rest =>
    (a - roundEven (a * scale) / scale) + (fl (t + a) - (t + a)) + loss (fl (t + a)) rest

/-- The loss is below one half of a unit, or is one half and the rounded terms add up to
an even number of units. -/
def Settles (terms : List ℚ) : Prop :=
  |loss fl scale 0 terms * scale| < 1 / 2 ∨
    |loss fl scale 0 terms * scale| = 1 / 2 ∧ Even (roundedTotal scale terms)

/-- The arithmetic adds the terms to the start without rounding. -/
def Exact : ℚ → List ℚ → Prop
  | _, [] => True
  | t, a :: rest => fl (t + a) = t + a ∧ Exact (t + a) rest

variable {fl scale} {terms : List ℚ} {start : ℚ}

theorem roundedTotal_cons (a : ℚ) (terms : List ℚ) :
    roundedTotal scale (a :: terms) = roundEven (a * scale) + roundedTotal scale terms := by
  simp [roundedTotal]

/-- **A total is its rounded terms and the loss.** -/
theorem runningTotal_eq (fl : ℚ → ℚ) (hscale : scale ≠ 0) (start : ℚ) (terms : List ℚ) :
    runningTotal fl start terms =
      start + roundedTotal scale terms / scale + loss fl scale start terms := by
  induction terms generalizing start with
  | nil => simp [runningTotal, roundedTotal, loss]
  | cons a rest ih =>
    have hstep : runningTotal fl start (a :: rest) = runningTotal fl (fl (start + a)) rest := rfl
    rw [hstep, ih, roundedTotal_cons, loss]
    push_cast
    field_simp
    ring

/-- **When rounding a total is rounding its terms.** -/
theorem roundEven_total_iff (fl : ℚ → ℚ) (hscale : scale ≠ 0) (terms : List ℚ) :
    roundEven (runningTotal fl 0 terms * scale) = roundedTotal scale terms ↔
      Settles fl scale terms := by
  have hdistance : runningTotal fl 0 terms * scale - roundedTotal scale terms =
      loss fl scale 0 terms * scale := by
    rw [runningTotal_eq fl hscale]
    field_simp
    ring
  rw [roundEven_eq_iff, IsNearest, hdistance]
  rfl

theorem loss_eq_zero (hscale : scale ≠ 0) (hexact : Exact fl start terms)
    (hunits : ∀ a ∈ terms, ∃ n : ℤ, a * scale = n) : loss fl scale start terms = 0 := by
  induction terms generalizing start with
  | nil => rfl
  | cons a rest ih =>
    obtain ⟨hadd, hrest⟩ := hexact
    obtain ⟨n, hn⟩ := hunits a List.mem_cons_self
    have ha : a - (n : ℚ) / scale = 0 := by
      rw [← hn, mul_div_cancel_right₀ _ hscale, sub_self]
    rw [loss, hadd, ih hrest fun b hb => hunits b (List.mem_cons_of_mem _ hb), hn,
      roundEven_intCast, ha, sub_self, add_zero, add_zero]

/-- **Whole units that are added exactly settle.** -/
theorem settles_of_units (hscale : scale ≠ 0) (hexact : Exact fl 0 terms)
    (hunits : ∀ a ∈ terms, ∃ n : ℤ, a * scale = n) : Settles fl scale terms := by
  left
  rw [loss_eq_zero hscale hexact hunits]
  norm_num

end

/-! ### The default context of decimals -/

/-- The digits that the context keeps. -/
def precision : ℕ := 28

/-- The result of an operation. -/
def inContext (x : ℚ) : ℚ := roundSig precision x

/-- `x.quantize(1 / scale)` in units of `1 / scale`; it fails where the result has more digits
than the context keeps. -/
def quantizeTo (scale x : ℚ) : Option ℤ :=
  if (roundEven (x * scale)).natAbs < 10 ^ precision then some (roundEven (x * scale)) else none

end Rounding
