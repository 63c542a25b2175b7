import FinancialDashboard.Lib.Numerals
import Mathlib.Algebra.Order.Ring.Nat
import Mathlib.Data.String.Basic

/-!
# Numbers of a fixed width

Texts of digits that are of one length stand in the order of their numbers.

* `lt_of_ofDigitChars_lt`, `zeroPad_lt`: the order of the texts is that of the numbers.
* `append_lt_append`: what comes first decides.
-/

namespace PyTime

variable {a b : List Char} {c d : Char}

theorem digit_lt_ten (h : c.isDigit = true) : c.toNat - '0'.toNat < 10 := by
  simp only [Char.isDigit, ge_iff_le, Bool.and_eq_true, decide_eq_true_eq, UInt32.le_iff_toNat_le]
    at h
  have hzero : '0'.toNat = 48 := rfl
  have hnine : '9'.val.toNat = 57 := rfl
  have hval : c.toNat = c.val.toNat := rfl
  omega

theorem ofDigitChars_cons_eq (c : Char) (a : List Char) : Nat.ofDigitChars 10 (c :: a) 0 =
    10 ^ a.length * (c.toNat - '0'.toNat) + Nat.ofDigitChars 10 a 0 := by
  rw [Nat.ofDigitChars_cons, Nat.ofDigitChars_eq_ofDigitChars_zero, Nat.mul_zero, Nat.zero_add]

theorem ofDigitChars_lt (h : ∀ c ∈ a, c.isDigit = true) :
    Nat.ofDigitChars 10 a 0 < 10 ^ a.length := by
  induction a with
  | nil => exact Nat.one_pos
  | cons c a ih =>
    have hdigit := digit_lt_ten (h c List.mem_cons_self)
    have hrest := ih fun d hd => h d (List.mem_cons_of_mem c hd)
    rw [ofDigitChars_cons_eq, List.length_cons, Nat.pow_succ]
    have hmul : 10 ^ a.length * (c.toNat - '0'.toNat + 1) ≤ 10 ^ a.length * 10 :=
      Nat.mul_le_mul_left _ hdigit
    rw [Nat.mul_add, Nat.mul_one] at hmul
    omega

/-- Digits stand in the order of what they count. -/
theorem lt_of_digit_lt (h : c.toNat - '0'.toNat < d.toNat - '0'.toNat) : c < d := by
  rw [Char.lt_def, UInt32.lt_iff_toNat_lt]
  exact show c.toNat < d.toNat by omega

theorem digit_inj (hc : c.isDigit = true) (hd : d.isDigit = true)
    (h : c.toNat - '0'.toNat = d.toNat - '0'.toNat) : c = d := by
  simp only [Char.isDigit, ge_iff_le, Bool.and_eq_true, decide_eq_true_eq, UInt32.le_iff_toNat_le]
    at hc hd
  have hzero : '0'.toNat = '0'.val.toNat := rfl
  have hcval : c.toNat = c.val.toNat := rfl
  have hdval : d.toNat = d.val.toNat := rfl
  exact Char.ext (UInt32.toNat_inj.mp (by omega))

/-- **Texts of digits of one length stand in the order of their numbers.** -/
theorem lt_of_ofDigitChars_lt (hlen : a.length = b.length) (ha : ∀ c ∈ a, c.isDigit = true)
    (hb : ∀ c ∈ b, c.isDigit = true)
    (h : Nat.ofDigitChars 10 a 0 < Nat.ofDigitChars 10 b 0) : a < b := by
  induction a generalizing b with
  | nil =>
    cases b with
    | nil => exact absurd h (lt_irrefl _)
    | cons d b => cases hlen
  | cons c a ih =>
    cases b with
    | nil => cases hlen
    | cons d b =>
      have hlen' : a.length = b.length := Nat.succ.inj hlen
      have hca := ha c List.mem_cons_self
      have hdb := hb d List.mem_cons_self
      have hsmall := ofDigitChars_lt fun c hc => hb c (List.mem_cons_of_mem d hc)
      rw [ofDigitChars_cons_eq, ofDigitChars_cons_eq, hlen'] at h
      rw [List.cons_lt_cons_iff]
      rcases Nat.lt_trichotomy (c.toNat - '0'.toNat) (d.toNat - '0'.toNat) with hlt | heq | hgt
      · exact .inl (lt_of_digit_lt hlt)
      · obtain rfl : c = d := digit_inj hca hdb heq
        exact .inr ⟨rfl, ih hlen' (fun e he => ha e (List.mem_cons_of_mem c he))
          (fun e he => hb e (List.mem_cons_of_mem c he)) (Nat.lt_of_add_lt_add_left h)⟩
      · have hmul : 10 ^ b.length * (d.toNat - '0'.toNat + 1) ≤
            10 ^ b.length * (c.toNat - '0'.toNat) := Nat.mul_le_mul_left _ hgt
        rw [Nat.mul_add, Nat.mul_one] at hmul
        omega

/-! ### With zeros in front -/

variable {width m n : Nat}

theorem length_zeroPad_of_lt (hwidth : 0 < width) (hn : n < 10 ^ width) :
    (zeroPad width n).toList.length = width := length_zeroPad (length_toString_le hwidth hn)

theorem zeroPad_lt (hwidth : 0 < width) (hn : n < 10 ^ width) (h : m < n) :
    (zeroPad width m).toList < (zeroPad width n).toList := by
  refine lt_of_ofDigitChars_lt ?_ (fun _ => isDigit_of_mem_zeroPad) (fun _ => isDigit_of_mem_zeroPad) ?_
  · rw [length_zeroPad_of_lt hwidth hn, length_zeroPad_of_lt hwidth (h.trans hn)]
  · rw [ofDigitChars_zeroPad, ofDigitChars_zeroPad]
    exact h

/-! ### One after the other -/

/-- What comes first decides, where it is of one length. -/
theorem append_lt_append {x y : List Char} (hlen : a.length = b.length) (h : a < b) :
    a ++ x < b ++ y := by
  induction a generalizing b with
  | nil =>
    obtain rfl : b = [] := List.length_eq_zero_iff.mp hlen.symm
    exact absurd h (lt_irrefl _)
  | cons c a ih =>
    cases b with
    | nil => cases hlen
    | cons d b =>
      rw [List.cons_append, List.cons_append, List.cons_lt_cons_iff]
      rcases List.cons_lt_cons_iff.mp h with hlt | ⟨rfl, hlt⟩
      · exact .inl hlt
      · exact .inr ⟨rfl, ih (Nat.succ.inj hlen) hlt⟩

end PyTime
