import FinancialDashboard.Lib.PyTime
import Mathlib.Algebra.Group.Nat.Defs

/-!
# Numerals

The digits of a number in a text, with zeros in front or without, and what they spell.

* `ofDigitChars_toString`, `ofDigitChars_zeroPad`: they spell the number.
* `append_injective`: digits end where something else begins.
* `mem_isoformat`: a date in ISO form is digits and dashes.
-/

namespace PyTime

theorem isDigit_of_mem_toString {n : Nat} {c : Char} (hc : c ∈ (toString n).toList) :
    c.isDigit = true := by
  rw [Nat.toString_eq_repr, Nat.toList_repr] at hc
  exact Nat.isDigit_of_mem_toDigits (by decide) (by decide) hc

theorem ofDigitChars_toString (n : Nat) : Nat.ofDigitChars 10 (toString n).toList 0 = n := by
  rw [Nat.toString_eq_repr, Nat.toList_repr]
  exact Nat.ofDigitChars_ten_toDigits

theorem length_toString_le {n width : Nat} (hwidth : 0 < width) (hn : n < 10 ^ width) :
    (toString n).length ≤ width := by
  rw [Nat.toString_eq_repr, ← String.length_toList, Nat.toList_repr]
  exact (Nat.length_toDigits_le_iff (by decide) hwidth).mpr hn

theorem toList_zeroPad (width n : Nat) : (zeroPad width n).toList =
    List.replicate (width - (toString n).length) '0' ++ (toString n).toList := by
  simp [zeroPad]

theorem isDigit_of_mem_zeroPad {width n : Nat} {c : Char} (hc : c ∈ (zeroPad width n).toList) :
    c.isDigit = true := by
  rw [toList_zeroPad] at hc
  rcases List.mem_append.mp hc with hc | hc
  · obtain rfl := List.eq_of_mem_replicate hc
    rfl
  · exact isDigit_of_mem_toString hc

/-- Zeros in front do not count. -/
theorem ofDigitChars_zeroPad (width n : Nat) :
    Nat.ofDigitChars 10 (zeroPad width n).toList 0 = n := by
  rw [toList_zeroPad, Nat.ofDigitChars_append, Nat.ofDigitChars_replicate_zero, Nat.mul_zero]
  exact ofDigitChars_toString n

theorem length_zeroPad {width n : Nat} (hn : (toString n).length ≤ width) :
    (zeroPad width n).toList.length = width := by
  rw [toList_zeroPad, List.length_append, List.length_replicate, String.length_toList]
  omega

theorem zeroPad_injective {width m n : Nat} (h : zeroPad width m = zeroPad width n) : m = n := by
  rw [← ofDigitChars_zeroPad width m, h, ofDigitChars_zeroPad]

/-- **Digits end where something else begins.** -/
theorem append_injective {a b : List Char} {c : Char} {rest more : List Char}
    (ha : ∀ d ∈ a, d.isDigit = true) (hb : ∀ d ∈ b, d.isDigit = true) (hc : ¬c.isDigit = true)
    (h : a ++ c :: rest = b ++ c :: more) : a = b ∧ rest = more := by
  have htake : ∀ l tail : List Char, (∀ d ∈ l, d.isDigit = true) →
      (l ++ c :: tail).takeWhile Char.isDigit = l := by
    intro l tail hl
    rw [List.takeWhile_append_of_pos hl, List.takeWhile_cons_of_neg hc, List.append_nil]
  have hab : a = b := by rw [← htake a rest ha, h, htake b more hb]
  subst hab
  exact ⟨rfl, (List.cons.inj (List.append_cancel_left h)).2⟩

/-! ### Dates -/

theorem mem_isoformat {date : Int} {c : Char} (h : c ∈ (isoformat date).toList) :
    c.isDigit = true ∨ c = '-' := by
  have hdash : ("-" : String).toList = ['-'] := rfl
  simp only [isoformat, String.toList_append, List.mem_append, hdash, List.mem_singleton] at h
  rcases h with (((h | h) | h) | h) | h
  · exact .inl (isDigit_of_mem_zeroPad h)
  · exact .inr h
  · exact .inl (isDigit_of_mem_zeroPad h)
  · exact .inr h
  · exact .inl (isDigit_of_mem_zeroPad h)

/-- A date begins with a digit. -/
theorem exists_digit_isoformat (date : Int) :
    ∃ c rest, (isoformat date).toList = c :: rest ∧ c.isDigit = true := by
  have hyear : ∃ c rest, (zeroPad 4 (civil date).year.toNat).toList = c :: rest := by
    rw [toList_zeroPad, ← String.length_toList]
    cases htext : (toString (civil date).year.toNat).toList with
    | nil => exact ⟨_, _, rfl⟩
    | cons c rest =>
      cases hpad : List.replicate (4 - (c :: rest).length) '0' with
      | nil => exact ⟨c, rest, rfl⟩
      | cons d more => exact ⟨d, _, rfl⟩
  obtain ⟨c, rest, hyear⟩ := hyear
  have hdate : (isoformat date).toList = (zeroPad 4 (civil date).year.toNat).toList ++
      ("-" ++ zeroPad 2 (civil date).month ++ "-" ++ zeroPad 2 (civil date).day).toList := by
    simp only [isoformat, String.toList_append, List.append_assoc]
  rw [hyear] at hdate
  exact ⟨c, _, hdate, isDigit_of_mem_zeroPad (hyear ▸ List.mem_cons_self)⟩

end PyTime
