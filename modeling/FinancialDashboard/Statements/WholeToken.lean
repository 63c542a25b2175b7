import FinancialDashboard.Lib.Find
import FinancialDashboard.Statements.Narration

/-!
# A whole token of a narration

The loop of `_contains_whole_token` (`services/statements/cc.py`): it goes from one occurrence
of the needle to the next, overlapping ones included, and looks at the characters on both
sides.

* `scanWholeToken_iff`: it stops, and tells whether an occurrence stands between bounds.
* `scanWholeToken_eq`: the reconciler's `containsWholeToken` is this loop.
-/

namespace FinancialDashboard.Statements

open PyText

/-- The character at a place, if there is one. -/
def charBefore (haystack : List Char) (index : Nat) : Option Char :=
  if 0 < index then haystack[index - 1]? else none

def charAfter (haystack : List Char) (index length : Nat) : Option Char :=
  haystack[index + length]?

/-- The character in front of a cut. -/
theorem charBefore_append (pre rest : List Char) :
    charBefore (pre ++ rest) pre.length = pre.getLast? := by
  unfold charBefore
  cases pre using List.reverseRecOn with
  | nil => rfl
  | append_singleton pre ch =>
    rw [if_pos (by simp), List.getLast?_concat, List.append_assoc]
    simp

theorem charAfter_append (pre needle post : List Char) :
    charAfter (pre ++ needle ++ post) pre.length needle.length = post.head? := by
  unfold charAfter
  rw [← List.length_append, List.getElem?_append_right (le_refl _), Nat.sub_self,
    List.head?_eq_getElem?]

variable [UnicodeTables] [NarrationTables]

/-- An occurrence of the needle at this place is no part of a longer word. -/
def standsAlone (haystack needle : List Char) (index : Nat) : Bool :=
  isBound isWordChar (charBefore haystack index) &&
    isBound isWordChar (charAfter haystack index needle.length)

/-- `_contains_whole_token`. -/
def scanWholeToken (haystack needle : String) : Bool :=
  if needle = "" then false
  else Find.search (standsAlone haystack.toList needle.toList) needle.toList haystack.toList 0

theorem standsAlone_append (pre needle post : List Char) :
    standsAlone (pre ++ needle ++ post) needle pre.length =
      (isBound isWordChar pre.getLast? && isBound isWordChar post.head?) := by
  rw [standsAlone, charAfter_append, List.append_assoc, charBefore_append]

/-- **The loop is exact**: a needle that is not empty is found if and only if it occurs
between bounds, and the empty one never. -/
theorem scanWholeToken_iff (haystack needle : String) :
    scanWholeToken haystack needle = true ↔ needle ≠ "" ∧
      ∃ pre post, haystack.toList = pre ++ needle.toList ++ post ∧
        isBound isWordChar pre.getLast? = true ∧ isBound isWordChar post.head? = true := by
  unfold scanWholeToken
  by_cases hempty : needle = ""
  · rw [if_pos hempty]
    exact iff_of_false Bool.false_ne_true fun h => h.1 hempty
  rw [if_neg hempty, Find.search_iff]
  constructor
  · rintro ⟨i, -, hoccurs, hstands⟩
    obtain ⟨pre, post, htext, rfl⟩ := Find.occursAt_iff.mp hoccurs
    rw [htext, standsAlone_append, Bool.and_eq_true] at hstands
    exact ⟨hempty, pre, post, htext, hstands⟩
  · rintro ⟨-, pre, post, htext, hbounds⟩
    refine ⟨pre.length, Nat.zero_le _, Find.occursAt_iff.mpr ⟨pre, post, htext, rfl⟩, ?_⟩
    rw [htext, standsAlone_append, Bool.and_eq_true]
    exact hbounds

omit [UnicodeTables] [NarrationTables] in
/-- The empty needle stands between the two ends of the empty text, and is not found. -/
theorem not_scan_empty : let _ := asciiTables; let _ := asciiNarration
    scanWholeToken "" "" = false ∧
      ∃ pre post, ("" : String).toList = pre ++ ("" : String).toList ++ post ∧
        isBound isWordChar pre.getLast? = true ∧ isBound isWordChar post.head? = true :=
  ⟨by decide, [], [], rfl, rfl, rfl⟩

/-- An occurrence that is rejected does not hide the one that overlaps it. -/
example : let _ := asciiTables; let _ := asciiNarration
    scanWholeToken "xa-a-a" "a-a" = true := by decide +kernel

/-- **What the reconciler asks is answered by the loop.** -/
theorem scanWholeToken_eq (haystack needle : String) :
    scanWholeToken haystack needle = containsWholeToken haystack needle := by
  rw [Bool.eq_iff_iff, scanWholeToken_iff, containsWholeToken, Bool.and_eq_true,
    decide_eq_true_eq]
  exact and_congr_right fun hneedle => (boundedIn_iff hneedle).symm

end FinancialDashboard.Statements
