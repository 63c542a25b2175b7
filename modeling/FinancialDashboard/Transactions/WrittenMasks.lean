import FinancialDashboard.Transactions.Maskings
import Mathlib.Data.List.Forall2

/-!
# How a bank writes a mask

A masking of an account number is written from its digits: digits in front are cut off, each
of the others is shown or replaced by one wildcard, and separators are put anywhere.

* `isMasking_iff_written`: the texts that are written so are those that can be read and show
  the number.
* `maskMatches_iff_written`: two readable masks match if and only if one number can be written
  as both; so matching is symmetric, and any two maskings of one number match.
-/

namespace FinancialDashboard.Transactions

open PyText

/-- A position of a mask stands for a digit. -/
def StandsFor (p d : Char) : Prop := p = wildcard ∨ p = d

theorem shows_iff {mask number : List Char} :
    Shows mask number ↔ ∃ kept rest, number = kept ++ rest ∧ List.Forall₂ StandsFor mask kept := by
  induction mask generalizing number with
  | nil => exact iff_of_true trivial ⟨[], number, rfl, .nil⟩
  | cons p mask ih =>
    cases number with
    | nil =>
      refine iff_of_false not_false ?_
      rintro ⟨kept, rest, hnil, hstands⟩
      rw [(List.append_eq_nil_iff.mp hnil.symm).1] at hstands
      cases hstands
    | cons d number =>
      show (p = wildcard ∨ p = d) ∧ Shows mask number ↔ _
      rw [ih]
      constructor
      · rintro ⟨hstands, kept, rest, rfl, hmask⟩
        exact ⟨d :: kept, rest, rfl, .cons hstands hmask⟩
      · rintro ⟨kept, rest, hsplit, hmask⟩
        cases hmask with
        | cons hstands hmask =>
          obtain ⟨rfl, rfl⟩ := List.cons.inj hsplit
          exact ⟨hstands, _, rest, rfl, hmask⟩

section

variable [UnicodeTables] {number mask r : List Char}

/-- The digits of a number as they are written. -/
inductive WrittenAs : List Char → List Char → Prop
  | nil : WrittenAs [] []
  | separator {number mask : List Char} {c : Char} (hseparator : isSeparator c = true)
      (hdigit : isMaskDigit c = false) (hwildcard : c ∉ wildcardChars) :
      WrittenAs number mask → WrittenAs number (c :: mask)
  | shown {number mask : List Char} {d : Char} (hdigit : isMaskDigit d = true) :
      WrittenAs number mask → WrittenAs (d :: number) (d :: mask)
  | hidden {number mask : List Char} {d c : Char} (hdigit : isMaskDigit d = true)
      (hwildcard : c ∈ wildcardChars) : WrittenAs number mask → WrittenAs (d :: number) (c :: mask)

/-- The text is a masking of the number, of which digits in front may be cut off. -/
def IsMaskingOf (number mask : List Char) : Prop :=
  ∃ cut kept, number = cut ++ kept ∧ WrittenAs kept mask

omit [UnicodeTables] in
theorem not_isMaskDigit_of_wildcard {c : Char} (h : c ∈ wildcardChars) : isMaskDigit c = false := by
  simp only [wildcardChars, List.mem_cons, List.not_mem_nil, or_false] at h
  rcases h with rfl | rfl | rfl | rfl
  · decide
  · decide
  · decide
  · decide

/-- What is written can be read, and stands for the digits. -/
theorem exists_of_written (h : WrittenAs number mask) :
    ∃ r, normalizeChars mask = some r ∧ List.Forall₂ StandsFor r number := by
  induction h with
  | nil => exact ⟨[], rfl, .nil⟩
  | separator hseparator hdigit hwildcard _ ih =>
    obtain ⟨r, hr, hstands⟩ := ih
    refine ⟨r, ?_, hstands⟩
    rw [normalizeChars, if_neg (by simp [hdigit]), if_neg hwildcard, if_pos hseparator, hr]
  | @shown _ _ d hdigit _ ih =>
    obtain ⟨r, hr, hstands⟩ := ih
    refine ⟨d :: r, ?_, .cons (.inr rfl) hstands⟩
    rw [normalizeChars, if_pos hdigit, hr]
    rfl
  | hidden hdigit hwildcard _ ih =>
    obtain ⟨r, hr, hstands⟩ := ih
    refine ⟨wildcard :: r, ?_, .cons (.inl rfl) hstands⟩
    rw [normalizeChars, if_neg (by simp [not_isMaskDigit_of_wildcard hwildcard]),
      if_pos hwildcard, hr]
    rfl

/-- What can be read is written of the digits it stands for. -/
theorem written_of_normalizeChars (hdigits : ∀ d ∈ number, isMaskDigit d = true)
    (h : normalizeChars mask = some r) (hstands : List.Forall₂ StandsFor r number) :
    WrittenAs number mask := by
  induction mask generalizing number r with
  | nil =>
    obtain rfl := Option.some.inj h
    cases hstands
    exact .nil
  | cons c mask ih =>
    unfold normalizeChars at h
    split_ifs at h with hdigit hwild hsep
    · obtain ⟨r, hr, rfl⟩ := Option.map_eq_some_iff.mp h
      cases hstands with
      | cons hc hstands =>
        obtain ⟨-, hrest⟩ := List.forall_mem_cons.mp hdigits
        rcases hc with rfl | rfl
        · exact absurd hdigit (by decide)
        · exact .shown hdigit (ih hrest hr hstands)
    · obtain ⟨r, hr, rfl⟩ := Option.map_eq_some_iff.mp h
      cases hstands with
      | cons hc hstands =>
        obtain ⟨hd, hrest⟩ := List.forall_mem_cons.mp hdigits
        exact .hidden hd hwild (ih hrest hr hstands)
    · exact .separator hsep (by simpa using hdigit) hwild (ih hdigits h hstands)

/-- **The maskings of a number are the readable texts that show it.** -/
theorem isMasking_iff_written {text : String} (hdigits : ∀ d ∈ number, isMaskDigit d = true)
    (hreadable : normalizeMask (some text) ≠ "") :
    IsMasking (some text) number ↔ IsMaskingOf number text.toList := by
  obtain ⟨s, hs, hchars⟩ := exists_normalizeChars hreadable
  obtain rfl := Option.some.inj hs
  constructor
  · rintro ⟨-, hshows⟩
    obtain ⟨kept, cut, hsplit, hstands⟩ := shows_iff.mp hshows
    have hnumber : number = cut.reverse ++ kept.reverse := by
      rw [← List.reverse_append, ← hsplit, List.reverse_reverse]
    refine ⟨cut.reverse, kept.reverse, hnumber,
      written_of_normalizeChars (fun d hd => ?_) hchars ?_⟩
    · exact hdigits d (hnumber ▸ List.mem_append_right _ hd)
    · rwa [← List.forall₂_reverse_iff, List.reverse_reverse]
  · rintro ⟨cut, kept, rfl, hwritten⟩
    obtain ⟨r, hr, hstands⟩ := exists_of_written hwritten
    obtain rfl := Option.some.inj (hchars.symm.trans hr)
    refine ⟨hreadable, shows_iff.mpr ⟨kept.reverse, cut.reverse, List.reverse_append, ?_⟩⟩
    rwa [List.forall₂_reverse_iff]

variable {a b : String}

theorem sameNumber_iff_written (ha : normalizeMask (some a) ≠ "")
    (hb : normalizeMask (some b) ≠ "") : SameNumber (some a) (some b) ↔
      ∃ number : List Char, (∀ d ∈ number, isMaskDigit d = true) ∧
        IsMaskingOf number a.toList ∧ IsMaskingOf number b.toList := by
  refine exists_congr fun number => and_congr_right fun hdigits => ?_
  rw [isMasking_iff_written hdigits ha, isMasking_iff_written hdigits hb]

/-- **Two masks that can be read match if and only if they are maskings of one number**, read
from the right or written; so matching is symmetric, a mask matches itself, and any two
maskings of one number match. -/
theorem maskMatches_iff_written (ha : normalizeMask (some a) ≠ "")
    (hb : normalizeMask (some b) ≠ "") :
    (maskMatches (normalizeMask (some a)) (normalizeMask (some b)) = true ↔
      SameNumber (some a) (some b)) ∧
    maskMatches (normalizeMask (some a)) (normalizeMask (some b)) =
      maskMatches (normalizeMask (some b)) (normalizeMask (some a)) ∧
    maskMatches (normalizeMask (some a)) (normalizeMask (some a)) = true ∧
    ∀ number : List Char, (∀ d ∈ number, isMaskDigit d = true) →
      IsMaskingOf number a.toList → IsMaskingOf number b.toList →
        maskMatches (normalizeMask (some a)) (normalizeMask (some b)) = true := by
  have hsome : ∃ number, (∀ d ∈ number, isMaskDigit d = true) ∧ IsMasking (some a) number := by
    obtain ⟨number, hdigits, hshows, -⟩ := exists_number (s := []) (isPosition_of_mem ha)
      (fun _ hc => absurd hc List.not_mem_nil) (by rw [List.zip_nil_right]; rfl)
    refine ⟨number.reverse, fun d hd => hdigits d (List.mem_reverse.mp hd), ha, ?_⟩
    rwa [List.reverse_reverse]
  refine ⟨sameNumber_iff.symm, maskMatches_comm _ _, ?_, fun number hdigits hmask hmask' => ?_⟩
  · obtain ⟨number, hdigits, hmasking⟩ := hsome
    exact sameNumber_iff.mp ⟨number, hdigits, hmasking, hmasking⟩
  · exact sameNumber_iff.mp
      ((sameNumber_iff_written ha hb).mpr ⟨number, hdigits, hmask, hmask'⟩)

end

/-- Two maskings of one number, one of them cut off in front. -/
theorem maskMatches_written_twice : let _ := asciiTables
    maskMatches (normalizeMask (some "73XX-XXXX 3942")) (normalizeMask (some "**13942")) =
      true := by
  intro _
  have hshown : ∀ {d : Char} {number mask : List Char}, isMaskDigit d = true →
      WrittenAs number mask → WrittenAs (d :: number) (d :: mask) := .shown
  have hend : WrittenAs ['3', '9', '4', '2'] ['3', '9', '4', '2'] :=
    hshown (by decide) (hshown (by decide) (hshown (by decide) (hshown (by decide) .nil)))
  have hx : 'X' ∈ wildcardChars := by decide
  have hstar : '*' ∈ wildcardChars := by decide
  have hgroup : WrittenAs ['1', '3', '9', '4', '2'] ['X', ' ', '3', '9', '4', '2'] :=
    .hidden (by decide) hx (.separator (by decide) (by decide) (by decide) hend)
  have hlong : WrittenAs ['7', '3', '0', '0', '5', '5', '1', '1', '3', '9', '4', '2']
      "73XX-XXXX 3942".toList := by
    refine hshown (by decide) (hshown (by decide) ?_)
    refine .hidden (by decide) hx (.hidden (by decide) hx ?_)
    refine .separator (by decide) (by decide) (by decide) (.hidden (by decide) hx ?_)
    exact .hidden (by decide) hx (.hidden (by decide) hx hgroup)
  have hshort : WrittenAs ['5', '1', '1', '3', '9', '4', '2'] "**13942".toList :=
    .hidden (by decide) hstar (.hidden (by decide) hstar (hshown (by decide) hend))
  have hdigits : ∀ d ∈ ['7', '3', '0', '0', '5', '5', '1', '1', '3', '9', '4', '2'],
      isMaskDigit d = true := List.all_eq_true.mp (by decide)
  exact (maskMatches_iff_written (by decide) (by decide)).2.2.2 _ hdigits ⟨[], _, rfl, hlong⟩
    ⟨['7', '3', '0', '0', '5'], _, rfl, hshort⟩

end FinancialDashboard.Transactions
