import FinancialDashboard.Transactions.Masks

/-!
# What a mask shows of a number

A mask of an account number is read from the right (`core/masks.py`): a digit that it shows is
the number's at that place, a wildcard hides one, and the number may go on to the left.

* `sameNumber_iff`: two masks match if one number can be masked as both.
* `endsWith_of_shownAtEnd`: of two masks that match and show digits at their end only, the
  digits of one end those of the other.
-/

namespace FinancialDashboard.Transactions

open PyText

/-- The positions of a mask against the digits of a number, both from the right. -/
def Shows : List Char → List Char → Prop
  | [], _ => True
  | _ :: _, [] => False
  | p :: mask, d :: number => (p = wildcard ∨ p = d) ∧ Shows mask number

/-- A position of a mask. -/
def IsPosition (c : Char) : Prop := isMaskDigit c = true ∨ c = wildcard

section

variable [UnicodeTables] {a b : Option String}

/-- The mask is a masking of the account number. -/
structure IsMasking (mask : Option String) (number : List Char) : Prop where
  readable : normalizeMask mask ≠ ""
  shows : Shows (normalizeMask mask).toList.reverse number.reverse

/-- There is an account number, in digits, of which both are maskings. -/
def SameNumber (a b : Option String) : Prop :=
  ∃ number : List Char, (∀ d ∈ number, isMaskDigit d = true) ∧
    IsMasking a number ∧ IsMasking b number

/-- All that the mask shows is at its end. -/
def ShownAtEnd (mask : Option String) : Prop :=
  ∃ hidden shown, (normalizeMask mask).toList = hidden ++ shown ∧
    (∀ c ∈ hidden, c = wildcard) ∧ ∀ c ∈ shown, isMaskDigit c = true

/-! ### The positions of a mask -/

theorem isPosition_of_normalizeChars : ∀ {s r : List Char}, normalizeChars s = some r →
    ∀ c ∈ r, IsPosition c
  | [], r, h => by
    obtain rfl := Option.some.inj h
    exact fun c hc => absurd hc List.not_mem_nil
  | ch :: rest, r, h => by
    unfold normalizeChars at h
    split_ifs at h with hdigit hwild hsep
    · obtain ⟨r, hr, rfl⟩ := Option.map_eq_some_iff.mp h
      exact List.forall_mem_cons.mpr ⟨.inl hdigit, isPosition_of_normalizeChars hr⟩
    · obtain ⟨r, hr, rfl⟩ := Option.map_eq_some_iff.mp h
      exact List.forall_mem_cons.mpr ⟨.inr rfl, isPosition_of_normalizeChars hr⟩
    · exact isPosition_of_normalizeChars h

/-- Normalizing a mask keeps the digits and their order. -/
theorem filter_of_normalizeChars : ∀ {s r : List Char}, normalizeChars s = some r →
    s.filter isMaskDigit = r.filter isMaskDigit
  | [], r, h => by
    obtain rfl := Option.some.inj h
    rfl
  | ch :: rest, r, h => by
    have hwildcard : isMaskDigit wildcard = false := by decide
    unfold normalizeChars at h
    split_ifs at h with hdigit hwild hsep
    · obtain ⟨r, hr, rfl⟩ := Option.map_eq_some_iff.mp h
      rw [List.filter_cons_of_pos hdigit, List.filter_cons_of_pos hdigit,
        filter_of_normalizeChars hr]
    · obtain ⟨r, hr, rfl⟩ := Option.map_eq_some_iff.mp h
      rw [List.filter_cons_of_neg hdigit, List.filter_cons_of_neg (by simp [hwildcard]),
        filter_of_normalizeChars hr]
    · rw [List.filter_cons_of_neg hdigit, filter_of_normalizeChars h]

/-- A mask that can be read is what the loop makes of its text. -/
theorem exists_normalizeChars (h : normalizeMask a ≠ "") :
    ∃ s, a = some s ∧ normalizeChars s.toList = some (normalizeMask a).toList := by
  cases a with
  | none => exact absurd rfl h
  | some s =>
    refine ⟨s, rfl, ?_⟩
    unfold normalizeMask at h ⊢
    dsimp only at h ⊢
    cases hr : normalizeChars s.toList with
    | none =>
      rw [hr] at h
      exact absurd rfl h
    | some r => rw [Option.getD_some, String.toList_ofList]

theorem isPosition_of_mem (h : normalizeMask a ≠ "") :
    ∀ c ∈ (normalizeMask a).toList.reverse, IsPosition c := by
  obtain ⟨s, -, hchars⟩ := exists_normalizeChars h
  exact fun c hc => isPosition_of_normalizeChars hchars c (List.mem_reverse.mp hc)

/-! ### A number masked as both -/

omit [UnicodeTables] in
theorem positionMatches_of_shows : ∀ {p s number : List Char}, Shows p number → Shows s number →
    ((p.zip s).all fun (p, s) => positionMatches p s) = true
  | [], _, _, _, _ => rfl
  | _ :: _, [], _, _, _ => rfl
  | p :: mask, s :: stored, [], h, _ => absurd h (by simp [Shows])
  | p :: mask, s :: stored, d :: number, h, h' => by
    obtain ⟨hp, hmask⟩ := h
    obtain ⟨hs, hstored⟩ := h'
    rw [List.zip_cons_cons, List.all_cons, positionMatches_of_shows hmask hstored, Bool.and_true]
    unfold positionMatches
    rcases hp with rfl | rfl
    · simp
    · rcases hs with rfl | rfl
      · simp
      · simp

/-- A digit that a position can stand for. -/
def digitAt (c : Char) : Char := if c = wildcard then '0' else c

omit [UnicodeTables] in
theorem isMaskDigit_digitAt {c : Char} (h : IsPosition c) : isMaskDigit (digitAt c) = true := by
  unfold digitAt
  split_ifs with hwild
  · decide
  · exact h.resolve_right hwild

omit [UnicodeTables] in
theorem shows_digitAt : ∀ mask : List Char, Shows mask (mask.map digitAt)
  | [] => trivial
  | p :: mask => by
    refine ⟨?_, shows_digitAt mask⟩
    unfold digitAt
    split_ifs with hwild
    · exact .inl hwild
    · exact .inr rfl

omit [UnicodeTables] in
theorem exists_number : ∀ {p s : List Char}, (∀ c ∈ p, IsPosition c) → (∀ c ∈ s, IsPosition c) →
    ((p.zip s).all fun (p, s) => positionMatches p s) = true →
      ∃ number : List Char, (∀ d ∈ number, isMaskDigit d = true) ∧ Shows p number ∧ Shows s number
  | [], s, _, hs, _ => by
    refine ⟨s.map digitAt, ?_, trivial, shows_digitAt s⟩
    rw [List.forall_mem_map]
    exact fun c hc => isMaskDigit_digitAt (hs c hc)
  | p :: mask, [], hp, _, _ => by
    refine ⟨(p :: mask).map digitAt, ?_, shows_digitAt (p :: mask), trivial⟩
    rw [List.forall_mem_map]
    exact fun c hc => isMaskDigit_digitAt (hp c hc)
  | p :: mask, s :: stored, hp, hs, h => by
    rw [List.zip_cons_cons, List.all_cons, Bool.and_eq_true] at h
    obtain ⟨hp, hmask⟩ := List.forall_mem_cons.mp hp
    obtain ⟨hs, hstored⟩ := List.forall_mem_cons.mp hs
    obtain ⟨number, hdigits, hshows, hshows'⟩ := exists_number hmask hstored h.2
    have hmatch : p = wildcard ∨ s = wildcard ∨ p = s := by
      simpa [positionMatches, or_assoc] using h.1
    by_cases hwild : p = wildcard
    · refine ⟨digitAt s :: number, List.forall_mem_cons.mpr ⟨isMaskDigit_digitAt hs, hdigits⟩,
        ⟨.inl hwild, hshows⟩, ?_, hshows'⟩
      exact (shows_digitAt [s]).1
    · refine ⟨p :: number, List.forall_mem_cons.mpr ⟨hp.resolve_right hwild, hdigits⟩,
        ⟨.inr rfl, hshows⟩, ?_, hshows'⟩
      rcases hmatch with hp' | hs' | heq
      · exact absurd hp' hwild
      · exact .inl hs'
      · exact .inr heq.symm

/-- **Two masks match if one account number can be masked as both.** -/
theorem sameNumber_iff : SameNumber a b ↔ maskMatches (normalizeMask a) (normalizeMask b) = true := by
  unfold maskMatches
  rw [Bool.and_eq_true, Bool.and_eq_true, decide_eq_true_eq, decide_eq_true_eq]
  constructor
  · rintro ⟨number, -, ha, hb⟩
    exact ⟨⟨ha.readable, hb.readable⟩, positionMatches_of_shows ha.shows hb.shows⟩
  · rintro ⟨⟨ha, hb⟩, hmatch⟩
    obtain ⟨number, hdigits, hshows, hshows'⟩ :=
      exists_number (isPosition_of_mem ha) (isPosition_of_mem hb) hmatch
    refine ⟨number.reverse, fun d hd => hdigits d (List.mem_reverse.mp hd), ⟨ha, ?_⟩, hb, ?_⟩
    · rwa [List.reverse_reverse]
    · rwa [List.reverse_reverse]

/-! ### Digits at the end -/

omit [UnicodeTables] in
theorem ne_wildcard_of_digit {c : Char} (h : isMaskDigit c = true) : c ≠ wildcard := by
  rintro rfl
  revert h
  decide

omit [UnicodeTables] in
theorem isPrefix_of_match : ∀ {x y hidden hidden' : List Char},
    (∀ c ∈ x, isMaskDigit c = true) → (∀ c ∈ y, isMaskDigit c = true) →
      (((x ++ hidden).zip (y ++ hidden')).all fun (p, s) => positionMatches p s) = true →
        x <+: y ∨ y <+: x
  | [], y, _, _, _, _, _ => .inl (List.nil_prefix)
  | p :: x, [], _, _, _, _, _ => .inr (List.nil_prefix)
  | p :: x, s :: y, hidden, hidden', hx, hy, h => by
    rw [List.cons_append, List.cons_append, List.zip_cons_cons, List.all_cons,
      Bool.and_eq_true] at h
    obtain ⟨hp, hrest⟩ := List.forall_mem_cons.mp hx
    obtain ⟨hs, hrest'⟩ := List.forall_mem_cons.mp hy
    have heq : p = s := by
      simpa [positionMatches, ne_wildcard_of_digit hp, ne_wildcard_of_digit hs] using h.1
    obtain rfl := heq
    rcases isPrefix_of_match hrest hrest' h.2 with hle | hle
    · exact .inl (List.cons_prefix_cons.mpr ⟨rfl, hle⟩)
    · exact .inr (List.cons_prefix_cons.mpr ⟨rfl, hle⟩)

omit [UnicodeTables] in
theorem filter_shownAtEnd {hidden shown : List Char} (hhidden : ∀ c ∈ hidden, c = wildcard)
    (hshown : ∀ c ∈ shown, isMaskDigit c = true) :
    (hidden ++ shown).filter isMaskDigit = shown := by
  have hnone : hidden.filter isMaskDigit = [] := by
    refine List.filter_eq_nil_iff.mpr fun c hc => ?_
    rw [hhidden c hc]
    decide
  rw [List.filter_append, hnone, List.nil_append, List.filter_eq_self.mpr hshown]

theorem maskDigits_of_readable (h : normalizeMask a ≠ "") :
    (maskDigits a).toList = (normalizeMask a).toList.filter isMaskDigit := by
  obtain ⟨s, rfl, hchars⟩ := exists_normalizeChars h
  rw [maskDigits, String.toList_ofList, ← filter_of_normalizeChars hchars]
  rfl

/-- **The digits of one mask end those of the other** if both show digits at the end only. -/
theorem endsWith_of_shownAtEnd (ha : ShownAtEnd a) (hb : ShownAtEnd b)
    (h : maskMatches (normalizeMask a) (normalizeMask b) = true) :
    endsWith (maskDigits a) (maskDigits b) = true ∨
      endsWith (maskDigits b) (maskDigits a) = true := by
  unfold maskMatches at h
  rw [Bool.and_eq_true, Bool.and_eq_true, decide_eq_true_eq, decide_eq_true_eq] at h
  obtain ⟨⟨hreada, hreadb⟩, hmatch⟩ := h
  obtain ⟨hidden, shown, hnorm, hhidden, hshown⟩ := ha
  obtain ⟨hidden', shown', hnorm', hhidden', hshown'⟩ := hb
  rw [hnorm, hnorm', List.reverse_append, List.reverse_append] at hmatch
  have hdigits : (maskDigits a).toList = shown := by
    rw [maskDigits_of_readable hreada, hnorm, filter_shownAtEnd hhidden hshown]
  have hdigits' : (maskDigits b).toList = shown' := by
    rw [maskDigits_of_readable hreadb, hnorm', filter_shownAtEnd hhidden' hshown']
  unfold endsWith
  rw [hdigits, hdigits', List.isSuffixOf_iff_suffix, List.isSuffixOf_iff_suffix]
  rcases isPrefix_of_match (fun c hc => hshown c (List.mem_reverse.mp hc))
    (fun c hc => hshown' c (List.mem_reverse.mp hc)) hmatch with hle | hle
  · exact .inr (List.reverse_prefix.mp hle)
  · exact .inl (List.reverse_prefix.mp hle)

end

end FinancialDashboard.Transactions
