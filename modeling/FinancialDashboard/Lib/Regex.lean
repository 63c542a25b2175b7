import Mathlib.Data.List.Infix
import Mathlib.Data.List.Forall2

/-!
# Regular expressions that backtrack

A pattern tries its ways to match in order, the greedy ones first: `ends` lists where they
end.  A substitution goes from the left to the right, takes the first way at each place, and
goes on behind it.

* `exists_taken_of_mem_ends`: a match takes at least `minLength` characters.
* `sub_eq_or_length_lt`: a substitution by something shorter changes nothing, or shortens.
* `infix_of_infix_sub`: what stands in the result without the ends of the replacement stood in
  the text, or stands in the replacement.
* `infix_mid_of_infix_sub`: and if the pattern matches it, it stands in the replacement.
-/

/-- Patterns. -/
inductive Regex (α : Type*)
  | empty
  /-- One character. -/
  | one (p : α → Bool)
  | seq (r r' : Regex α)
  | alt (r r' : Regex α)
  /-- Greedy: as often as it goes. -/
  | rep (least : ℕ) (most : Option ℕ) (r : Regex α)
  /-- `(?<!p)` -/
  | notBehind (p : α → Bool)
  /-- `(?!p)` -/
  | notAhead (p : α → Bool)

namespace Regex

variable {α : Type*}

/-! ### Shapes -/

/-- One after the other. -/
def inOrder (rs : List (Regex α)) : Regex α := rs.foldr seq empty

/-- `r?` -/
def opt (r : Regex α) : Regex α := rep 0 (some 1) r

/-- `r*` -/
def star (r : Regex α) : Regex α := rep 0 none r

/-- `r+` -/
def plus (r : Regex α) : Regex α := rep 1 none r

/-- A text, each of its characters by what matches it. -/
def literal (same : α → α → Bool) : List α → Regex α
  | [] => empty
  | a :: l => seq (one (same a)) (literal same l)

/-- The fewest characters that a match takes. -/
def minLength : Regex α → ℕ
  | empty | notBehind _ | notAhead _ => 0
  | one _ => 1
  | seq r r' => minLength r + minLength r'
  | alt r r' => min (minLength r) (minLength r')
  | rep least _ r => least * minLength r

/-! ### Matching -/

/-- A place in a text: the character before it, and what follows. -/
structure Cursor (α : Type*) where
  before : Option α
  rest : List α

/-- Up to `most` iterations, each of which takes a character; after `least` of them they may
end. -/
def repeatEnds (body : Cursor α → List (Cursor α)) : ℕ → ℕ → Cursor α → List (Cursor α)
  | 0, least, c => if least = 0 then [c] else []
  | most + 1, least, c =>
    ((body c).filter fun e => e.rest.length < c.rest.length).flatMap
        (repeatEnds body most (least - 1)) ++
      if least = 0 then [c] else []

/-- Where the ways to match end, in the order in which they are tried. -/
def ends : Regex α → Cursor α → List (Cursor α)
  | empty, c => [c]
  | one p, c =>
    match c.rest with
    | a :: rest => if p a then [⟨some a, rest⟩] else []
    | [] => []
  | seq r r', c => (ends r c).flatMap (ends r')
  | alt r r', c => ends r c ++ ends r' c
  | rep least most r, c => repeatEnds (ends r) (most.getD c.rest.length) least c
  | notBehind p, c => if c.before.any p then [] else [c]
  | notAhead p, c => if c.rest.head?.any p then [] else [c]

/-- How many characters a match takes; 0 for none. -/
def matchLength (r : Regex α) (c : Cursor α) : ℕ :=
  match (ends r c).head? with
  | none => 0
  | some e => c.rest.length - e.rest.length

/-- The substitution from a place on, `skip` characters of which are of the last match. -/
def subFrom (r : Regex α) (replacement : List α) : Option α → ℕ → List α → List α
  | _, _, [] => []
  | _, skip + 1, a :: l => subFrom r replacement (some a) skip l
  | before, 0, a :: l =>
    match matchLength r ⟨before, a :: l⟩ with
    | 0 => a :: subFrom r replacement (some a) 0 l
    | n + 1 => replacement ++ subFrom r replacement (some a) n l

/-- `re.sub`, for a pattern that does not match the empty text. -/
def sub (r : Regex α) (replacement l : List α) : List α := subFrom r replacement none 0 l

variable {r : Regex α} {c e : Cursor α} {replacement mid w l : List α} {first last : α}
  {before : Option α} {skip : ℕ}

theorem exists_taken_of_mem_repeatEnds {body : Cursor α → List (Cursor α)} {n : ℕ}
    (hbody : ∀ c, ∀ e ∈ body c, ∃ taken, c.rest = taken ++ e.rest ∧ n ≤ taken.length)
    {most least : ℕ} (h : e ∈ repeatEnds body most least c) :
    ∃ taken, c.rest = taken ++ e.rest ∧ least * n ≤ taken.length := by
  have hstop : ∀ {c : Cursor α} {least : ℕ}, e ∈ (if least = 0 then [c] else []) →
      ∃ taken, c.rest = taken ++ e.rest ∧ least * n ≤ taken.length := by
    intro c least hmem
    split_ifs at hmem with hleast
    · obtain rfl := List.mem_singleton.mp hmem
      exact ⟨[], rfl, by simp [hleast]⟩
    · cases hmem
  induction most generalizing least c with
  | zero => exact hstop h
  | succ most ih =>
    rcases List.mem_append.mp h with h | h
    · obtain ⟨d, hd, he⟩ := List.mem_flatMap.mp h
      obtain ⟨taken, hrest, hn⟩ := hbody c d (List.mem_of_mem_filter hd)
      obtain ⟨taken', hrest', hn'⟩ := ih he
      refine ⟨taken ++ taken', by rw [hrest, hrest', List.append_assoc], ?_⟩
      rw [List.length_append]
      cases least with
      | zero => simp
      | succ least =>
        rw [Nat.succ_mul]
        rw [Nat.add_sub_cancel] at hn'
        omega
    · exact hstop h

/-- **A match takes at least the fewest characters.** -/
theorem exists_taken_of_mem_ends (h : e ∈ ends r c) :
    ∃ taken, c.rest = taken ++ e.rest ∧ minLength r ≤ taken.length := by
  have hhere : ∀ {c e : Cursor α} {b : Bool}, e ∈ (if b = true then [] else [c]) →
      ∃ taken, c.rest = taken ++ e.rest ∧ 0 ≤ taken.length := by
    intro c e b hmem
    split_ifs at hmem
    · cases hmem
    · obtain rfl := List.mem_singleton.mp hmem
      exact ⟨[], rfl, Nat.zero_le _⟩
  induction r generalizing c e with
  | empty =>
    obtain rfl := List.mem_singleton.mp h
    exact ⟨[], rfl, Nat.zero_le _⟩
  | one p =>
    unfold ends at h
    split at h
    next a rest hrest =>
      split_ifs at h
      · obtain rfl := List.mem_singleton.mp h
        exact ⟨[a], hrest, le_refl _⟩
      · cases h
    next => cases h
  | seq r r' ih ih' =>
    obtain ⟨d, hd, he⟩ := List.mem_flatMap.mp h
    obtain ⟨taken, hrest, hn⟩ := ih hd
    obtain ⟨taken', hrest', hn'⟩ := ih' he
    refine ⟨taken ++ taken', by rw [hrest, hrest', List.append_assoc], ?_⟩
    rw [List.length_append]
    exact Nat.add_le_add hn hn'
  | alt r r' ih ih' =>
    rcases List.mem_append.mp h with h | h
    · obtain ⟨taken, hrest, hn⟩ := ih h
      exact ⟨taken, hrest, (Nat.min_le_left _ _).trans hn⟩
    · obtain ⟨taken, hrest, hn⟩ := ih' h
      exact ⟨taken, hrest, (Nat.min_le_right _ _).trans hn⟩
  | rep least most r ih =>
    exact exists_taken_of_mem_repeatEnds (fun _ _ he => ih he) h
  | notBehind p => exact hhere h
  | notAhead p => exact hhere h

theorem le_matchLength (h : matchLength r c ≠ 0) :
    minLength r ≤ matchLength r c ∧ matchLength r c ≤ c.rest.length := by
  unfold matchLength at h ⊢
  split at h
  next => exact absurd rfl h
  next e he =>
    obtain ⟨taken, hrest, hn⟩ := exists_taken_of_mem_ends (List.mem_of_mem_head? he)
    have hlength : c.rest.length - e.rest.length = taken.length := by
      rw [hrest, List.length_append, Nat.add_sub_cancel]
    exact ⟨hlength ▸ hn, Nat.sub_le _ _⟩

/-! ### What a substitution does to the length -/

theorem subFrom_eq_or_length_lt (hless : replacement.length < minLength r) (before : Option α)
    (skip : ℕ) (l : List α) : subFrom r replacement before skip l = l.drop skip ∨
      (subFrom r replacement before skip l).length < (l.drop skip).length := by
  induction l generalizing before skip with
  | nil => exact .inl (by rw [List.drop_nil]; rfl)
  | cons a l ih =>
    cases skip with
    | succ skip => exact ih (some a) skip
    | zero =>
      unfold subFrom
      rw [List.drop_zero]
      split
      next =>
        rcases ih (some a) 0 with heq | hlt
        · exact .inl (congrArg _ heq)
        · exact .inr (Nat.succ_lt_succ hlt)
      next n hn =>
        obtain ⟨hmin, hmax⟩ := le_matchLength (r := r) (c := ⟨before, a :: l⟩) (by omega)
        have hmax : matchLength r ⟨before, a :: l⟩ ≤ (a :: l).length := hmax
        have htail : (subFrom r replacement (some a) n l).length ≤ (l.drop n).length := by
          rcases ih (some a) n with heq | hlt
          · exact heq ▸ le_refl _
          · exact hlt.le
        rw [List.length_drop] at htail
        rw [List.length_cons] at hmax
        right
        rw [List.length_append, List.length_cons]
        omega

/-- **A substitution by something shorter changes nothing, or shortens.** -/
theorem sub_eq_or_length_lt (hless : replacement.length < minLength r) (l : List α) :
    sub r replacement l = l ∨ (sub r replacement l).length < l.length :=
  subFrom_eq_or_length_lt hless none 0 l

/-! ### What a substitution leaves standing -/

theorem prefix_of_prefix_append_cons {l' : List α} (hlast : last ∉ w)
    (h : w <+: l ++ last :: l') : w <+: l := by
  induction l generalizing w with
  | nil =>
    cases w with
    | nil => exact List.nil_prefix
    | cons a w =>
      obtain ⟨rfl, -⟩ := List.cons_prefix_cons.mp h
      exact absurd List.mem_cons_self hlast
  | cons b l ih =>
    cases w with
    | nil => exact List.nil_prefix
    | cons a w =>
      obtain ⟨rfl, hrest⟩ := List.cons_prefix_cons.mp h
      exact List.cons_prefix_cons.mpr
        ⟨rfl, ih (fun hmem => hlast (List.mem_cons_of_mem _ hmem)) hrest⟩

/-- What does not have a character stands on one side of it. -/
theorem infix_of_infix_append_cons {l' : List α} (hlast : last ∉ w)
    (h : w <:+: l ++ last :: l') : w <:+: l ∨ w <:+: l' := by
  induction l with
  | nil =>
    rcases List.infix_cons_iff.mp h with hprefix | hinfix
    · exact .inl (prefix_of_prefix_append_cons (l := []) hlast hprefix).isInfix
    · exact .inr hinfix
  | cons b l ih =>
    rcases List.infix_cons_iff.mp h with hprefix | hinfix
    · exact .inl (prefix_of_prefix_append_cons (l := b :: l) hlast hprefix).isInfix
    · exact (ih hinfix).imp_left fun h => h.trans (List.suffix_cons b l).isInfix

/-- What begins a substituted text began the text. -/
theorem prefix_of_prefix_subFrom (hfirst : first ∉ w)
    (h : w <+: subFrom r (first :: replacement) before skip l) : w <+: l.drop skip := by
  induction l generalizing before skip w with
  | nil =>
    rw [List.drop_nil]
    exact h
  | cons a l ih =>
    cases skip with
    | succ skip => exact ih hfirst h
    | zero =>
      unfold subFrom at h
      rw [List.drop_zero]
      split at h
      next =>
        cases w with
        | nil => exact List.nil_prefix
        | cons b w =>
          obtain ⟨rfl, h⟩ := List.cons_prefix_cons.mp h
          have hrest := ih (fun hmem => hfirst (List.mem_cons_of_mem _ hmem)) h
          rw [List.drop_zero] at hrest
          exact List.cons_prefix_cons.mpr ⟨rfl, hrest⟩
      next =>
        -- a match here begins with the first character of the replacement
        cases w with
        | nil => exact List.nil_prefix
        | cons b w =>
          obtain ⟨rfl, -⟩ := List.cons_prefix_cons.mp h
          exact absurd List.mem_cons_self hfirst

/-- What stands in the replacement, or behind it. -/
theorem infix_of_infix_replacement {l' : List α} (hfirst : first ∉ w) (hlast : last ∉ w)
    (h : w <:+: first :: (mid ++ [last]) ++ l') : w <:+: mid ∨ w <:+: l' := by
  rw [List.cons_append, List.append_assoc, List.singleton_append] at h
  have hinner : w <:+: mid ++ last :: l' := by
    rcases infix_of_infix_append_cons (l := []) hfirst h with hnil | hinner
    · rw [List.infix_nil.mp hnil]
      exact List.nil_infix
    · exact hinner
  exact infix_of_infix_append_cons hlast hinner

/-- **What stands in the result and not in the replacement stood in the text.** -/
theorem infix_of_infix_subFrom (hfirst : first ∉ w) (hlast : last ∉ w)
    (h : w <:+: subFrom r (first :: (mid ++ [last])) before skip l) :
    w <:+: l.drop skip ∨ w <:+: mid := by
  induction l generalizing before skip with
  | nil =>
    rw [List.drop_nil]
    exact .inl h
  | cons a l ih =>
    cases skip with
    | succ skip => exact ih h
    | zero =>
      unfold subFrom at h
      rw [List.drop_zero]
      split at h
      next =>
        rcases List.infix_cons_iff.mp h with hprefix | hinfix
        · left
          cases w with
          | nil => exact List.nil_infix
          | cons b w =>
            obtain ⟨rfl, hrest⟩ := List.cons_prefix_cons.mp hprefix
            have hrest := prefix_of_prefix_subFrom
              (fun hmem => hfirst (List.mem_cons_of_mem _ hmem)) hrest
            exact (List.cons_prefix_cons.mpr ⟨rfl, hrest⟩).isInfix
        · rcases ih hinfix with htext | hmid
          · exact .inl (htext.trans (List.suffix_cons a l).isInfix)
          · exact .inr hmid
      next n _ =>
        rcases infix_of_infix_replacement hfirst hlast h with hmid | hinfix
        · exact .inr hmid
        · rcases ih hinfix with htext | hmid
          · exact .inl ((htext.trans (List.drop_suffix n l).isInfix).trans
              (List.suffix_cons a l).isInfix)
          · exact .inr hmid

theorem infix_of_infix_sub (hfirst : first ∉ w) (hlast : last ∉ w)
    (h : w <:+: sub r (first :: (mid ++ [last])) l) : w <:+: l ∨ w <:+: mid :=
  infix_of_infix_subFrom hfirst hlast h

/-- **What the pattern matches is left in the replacement only.** -/
theorem infix_mid_of_infix_subFrom (hfirst : first ∉ w) (hlast : last ∉ w)
    (hmatch : ∀ before l, w <+: l → matchLength r ⟨before, l⟩ ≠ 0)
    (h : w <:+: subFrom r (first :: (mid ++ [last])) before skip l) : w <:+: mid := by
  have hne : w ≠ [] := by
    rintro rfl
    obtain ⟨hmin, hmax⟩ := le_matchLength (hmatch none [] List.nil_prefix)
    exact hmatch none [] List.nil_prefix (Nat.le_zero.mp hmax)
  induction l generalizing before skip with
  | nil => exact absurd (List.infix_nil.mp h) hne
  | cons a l ih =>
    cases skip with
    | succ skip => exact ih h
    | zero =>
      unfold subFrom at h
      split at h
      next hnone =>
        rcases List.infix_cons_iff.mp h with hprefix | hinfix
        · -- it would have been matched here
          have hhere : w <+: a :: l := by
            obtain ⟨b, w', rfl⟩ := List.exists_cons_of_ne_nil hne
            obtain ⟨rfl, hrest⟩ := List.cons_prefix_cons.mp hprefix
            exact List.cons_prefix_cons.mpr ⟨rfl, prefix_of_prefix_subFrom
              (fun hmem => hfirst (List.mem_cons_of_mem _ hmem)) hrest⟩
          exact absurd hnone (hmatch before (a :: l) hhere)
        · exact ih hinfix
      next =>
        rcases infix_of_infix_replacement hfirst hlast h with hmid | hinfix
        · exact hmid
        · exact ih hinfix

theorem infix_mid_of_infix_sub (hfirst : first ∉ w) (hlast : last ∉ w)
    (hmatch : ∀ before l, w <+: l → matchLength r ⟨before, l⟩ ≠ 0)
    (h : w <:+: sub r (first :: (mid ++ [last])) l) : w <:+: mid :=
  infix_mid_of_infix_subFrom hfirst hlast hmatch h

/-! ### Literal texts -/

variable {same : α → α → Bool} {text : List α}

@[simp] theorem minLength_literal (same : α → α → Bool) (text : List α) :
    minLength (literal same text) = text.length := by
  induction text with
  | nil => rfl
  | cons a text ih =>
    show 1 + minLength (literal same text) = _
    rw [ih, List.length_cons, Nat.add_comm]

/-- A literal matches where its characters stand. -/
theorem ends_literal_ne_nil (hsame : List.Forall₂ (fun a b => same a b = true) text w)
    (h : w <+: c.rest) : ends (literal same text) c ≠ [] := by
  induction hsame generalizing c with
  | nil => exact List.cons_ne_nil _ _
  | @cons a b text w hab _ ih =>
    obtain ⟨before, rest⟩ := c
    obtain ⟨tail, rfl⟩ := h
    have hone : ends (one (same a)) ⟨before, b :: w ++ tail⟩ = [⟨some b, w ++ tail⟩] := by
      show (if same a b = true then _ else _) = _
      rw [if_pos hab]
      rfl
    show (ends (one (same a)) _).flatMap (ends (literal same text)) ≠ []
    rw [hone, List.flatMap_singleton]
    exact ih (List.prefix_append _ _)

theorem matchLength_literal_ne_zero (hne : text ≠ [])
    (hsame : List.Forall₂ (fun a b => same a b = true) text w) (h : w <+: l) :
    matchLength (literal same text) ⟨before, l⟩ ≠ 0 := by
  unfold matchLength
  split
  next hnone =>
    exact absurd (List.head?_eq_none_iff.mp hnone) (ends_literal_ne_nil hsame h)
  next e he =>
    obtain ⟨taken, hrest, hn⟩ := exists_taken_of_mem_ends (List.mem_of_mem_head? he)
    have hpos : 0 < taken.length :=
      (List.length_pos_of_ne_nil hne).trans_le (minLength_literal same text ▸ hn)
    rw [hrest, List.length_append, Nat.add_sub_cancel]
    exact hpos.ne'

end Regex
