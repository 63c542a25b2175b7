import Mathlib.Data.List.Infix

/-!
# Strings as Python sees them

The string operations the dashboard leans on, on Lean strings: `lower`, `upper`,
`strip`, `in`, `startswith`, `endswith`, `isalnum` per character.  What Python
reads out of the Unicode database is a parameter, `UnicodeTables`, of which only
the ASCII part is pinned down; `asciiTables` is the instance that stops there.

Case mapping goes character by character, but for the capital sigma, which at the
end of a word becomes the final one.  So a substring need not stay one in lower
case: `ΑΣ` becomes `ας`, and `ΑΣΑ` becomes `ασα`.

* `contains_append_left`, `contains_append_right`: a substring of a part is a
  substring of the whole.
* `contains_strip`: a substring stays one.
* `infix_lower`: so it does in lower case, where it has no capital sigma.
* `infix_of_infix_sigmas`: where a text has no small sigma it is as it was.
* `lower_of_ascii`: ASCII text in lower case.
-/

namespace PyText

/-- What Python reads from the Unicode database, and the quoting of `!r`. -/
class UnicodeTables where
  lower : Char → List Char
  upper : Char → List Char
  isAlnum : Char → Bool
  isSpace : Char → Bool
  isCased : Char → Bool
  isCaseIgnorable : Char → Bool
  repr : String → String
  lower_ascii : ∀ c : Char, c.val < 128 → lower c = [c.toLower]
  lower_sigma : ∀ c ∈ ['σ', 'ς'], lower c = [c]
  isSpace_letter : ∀ c : Char, c.isAlpha = true → isSpace c = false

theorem forall_sigma {p : Char → Prop} (hmedial : p 'σ') (hfinal : p 'ς') :
    ∀ c ∈ ['σ', 'ς'], p c := by
  intro c hc
  rcases List.mem_cons.mp hc with rfl | hc
  · exact hmedial
  · rw [List.mem_singleton.mp hc]
    exact hfinal

/-- The tables of plain ASCII text without quotes or backslashes. -/
@[reducible] def asciiTables : UnicodeTables where
  lower c := [c.toLower]
  upper c := [c.toUpper]
  isAlnum := Char.isAlphanum
  isSpace := Char.isWhitespace
  isCased := Char.isAlpha
  isCaseIgnorable c := c ∈ ['\'', '.', ':', '^', '\x60']
  repr s := "'" ++ s ++ "'"
  lower_ascii _ _ := rfl
  lower_sigma := forall_sigma rfl rfl
  isSpace_letter c h := by
    by_contra hspace
    rw [Bool.not_eq_false, Char.isWhitespace] at hspace
    simp only [Bool.or_eq_true, decide_eq_true_eq] at hspace
    rcases hspace with ((rfl | rfl) | rfl) | rfl <;> exact absurd h (by decide)

/-- `needle in hay`. -/
def contains (needle hay : String) : Bool := decide (needle.toList <:+: hay.toList)

/-- `s.startswith(prefix)`. -/
def startsWith (s start : String) : Bool := start.toList.isPrefixOf s.toList

/-- `s.endswith(suffix)`. -/
def endsWith (s ending : String) : Bool := ending.toList.isSuffixOf s.toList

variable [UnicodeTables]

/-- The next character that counts for the case of a word is a letter. -/
def nextCased (cs : List Char) : Bool :=
  (cs.find? (!UnicodeTables.isCaseIgnorable ·)).any UnicodeTables.isCased

/-- What a capital sigma becomes between two texts, the one before it read backwards. -/
def lowerSigma (before after : List Char) : Char :=
  if nextCased before && !nextCased after then 'ς' else 'σ'

/-- The text with a small sigma, which lower-casing leaves alone, for each capital one. -/
def sigmas (before : List Char) : List Char → List Char
  | [] => []
  | c :: rest => (if c = 'Σ' then lowerSigma before rest else c) :: sigmas (c :: before) rest

/-- `s.lower()`. -/
def lower (s : String) : String :=
  String.ofList ((sigmas [] s.toList).flatMap UnicodeTables.lower)

/-- `s.upper()`. -/
def upper (s : String) : String := String.ofList (s.toList.flatMap UnicodeTables.upper)

/-- `s.strip()`. -/
def strip (s : String) : String :=
  String.ofList ((s.toList.dropWhile UnicodeTables.isSpace).reverse.dropWhile
    UnicodeTables.isSpace).reverse

/-- `"".join(ch for ch in s if ch.isalnum())`. -/
def keepAlnum (s : String) : String := String.ofList (s.toList.filter UnicodeTables.isAlnum)

/-- What `str.capitalize` and `str.title` read from the Unicode database beside the rest. -/
class TitleTables where
  title : Char → List Char

/-- The titles of plain ASCII text. -/
@[reducible] def asciiTitles : TitleTables := ⟨fun c => [c.toUpper]⟩

/-- The title of a text after another, which is read backwards: what follows a letter is in
lower case. -/
def titleAfter [TitleTables] (before : List Char) : List Char → List Char
  | [] => []
  | c :: rest =>
    (if !before.head?.any UnicodeTables.isCased then TitleTables.title c
      else if c = 'Σ' then [lowerSigma before rest]
      else UnicodeTables.lower c) ++ titleAfter (c :: before) rest

/-- `s.title()`. -/
def title [TitleTables] (s : String) : String := String.ofList (titleAfter [] s.toList)

/-! ### Substrings -/

omit [UnicodeTables] in
theorem contains_iff {needle hay : String} :
    contains needle hay = true ↔ needle.toList <:+: hay.toList := by simp [contains]

omit [UnicodeTables] in
theorem contains_append_left {needle a : String} (b : String) (h : contains needle a = true) :
    contains needle (a ++ b) = true := by
  rw [contains_iff] at h ⊢
  rw [String.toList_append]
  exact h.trans (List.prefix_append _ _).isInfix

omit [UnicodeTables] in
theorem contains_append_right {needle b : String} (a : String) (h : contains needle b = true) :
    contains needle (a ++ b) = true := by
  rw [contains_iff] at h ⊢
  rw [String.toList_append]
  exact h.trans (List.suffix_append _ _).isInfix

omit [UnicodeTables] in
theorem infix_dropWhile {α : Type} (p : α → Bool) {l m : List α} (h : l <:+: m) :
    l.dropWhile p <:+: m.dropWhile p := by
  obtain ⟨before, after, rfl⟩ := h
  rw [List.append_assoc, List.dropWhile_append]
  split_ifs with hbefore
  · rw [List.dropWhile_append]
    split_ifs with hl
    · rw [List.isEmpty_iff.mp hl]
      exact List.nil_infix
    · exact (List.prefix_append _ _).isInfix
  · exact (List.dropWhile_suffix p).isInfix.trans
      ⟨before.dropWhile p, after, List.append_assoc _ _ _⟩

/-- **A substring stays one when both are stripped.** -/
theorem contains_strip {needle hay : String} (h : contains needle hay = true) :
    contains (strip needle) (strip hay) = true := by
  rw [contains_iff] at h ⊢
  unfold strip
  rw [String.toList_ofList, String.toList_ofList, List.reverse_infix]
  exact infix_dropWhile _ (List.reverse_infix.mpr (infix_dropWhile _ h))

/-! ### Sigmas -/

theorem lowerSigma_mem (before after : List Char) : lowerSigma before after ∈ ['σ', 'ς'] := by
  unfold lowerSigma
  split_ifs
  · exact List.mem_cons_of_mem _ List.mem_cons_self
  · exact List.mem_cons_self

theorem mem_sigmas {before l : List Char} {d : Char} (h : d ∈ sigmas before l) :
    d ∈ ['σ', 'ς'] ∨ d ∈ l ∧ d ≠ 'Σ' := by
  induction l generalizing before with
  | nil => cases h
  | cons c rest ih =>
    unfold sigmas at h
    rcases List.mem_cons.mp h with rfl | h
    · split_ifs with hc
      · exact .inl (lowerSigma_mem before rest)
      · exact .inr ⟨List.mem_cons_self, hc⟩
    · rcases ih h with hsigma | ⟨hmem, hne⟩
      · exact .inl hsigma
      · exact .inr ⟨List.mem_cons_of_mem c hmem, hne⟩

theorem sigmas_of_notMem {before l : List Char} (h : 'Σ' ∉ l) : sigmas before l = l := by
  induction l generalizing before with
  | nil => rfl
  | cons c rest ih =>
    unfold sigmas
    rw [if_neg (List.ne_of_not_mem_cons h).symm, ih (List.not_mem_of_not_mem_cons h)]

/-- The end of a text depends on what is before it, and not the other way round. -/
theorem sigmas_append (before a b : List Char) :
    ∃ front, front.length = a.length ∧
      sigmas before (a ++ b) = front ++ sigmas (a.reverse ++ before) b := by
  induction a generalizing before with
  | nil => exact ⟨[], rfl, rfl⟩
  | cons c rest ih =>
    obtain ⟨front, hlength, hfront⟩ := ih (c :: before)
    refine ⟨(if c = 'Σ' then lowerSigma before (rest ++ b) else c) :: front, ?_, ?_⟩
    · rw [List.length_cons, List.length_cons, hlength]
    · rw [List.cons_append, sigmas, hfront, List.reverse_cons, List.append_assoc]
      rfl

/-- A part without a capital sigma stays as it is. -/
theorem infix_sigmas {before l m : List Char} (hl : 'Σ' ∉ l) (h : l <:+: m) :
    l <:+: sigmas before m := by
  obtain ⟨a, b, rfl⟩ := h
  rw [List.append_assoc]
  obtain ⟨front, -, hfront⟩ := sigmas_append before a (l ++ b)
  have hkept : ∀ before, ∃ rest, sigmas before (l ++ b) = l ++ rest := by
    clear hfront
    induction l with
    | nil => exact fun before => ⟨sigmas before b, rfl⟩
    | cons c l ih =>
      intro before
      obtain ⟨rest, hrest⟩ := ih (List.not_mem_of_not_mem_cons hl) (c :: before)
      refine ⟨rest, ?_⟩
      rw [List.cons_append, sigmas, if_neg (List.ne_of_not_mem_cons hl).symm, hrest]
      rfl
  obtain ⟨rest, hrest⟩ := hkept (a.reverse ++ before)
  rw [hfront, hrest]
  exact ⟨front, rest, List.append_assoc _ _ _⟩

theorem prefix_of_prefix_sigmas {before w l : List Char} (hw : ∀ c ∈ w, c ∉ ['σ', 'ς'])
    (h : w <+: sigmas before l) : w <+: l := by
  induction l generalizing before w with
  | nil => exact h
  | cons c rest ih =>
    cases w with
    | nil => exact List.nil_prefix
    | cons d w =>
      obtain ⟨hd, hw⟩ := List.forall_mem_cons.mp hw
      unfold sigmas at h
      obtain ⟨hfirst, hrest⟩ := List.cons_prefix_cons.mp h
      have hsame : d = c := by
        split_ifs at hfirst with hc
        · exact absurd (hfirst ▸ lowerSigma_mem before rest) hd
        · exact hfirst
      exact List.cons_prefix_cons.mpr ⟨hsame, ih hw hrest⟩

/-- **A part without a small sigma is as it was.** -/
theorem infix_of_infix_sigmas {before w l : List Char} (hw : ∀ c ∈ w, c ∉ ['σ', 'ς'])
    (h : w <:+: sigmas before l) : w <:+: l := by
  induction l generalizing before with
  | nil => exact h
  | cons c rest ih =>
    rcases List.infix_cons_iff.mp h with hprefix | hinfix
    · have hplain : w <+: c :: rest := prefix_of_prefix_sigmas hw hprefix
      exact hplain.isInfix
    · exact (ih hinfix).trans (List.suffix_cons c rest).isInfix

/-! ### Lower case -/

/-- **A substring without a capital sigma stays one in lower case.** -/
theorem infix_lower {l : List Char} {s : String} (hl : 'Σ' ∉ l) (h : l <:+: s.toList) :
    l.flatMap UnicodeTables.lower <:+: (lower s).toList := by
  have hkept : l <:+: sigmas [] s.toList := infix_sigmas hl h
  obtain ⟨front, rest, hsplit⟩ := hkept
  unfold lower
  rw [String.toList_ofList, ← hsplit, List.flatMap_append, List.flatMap_append]
  exact ⟨_, _, rfl⟩

theorem lower_of_notMem {s : String} (h : 'Σ' ∉ s.toList) :
    lower s = String.ofList (s.toList.flatMap UnicodeTables.lower) := by
  rw [lower, sigmas_of_notMem h]

omit [UnicodeTables] in
theorem sigma_notMem_of_ascii {l : List Char} (h : ∀ c ∈ l, c.val < 128) : 'Σ' ∉ l := by
  intro hmem
  exact absurd (h _ hmem) (by decide)

theorem flatMap_lower_of_ascii : ∀ l : List Char, (∀ c ∈ l, c.val < 128) →
    l.flatMap UnicodeTables.lower = l.map Char.toLower := by
  intro l h
  induction l with
  | nil => rfl
  | cons c l ih =>
    rw [List.flatMap_cons, UnicodeTables.lower_ascii c (h c (by simp)),
      ih fun d hd => h d (List.mem_cons_of_mem c hd)]
    rfl

/-- A text without a small sigma in lower case has no capital one. -/
theorem sigma_notMem_of_lower {s : String} (h : ∀ d ∈ ['σ', 'ς'], d ∉ (lower s).toList) :
    'Σ' ∉ s.toList := by
  intro hmem
  obtain ⟨a, b, hsplit⟩ := List.append_of_mem hmem
  obtain ⟨front, -, hfront⟩ := sigmas_append [] a ('Σ' :: b)
  rw [← hsplit, sigmas, if_pos rfl] at hfront
  have hsigma := lowerSigma_mem (a.reverse ++ []) b
  refine h _ hsigma ?_
  rw [lower, String.toList_ofList, hfront]
  refine List.mem_flatMap.mpr ⟨_, List.mem_append_right front List.mem_cons_self, ?_⟩
  rw [UnicodeTables.lower_sigma _ hsigma]
  exact List.mem_singleton_self _

/-- **On ASCII text every table lower-cases alike.** -/
theorem lower_of_ascii {s : String} (h : ∀ c ∈ s.toList, c.val < 128) :
    lower s = String.ofList (s.toList.map Char.toLower) := by
  rw [lower_of_notMem (sigma_notMem_of_ascii h), flatMap_lower_of_ascii _ h]

/-- What is read in a fixed ASCII part is read in the whole. -/
theorem contains_lower_of_ascii {needle part s : String} (hpart : ∀ c ∈ part.toList, c.val < 128)
    (hs : contains part s = true)
    (h : contains needle (String.ofList (part.toList.map Char.toLower)) = true) :
    contains needle (lower s) = true := by
  rw [contains_iff, String.toList_ofList] at h
  rw [contains_iff] at hs ⊢
  have hinfix := infix_lower (sigma_notMem_of_ascii hpart) hs
  rw [flatMap_lower_of_ascii _ hpart] at hinfix
  exact h.trans hinfix

end PyText
