import FinancialDashboard.Lib.Drain
import FinancialDashboard.Lib.Posting
import FinancialDashboard.Lib.Regex
import FinancialDashboard.Lib.StableCase
import FinancialDashboard.Lib.Words

/-!
# The redaction of numbers and names

`redact_pii` and `redact_names` of `services/categorization/normalize.py`.  A name token is
replaced wherever it stands; then the words of the name around it are absorbed until nothing
changes.

* `absorb_eq_or_length_lt`: a round of the absorption changes nothing, or shortens the text.
* `redactNames_spec`: so the loop stops, and no window of what is left is the token.
-/

namespace FinancialDashboard.Categorization

open PyText
open Drain (drain)
open Regex (inOrder opt star plus literal)

/-- What `re` reads from the Unicode database besides. -/
class PatternTables extends UnicodeTables where
  /-- `\\d` -/
  isDecimal : Char → Bool
  /-- Alike under `re.IGNORECASE`. -/
  sameLetter : Char → Char → Bool
  sameLetter_of_lower : ∀ c d : Char, c.val < 128 → c.toLower ∈ lower d → sameLetter c d = true
  lower_ne_nil : ∀ c, lower c ≠ []
  lower_of_mem : ∀ c d : Char, c.val < 128 → c ∈ lower d →
    ∃ more, lower d = c :: more ∧ ∀ e ∈ more, ¬ e.val < 128

/-- The tables of plain ASCII text. -/
@[reducible] def asciiPatterns : PatternTables where
  toUnicodeTables := asciiTables
  isDecimal := Char.isDigit
  sameLetter c d := c.toLower = d.toLower
  sameLetter_of_lower c d _ h := decide_eq_true (List.mem_singleton.mp h)
  lower_ne_nil _ := List.cons_ne_nil _ _
  lower_of_mem c d _ h := ⟨[], by rw [List.mem_singleton.mp h]; rfl, fun _ he => by cases he⟩

/-! ### Numbers -/

/-- `pattern.sub(replacement, s)` -/
def reSub (pattern : Regex Char) (replacement s : String) : String :=
  String.ofList (pattern.sub replacement.toList s.toList)

section

variable [PatternTables]

def decimal : Regex Char := .one PatternTables.isDecimal

def space : Regex Char := .one UnicodeTables.isSpace

/-- `_LONG_DIGITS` -/
def longDigits : Regex Char := .rep 7 none decimal

/-- `_PHONE` -/
def phone : Regex Char :=
  inOrder
    [.notBehind PatternTables.isDecimal,
      .rep 10 (some 13) (inOrder
        [opt (.one (· = '+')), decimal, opt (.one fun c => UnicodeTables.isSpace c || c = '-')]),
      .notAhead PatternTables.isDecimal]

/-- `redact_pii` -/
def redactPii (s : Option String) : String :=
  reSub longDigits "[redacted-num]" (reSub phone "[redacted-phone]" (s.getD ""))

/-! ### Names -/

/-- `_REDACTED_NAME` -/
def redactedName : String := "[redacted-name]"

/-- `_MARKER` -/
def marker : Regex Char := literal (· = ·) redactedName.toList

/-- `_NAME_WORD` -/
def nameWord : Regex Char :=
  .alt (.seq (.one Char.isUpper) (plus (.one Char.isAlpha))) (.rep 2 none (.one Char.isUpper))

/-- `_ABSORB_AFTER` -/
def absorbAfter : Regex Char :=
  .seq marker (plus (.seq (plus space) (.alt nameWord marker)))

/-- `_ABSORB_BEFORE` -/
def absorbBefore : Regex Char := .seq (plus (.seq nameWord (plus space))) marker

/-- `[^A-Za-z\\[\\]]` -/
def betweenMarkers : Regex Char := .one fun c => !c.isAlpha && c ≠ '[' && c ≠ ']'

/-- `_MARKER_RUN` -/
def markerRun : Regex Char :=
  .seq marker (plus (inOrder
    [star betweenMarkers, opt (.seq (plus (.one Char.isAlpha)) (star betweenMarkers)), marker]))

/-- One token of `redact_names`. -/
def redactToken (result tok : String) : String :=
  let tok := strip tok
  if tok.length < 3 then result
  else reSub (literal PatternTables.sameLetter tok.toList) redactedName result

/-- The body of the loop. -/
def absorb (result : String) : String :=
  reSub absorbBefore redactedName (reSub absorbAfter redactedName
    (reSub markerRun redactedName result))

/-- A round of the loop, and whether it has changed anything. -/
def absorbStep (result : String) : String × Nat :=
  (absorb result, if absorb result = result then 0 else 1)

/-- `redact_names`; `none` if the loop does not stop. -/
def redactNames (s : Option String) (tokens : List String) : Option String :=
  let text := s.getD ""
  if text = "" then some ""
  else
    let result := tokens.foldl redactToken text
    (drain absorbStep (result.length + 1) result).map (·.2)

/-! ### The loop stops -/

variable {pattern : Regex Char} {s text token : String} {w l : List Char}

omit [PatternTables] in
theorem reSub_eq_or_length_lt (pattern : Regex Char)
    (h : redactedName.length < pattern.minLength) (s : String) :
    reSub pattern redactedName s = s ∨ (reSub pattern redactedName s).length < s.length := by
  unfold reSub
  have hless : redactedName.toList.length < pattern.minLength := h
  rcases Regex.sub_eq_or_length_lt hless s.toList with heq | hlt
  · left
    rw [heq, String.ofList_toList]
  · right
    rw [String.length_ofList]
    exact hlt

/-- **A round changes nothing, or shortens the text.** -/
theorem absorb_eq_or_length_lt (s : String) :
    absorb s = s ∨ (absorb s).length < s.length := by
  have hmarker : marker.minLength = 15 := Regex.minLength_literal _ _
  have hlength : redactedName.length = 15 := by decide
  have hrun := reSub_eq_or_length_lt markerRun
    (by simp [markerRun, plus, Regex.star, opt, inOrder, Regex.minLength, hmarker, hlength]) s
  have hafter := reSub_eq_or_length_lt absorbAfter
    (by simp [absorbAfter, plus, space, nameWord, Regex.minLength, hmarker, hlength])
    (reSub markerRun redactedName s)
  have hbefore := reSub_eq_or_length_lt absorbBefore
    (by simp [absorbBefore, plus, space, nameWord, Regex.minLength, hmarker, hlength])
    (reSub absorbAfter redactedName (reSub markerRun redactedName s))
  unfold absorb
  rcases hrun with hrun | hrun
  · rw [hrun] at hafter hbefore ⊢
    rcases hafter with hafter | hafter
    · rw [hafter] at hbefore ⊢
      exact hbefore
    · right
      rcases hbefore with hbefore | hbefore
      · rwa [hbefore]
      · exact hbefore.trans hafter
  · right
    have hafter : (reSub absorbAfter redactedName (reSub markerRun redactedName s)).length <
        s.length := by
      rcases hafter with hafter | hafter
      · rwa [hafter]
      · exact hafter.trans hrun
    rcases hbefore with hbefore | hbefore
    · rwa [hbefore]
    · exact hbefore.trans hafter

theorem absorbStep_length_lt (s : String) (h : (absorbStep s).2 ≠ 0) :
    (absorbStep s).1.length < s.length := by
  unfold absorbStep at h ⊢
  dsimp only at h ⊢
  split_ifs at h with hsame
  · exact absurd rfl h
  · exact (absorb_eq_or_length_lt s).resolve_left hsame

/-! ### No window is the token -/

/-- The token stands in a text, in whatever case. -/
def Leaks (token text : String) : Prop := contains (lower token) (lower text) = true

/-- ASCII letters, and single blanks between them. -/
structure IsName (token : String) : Prop where
  tidy : Words.Tidy (· = ' ') ' ' token.toList
  letters : ∀ c ∈ token.toList, c.isAlpha = true ∨ c = ' '

/-- The characters of a window lower-case to those of the token, and more perhaps. -/
def LowersTo (token w : List Char) : Prop :=
  List.Forall₂ (fun c d => c.toLower ∈ UnicodeTables.lower d) token w

/-- No window of a text is the token. -/
def Free (token text : String) : Prop :=
  ∀ w, w <:+: text.toList → ¬ LowersTo token.toList w

omit [PatternTables] in
theorem IsName.val_lt (h : IsName token) : ∀ c ∈ token.toList, c.val < 128 := by
  intro c hc
  rcases h.letters c hc with hletter | rfl
  · exact val_lt_of_isAlpha hletter
  · decide

omit [PatternTables] in
theorem toLower_ne_bracket {c : Char} (h : c.isAlpha = true ∨ c = ' ') :
    c.toLower ≠ '[' ∧ c.toLower ≠ ']' := by
  have hlt : c.val < 128 := by
    rcases h with hletter | rfl
    · exact val_lt_of_isAlpha hletter
    · decide
  exact of_ascii (p := fun c => c.isAlpha = true ∨ c = ' ' → c.toLower ≠ '[' ∧ c.toLower ≠ ']')
    (by decide) hlt h

/-- A window of the token has no bracket. -/
theorem IsName.bracket_notMem (h : IsName token) (hw : LowersTo token.toList w) :
    '[' ∉ w ∧ ']' ∉ w := by
  have hall : ∀ d ∈ w, d ≠ '[' ∧ d ≠ ']' := by
    intro d hd
    obtain ⟨c, hc, hlower⟩ := Posting.exists_left hw hd
    obtain ⟨hopen, hclose⟩ := toLower_ne_bracket (h.letters c hc)
    constructor
    · rintro rfl
      rw [UnicodeTables.lower_ascii _ (by decide)] at hlower
      exact hopen (List.mem_singleton.mp hlower)
    · rintro rfl
      rw [UnicodeTables.lower_ascii _ (by decide)] at hlower
      exact hclose (List.mem_singleton.mp hlower)
  exact ⟨fun hmem => (hall _ hmem).1 rfl, fun hmem => (hall _ hmem).2 rfl⟩

/-- The text of a marker between its brackets. -/
def markerText : List Char := "redacted-name".toList

omit [PatternTables] in
theorem toList_redactedName : redactedName.toList = '[' :: (markerText ++ [']']) := by decide

/-- The marker does not hold the token. -/
theorem IsName.not_lowersTo_of_marker (h : IsName token)
    (hmarker : contains (lower token) redactedName = false) (hw : w <:+: markerText) :
    ¬ LowersTo token.toList w := by
  intro hlowers
  have hplain : ∀ d ∈ markerText, d.val < 128 ∧ d.toLower = d :=
    List.forall_iff_forall_mem.mp (by decide)
  have heq : token.toList.map Char.toLower = w := by
    have hpointwise : List.Forall₂ (fun c d => c = d) (token.toList.map Char.toLower) w := by
      refine List.forall₂_map_left_iff.mpr ?_
      have hmem : List.Forall₂ (fun d c => d ∈ w ∧ Char.toLower c ∈ UnicodeTables.lower d)
          w token.toList := (List.forall₂_and_left _ _).mpr ⟨fun _ hd => hd, hlowers.flip⟩
      refine hmem.flip.imp fun c d ⟨hd, hlower⟩ => ?_
      obtain ⟨hascii, hsame⟩ := hplain d (hw.subset hd)
      rw [UnicodeTables.lower_ascii d hascii, List.mem_singleton] at hlower
      exact hlower.trans hsame
    exact List.forall₂_eq_eq_eq ▸ hpointwise
  have hinfix : (lower token).toList <:+: redactedName.toList := by
    rw [lower_of_ascii h.val_lt, String.toList_ofList, heq, toList_redactedName]
    exact hw.trans ⟨['['], [']'], rfl⟩
  exact absurd (hmarker.symm.trans (contains_iff.mpr hinfix)) (by decide)

/-- A substitution by the marker puts no token in. -/
theorem Free.reSub (h : IsName token) (hmarker : contains (lower token) redactedName = false)
    (hfree : Free token text) (pattern : Regex Char) :
    Free token (reSub pattern redactedName text) := by
  intro w hw hlowers
  obtain ⟨hopen, hclose⟩ := h.bracket_notMem hlowers
  rw [Categorization.reSub, String.toList_ofList, toList_redactedName] at hw
  rcases Regex.infix_of_infix_sub hopen hclose hw with htext | hmid
  · exact hfree w htext hlowers
  · exact h.not_lowersTo_of_marker hmarker hmid hlowers

/-- **The substitution of a token leaves none.** -/
theorem free_reSub_literal (h : IsName token)
    (hmarker : contains (lower token) redactedName = false) (text : String) :
    Free token (reSub (literal PatternTables.sameLetter token.toList) redactedName text) := by
  intro w hw hlowers
  obtain ⟨hopen, hclose⟩ := h.bracket_notMem hlowers
  have hsame : List.Forall₂ (fun c d => PatternTables.sameLetter c d = true) token.toList w := by
    have hmem : List.Forall₂ (fun c d => c ∈ token.toList ∧ Char.toLower c ∈ UnicodeTables.lower d)
        token.toList w := (List.forall₂_and_left _ _).mpr ⟨fun _ hc => hc, hlowers⟩
    exact hmem.imp fun c d ⟨hc, hlower⟩ =>
      PatternTables.sameLetter_of_lower c d (h.val_lt c hc) hlower
  rw [reSub, String.toList_ofList, toList_redactedName] at hw
  exact h.not_lowersTo_of_marker hmarker (Regex.infix_mid_of_infix_sub hopen hclose
    (fun _ _ hprefix => Regex.matchLength_literal_ne_zero h.tidy.ne_nil hsame hprefix) hw) hlowers

omit [PatternTables] in
/-- The ends of a tidy text are no separators. -/
theorem tidy_getLast {p : Char → Bool} {sep : Char} (h : Words.Tidy p sep l) :
    ∀ c ∈ l.getLast?, p c = false := by
  induction h with
  | word hw => exact fun c hc => hw.2 c (List.mem_of_getLast? hc)
  | @cons w rest hw hrest ih =>
    intro c hc
    rw [List.getLast?_append_of_ne_nil _ (List.cons_ne_nil _ _),
      List.getLast?_cons_of_ne_nil hrest.ne_nil] at hc
    exact ih c hc

/-- A name has nothing to strip. -/
theorem IsName.strip_eq (h : IsName token) : strip token = token := by
  have hword : ∀ c ∈ token.toList, decide (c = ' ') = false → UnicodeTables.isSpace c = false :=
    fun c hc hne => UnicodeTables.isSpace_letter c
      ((h.letters c hc).resolve_right (of_decide_eq_false hne))
  have htrimmed : Trimmed token.toList :=
    ⟨fun c hc => hword c (List.mem_of_mem_head? hc) (h.tidy.head c hc),
      fun c hc => hword c (List.mem_of_getLast? hc) (tidy_getLast h.tidy c hc)⟩
  have hstrip := htrimmed.strip_eq
  rwa [String.ofList_toList] at hstrip

theorem redactToken_of_short {tok : String} (h : (strip tok).length < 3) (text : String) :
    redactToken text tok = text := by
  unfold redactToken
  exact if_pos h

/-- A token that is not too short is replaced. -/
theorem redactToken_of_long {tok : String} (h : ¬ (strip tok).length < 3) (text : String) :
    redactToken text tok =
      reSub (literal PatternTables.sameLetter (strip tok).toList) redactedName text := by
  unfold redactToken
  exact if_neg h

/-- **What is left of a text after the tokens are replaced has none.** -/
theorem free_foldl_redactToken (h : IsName token)
    (hmarker : contains (lower token) redactedName = false) (hlength : 3 ≤ token.length)
    {tokens : List String} (hmem : token ∈ tokens) (text : String) :
    Free token (tokens.foldl redactToken text) := by
  have hkeep : ∀ (tokens : List String) (text : String), Free token text →
      Free token (tokens.foldl redactToken text) := by
    intro tokens
    induction tokens with
    | nil => exact fun _ hfree => hfree
    | cons tok tokens ih =>
      intro text hfree
      have hone : Free token (redactToken text tok) := by
        by_cases hshort : (strip tok).length < 3
        · rwa [redactToken_of_short hshort]
        · rw [redactToken_of_long hshort]
          exact hfree.reSub h hmarker _
      rw [List.foldl_cons]
      exact ih (redactToken text tok) hone
  obtain ⟨before, after, rfl⟩ := List.append_of_mem hmem
  have hlong : ¬ (strip token).length < 3 := by
    rw [h.strip_eq]
    exact Nat.not_lt.mpr hlength
  have hfree : Free token (redactToken (before.foldl redactToken text) token) := by
    rw [redactToken_of_long hlong, h.strip_eq]
    exact free_reSub_literal h hmarker _
  rw [List.foldl_append, List.foldl_cons]
  exact hkeep after _ hfree

theorem Free.absorb (h : IsName token) (hmarker : contains (lower token) redactedName = false)
    (hfree : Free token text) : Free token (absorb text) :=
  ((hfree.reSub h hmarker markerRun).reSub h hmarker absorbAfter).reSub h hmarker absorbBefore

/-- **The loop of `redact_names` stops.** -/
theorem exists_redactNames (s : Option String) (tokens : List String) :
    ∃ result, redactNames s tokens = some result := by
  unfold redactNames
  dsimp only
  split_ifs
  · exact ⟨"", rfl⟩
  · obtain ⟨total, last, hdrain, -⟩ := Drain.drain_spec (μ := String.length) absorbStep_length_lt
      (Nat.lt_succ_self (tokens.foldl redactToken (s.getD "")).length)
    exact ⟨_, by rw [hdrain]; rfl⟩

/-- **What it leaves has no window that is the token.** -/
theorem redactNames_spec (h : IsName token)
    (hmarker : contains (lower token) redactedName = false) (hlength : 3 ≤ token.length)
    {tokens : List String} (hmem : token ∈ tokens) (s : Option String) :
    ∃ result, redactNames s tokens = some result ∧ Free token result := by
  unfold redactNames
  dsimp only
  split_ifs
  · refine ⟨"", rfl, fun w hw hlowers => h.tidy.ne_nil ?_⟩
    rw [List.infix_nil.mp hw] at hlowers
    exact List.forall₂_nil_right_iff.mp hlowers
  · obtain ⟨total, last, hdrain, hbegins, -⟩ := Drain.drain_spec (μ := String.length)
      absorbStep_length_lt (Nat.lt_succ_self (tokens.foldl redactToken (s.getD "")).length)
    have hstep : ∀ s, Free token s → (absorbStep s).2 ≠ 0 → Free token (absorbStep s).1 :=
      fun s hfree _ => Free.absorb h hmarker hfree
    have hlast : Free token last :=
      hbegins.invariant hstep (free_foldl_redactToken h hmarker hlength hmem _)
    exact ⟨absorb last, by rw [hdrain]; rfl, hlast.absorb h hmarker⟩

end

/-- What stands between two tokens goes with them. -/
example : @redactNames asciiPatterns (some "UPI/ALEX/QUINN/DOE") ["alex", "doe"] =
    some "UPI/[redacted-name]" := by
  decide +kernel

/-! ### Windows of lower-cased texts -/

section

variable [PatternTables] {text token : String} {l : List Char}

omit [PatternTables] in
/-- What begins a text and is plain does not stand in what is not. -/
theorem infix_of_infix_append {x more : List Char} (hx : ∀ c ∈ x, c.val < 128)
    (hmore : ∀ e ∈ more, ¬ e.val < 128) (h : x <:+: more ++ l) : x <:+: l := by
  induction more with
  | nil => exact h
  | cons e more ih =>
    obtain ⟨he, hmore⟩ := List.forall_mem_cons.mp hmore
    rcases List.infix_cons_iff.mp h with hprefix | hinfix
    · cases x with
      | nil => exact List.nil_infix
      | cons c x =>
        obtain ⟨rfl, -⟩ := List.cons_prefix_cons.mp hprefix
        exact absurd (hx c List.mem_cons_self) he
    · exact ih hmore hinfix

/-- What a lower-cased text begins with, character by character. -/
theorem exists_window_of_prefix {x : List Char} (hx : ∀ c ∈ x, c.val < 128)
    (h : x <+: l.flatMap UnicodeTables.lower) :
    ∃ w, w <+: l ∧ List.Forall₂ (fun c d => c ∈ UnicodeTables.lower d) x w := by
  induction l generalizing x with
  | nil =>
    obtain rfl := List.prefix_nil.mp h
    exact ⟨[], List.nil_prefix, .nil⟩
  | cons d l ih =>
    cases x with
    | nil => exact ⟨[], List.nil_prefix, .nil⟩
    | cons c x =>
      obtain ⟨hc, hx⟩ := List.forall_mem_cons.mp hx
      obtain ⟨e, more, hlower⟩ := List.exists_cons_of_ne_nil (PatternTables.lower_ne_nil d)
      rw [List.flatMap_cons, hlower] at h
      obtain ⟨rfl, hrest⟩ := List.cons_prefix_cons.mp h
      have hmem : c ∈ UnicodeTables.lower d := hlower ▸ List.mem_cons_self
      obtain ⟨more', hlower', hmore⟩ := PatternTables.lower_of_mem c d hc hmem
      obtain ⟨-, rfl⟩ := List.cons.inj (hlower.symm.trans hlower')
      cases more with
      | nil =>
        obtain ⟨w, hw, hwindow⟩ := ih hx hrest
        exact ⟨d :: w, List.cons_prefix_cons.mpr ⟨rfl, hw⟩, .cons hmem hwindow⟩
      | cons e more =>
        -- what is not plain ends it
        cases x with
        | nil => exact ⟨[d], List.cons_prefix_cons.mpr ⟨rfl, List.nil_prefix⟩, .cons hmem .nil⟩
        | cons c' x =>
          obtain ⟨rfl, -⟩ := List.cons_prefix_cons.mp hrest
          exact absurd (hx c' List.mem_cons_self) (hmore c' List.mem_cons_self)

theorem exists_window_of_infix {x : List Char} (hx : ∀ c ∈ x, c.val < 128)
    (h : x <:+: l.flatMap UnicodeTables.lower) :
    ∃ w, w <:+: l ∧ List.Forall₂ (fun c d => c ∈ UnicodeTables.lower d) x w := by
  have hfirst : ∀ {l : List Char}, x <+: l.flatMap UnicodeTables.lower →
      ∃ w, w <:+: l ∧ List.Forall₂ (fun c d => c ∈ UnicodeTables.lower d) x w := by
    intro l hprefix
    obtain ⟨w, hw, hwindow⟩ := exists_window_of_prefix hx hprefix
    exact ⟨w, hw.isInfix, hwindow⟩
  induction l with
  | nil => exact hfirst (List.infix_nil.mp h ▸ List.nil_prefix)
  | cons d l ih =>
    have hlater : x <:+: l.flatMap UnicodeTables.lower →
        ∃ w, w <:+: d :: l ∧ List.Forall₂ (fun c d => c ∈ UnicodeTables.lower d) x w := by
      intro hinfix
      obtain ⟨w, hw, hwindow⟩ := ih hinfix
      exact ⟨w, hw.trans (List.suffix_cons d l).isInfix, hwindow⟩
    rw [List.flatMap_cons] at h
    by_cases hplain : ∃ c ∈ UnicodeTables.lower d, c.val < 128
    · obtain ⟨c, hmem, hc⟩ := hplain
      obtain ⟨more, hlower, hmore⟩ := PatternTables.lower_of_mem c d hc hmem
      rw [hlower, List.cons_append] at h
      rcases List.infix_cons_iff.mp h with hprefix | hinfix
      · refine hfirst ?_
        rwa [List.flatMap_cons, hlower, List.cons_append]
      · exact hlater (infix_of_infix_append hx hmore hinfix)
    · have hmore : ∀ e ∈ UnicodeTables.lower d, ¬ e.val < 128 := fun e he hlt =>
        hplain ⟨e, he, hlt⟩
      exact hlater (infix_of_infix_append hx hmore h)

/-- A small sigma is no plain character in lower case. -/
theorem sigma_notMem_window {x w : List Char} (hx : ∀ c ∈ x, c.val < 128)
    (h : List.Forall₂ (fun c d => c ∈ UnicodeTables.lower d) x w) : ∀ d ∈ w, d ∉ ['σ', 'ς'] := by
  intro d hd hsigma
  obtain ⟨c, hc, hlower⟩ := Posting.exists_left h hd
  rw [UnicodeTables.lower_sigma d hsigma] at hlower
  obtain rfl := List.mem_singleton.mp hlower
  have hlarge : ∀ c ∈ ['σ', 'ς'], ¬ c.val < 128 := forall_sigma (by decide) (by decide)
  exact hlarge c hsigma (hx c hc)

/-- **A text without such a window does not leak the token.** -/
theorem Free.not_leaks (h : IsName token) (hfree : Free token text) : ¬ Leaks token text := by
  intro hleaks
  have hplain : ∀ c ∈ token.toList.map Char.toLower, c.val < 128 := by
    intro c hc
    obtain ⟨d, hd, rfl⟩ := List.mem_map.mp hc
    exact of_ascii (p := fun d => d.toLower.val < 128) (by decide) (h.val_lt d hd)
  have hinfix := contains_iff.mp hleaks
  rw [lower_of_ascii h.val_lt, String.toList_ofList, lower, String.toList_ofList] at hinfix
  obtain ⟨w, hw, hwindow⟩ := exists_window_of_infix hplain hinfix
  have htext : w <:+: text.toList := infix_of_infix_sigmas (sigma_notMem_window hplain hwindow) hw
  exact hfree w htext (List.forall₂_map_left_iff.mp hwindow)

end

end FinancialDashboard.Categorization
