import FinancialDashboard.Categorization.Engine
import FinancialDashboard.Categorization.Redaction
import FinancialDashboard.Lib.Spelling

/-!
# The prompt of the classifier

`build_prompt` of `services/categorization/llm.py`, and the two sanitizers that its texts go
through.  A counterparty is shown as it is redacted; a description is normalized afterwards,
which makes a blank of whatever stands between two words.

* `infix_normalizeText_iff`: what is normalized holds a name if and only if a window of the text
  spells it.
* `hides_iff`: no name is shown if and only if no redacted description spells it otherwise than
  it is written.
-/

namespace FinancialDashboard.Categorization

open PyText
open Words (Spells joinWords)

/-! ### The prompt -/

/-- `FewShotExample`, as far as the prompt shows it. -/
structure FewShotExample where
  counterparty : Option String
  rawDescription : Option String
  direction : String
  category : String

/-- The fields of `build_prompt`. -/
structure PromptFields where
  direction : Option String
  amount : Option String
  currency : Option String
  channel : Option String
  bank : Option String
  counterparty : Option String
  rawDescription : Option String

/-- `BANK_NARRATION_HINTS` -/
def bankNarrationHints : List (String × String) :=
  [("indusind", "IndusInd UPI descriptions look like " ++
      "'UPI/<ref>/DR|CR/<name>/<bank-code>/<vpa>'. DR/CR marks debit or " ++
      "credit here. It is not part of a name, and it does not mean doctor " ++
      "or healthcare."),
    ("idfc", "IDFC UPI descriptions look like 'UPI/DR|CR/<ref>/<name>/<vpa>/" ++
      "<bank-code>/<note>'. DR/CR marks debit or credit here. It is not " ++
      "part of a name, and it does not mean doctor or healthcare."),
    ("sbi", "SBI UPI descriptions look like " ++
      "'UPI/DR|CR/<ref>/<name>/<bank-code>/<vpa>/<remark>'. DR/CR marks " ++
      "debit or credit here. It is not part of a name, and it does not " ++
      "mean doctor or healthcare."),
    ("uboi", "Union Bank UPI descriptions look like " ++
      "'UPIAB|UPIAR/<ref>/DR|CR/<name>/<bank-code>/<vpa>'. DR/CR marks " ++
      "debit or credit here. It is not part of a name, and it does not " ++
      "mean doctor or healthcare.")]

/-- What an f-string shows of a field that may be missing. -/
def shownField (field : Option String) : String := field.getD "None"

/-- The instructions of the prompt. -/
def promptHead (activeSlugs : List String) : List String :=
  ["You are a personal-finance transaction categorizer.",
    "Choose exactly ONE category slug from this list:",
    ", ".intercalate activeSlugs,
    "If none fit, return \"" ++ needsReview ++ "\".",
    "Return JSON: \x7bcategory, confidence (0..1), reason (one short sentence)\x7d.",
    "",
    "IMPORTANT: 'direction: credit' = money RECEIVED — use an income category " ++
      "(refund, salary, interest, cashback_rewards, repayment, other_income); " ++
      "NEVER a spending category.",
    "'direction: debit' = money SPENT — use a spending category.",
    "A credit from an individual paying you back = repayment; " ++
      "a credit from a merchant = refund.",
    "Do NOT use self_transfer (handled separately). For money moved to/from another " ++
      "person, use 'repayment' for a credit or 'expense'/the specific spending category " ++
      "for a debit.",
    ""]

section

variable [PatternTables]

/-- `_sanitize_counterparty` -/
def sanitizeCounterparty (text : Option String) (nameTokens : List String) : Option String :=
  redactNames (some (redactPii text)) nameTokens

/-- `_sanitize_description` -/
def sanitizeDescription (text : Option String) (nameTokens : List String) : Option String :=
  (redactNames (some (redactPii text)) nameTokens).map fun redacted => normalizeText (some redacted)

def exampleLine (nameTokens : List String) (ex : FewShotExample) : Option String := do
  let counterparty ← sanitizeCounterparty ex.counterparty nameTokens
  let description ← sanitizeDescription ex.rawDescription nameTokens
  return "- [" ++ ex.direction ++ "] " ++ counterparty ++ " | " ++ description ++ " -> " ++
    ex.category

/-- `build_prompt`; `none` if a redaction does not stop. -/
def buildPrompt (fields : PromptFields) (examples : List FewShotExample)
    (activeSlugs nameTokens : List String) : Option String := do
  let exampleLines ← examples.mapM (exampleLine nameTokens)
  let counterparty ← sanitizeCounterparty fields.counterparty nameTokens
  let description ← sanitizeDescription fields.rawDescription nameTokens
  let shownExamples :=
    if examples.isEmpty then []
    else "Examples of previously categorized transactions:" :: exampleLines ++ [""]
  let hint := (bankNarrationHints.lookup (fields.bank.getD "")).map ("format note: " ++ ·)
  return "\n".intercalate (promptHead activeSlugs ++ shownExamples ++
    ["Transaction to categorize:",
      "direction: " ++ shownField fields.direction,
      "amount: " ++ shownField fields.amount ++ " " ++ shownField fields.currency,
      "channel: " ++ shownField fields.channel] ++ hint.toList ++
    ["counterparty: " ++ counterparty, "description: " ++ description])

/-! ### What is expected of it -/

/-- The counterparties that the prompt shows. -/
def counterparties (fields : PromptFields) (examples : List FewShotExample) :
    List (Option String) :=
  examples.map (·.counterparty) ++ [fields.counterparty]

/-- The descriptions that it shows. -/
def descriptions (fields : PromptFields) (examples : List FewShotExample) :
    List (Option String) :=
  examples.map (·.rawDescription) ++ [fields.rawDescription]

/-- No sanitized text of the prompt holds the token. -/
structure Hides (token : String) (fields : PromptFields) (examples : List FewShotExample)
    (nameTokens : List String) : Prop where
  counterparty : ∀ s ∈ counterparties fields examples,
    ∃ text, sanitizeCounterparty s nameTokens = some text ∧ ¬ Leaks token text
  description : ∀ s ∈ descriptions fields examples,
    ∃ text, sanitizeDescription s nameTokens = some text ∧ ¬ Leaks token text

/-- What separates words for `normalize_text`. -/
def separates (c : Char) : Bool := !isToken c

/-- Before it is normalized, the description has the words of the token in their order, and
something else than one blank between two of them. -/
def SpelledApart (token : String) (nameTokens : List String) (s : Option String) : Prop :=
  ∃ redacted, redactNames (some (redactPii s)) nameTokens = some redacted ∧
    ∃ window, window <:+: (lower redacted).toList ∧ window ≠ (lower token).toList ∧
      Spells separates ' ' (lower token).toList window

end

/-! ### Normalized texts -/

section

variable [UnicodeTables]

theorem toList_normalizeText (s : String) :
    (normalizeText (some s)).toList = joinWords separates ' ' (lower s).toList := by
  have hblank : ∀ c : Char, decide ((if isToken c then c else ' ') = ' ') = separates c := by
    intro c
    unfold separates
    by_cases hc : isToken c = true
    · have hne : c ≠ ' ' := by
        rintro rfl
        exact absurd hc (by decide)
      rw [if_pos hc, hc]
      exact decide_eq_false hne
    · rw [if_neg hc, (Bool.not_eq_true _).mp hc]
      rfl
  have hword : ∀ c : Char, separates c = false → (if isToken c then c else ' ') = c := by
    intro c hc
    exact if_pos (by simpa [separates] using hc)
  rw [joinWords, ← Words.wordsOf_map (q := fun c => c = ' ') hblank hword]
  unfold normalizeText Words.wordsOf
  rw [String.toList_ofList]
  rfl

/-- What is normalized is in lower case. -/
theorem lower_normalizeText (s : String) :
    lower (normalizeText (some s)) = normalizeText (some s) := by
  have hplain : ∀ c ∈ (normalizeText (some s)).toList, c.val < 128 ∧ c.toLower = c := by
    intro c hc
    rw [toList_normalizeText] at hc
    have htoken : ∀ d : Char, isToken d = true → d.val < 128 ∧ d.toLower = d := by
      intro d hd
      have hlt : d.val < 128 := by
        simp only [isToken, Bool.or_eq_true, Bool.and_eq_true, decide_eq_true_eq] at hd
        rcases hd with ⟨-, hd⟩ | ⟨-, hd⟩
        · exact UInt32.lt_of_le_of_lt (b := 'z'.val) hd (by decide)
        · exact UInt32.lt_of_le_of_lt (b := '9'.val) hd (by decide)
      exact ⟨hlt, of_ascii (p := fun d => isToken d = true → d.toLower = d) (by decide) hlt hd⟩
    rcases Words.mem_join hc with rfl | ⟨w, hw, hcw⟩
    · exact ⟨by decide, by decide⟩
    · have hword := (Words.mem_wordsOf hw).1.2 c hcw
      exact htoken c (by simpa [separates] using hword)
  rw [lower_of_ascii fun c hc => (hplain c hc).1]
  have hmap : (normalizeText (some s)).toList.map Char.toLower =
      (normalizeText (some s)).toList.map id :=
    List.map_congr_left fun c hc => (hplain c hc).2
  rw [hmap, List.map_id, String.ofList_toList]

theorem IsName.tidy_lower {token : String} (h : IsName token) :
    Words.Tidy separates ' ' (lower token).toList := by
  rw [lower_of_ascii h.val_lt, String.toList_ofList]
  refine h.tidy.map (f := Char.toLower) fun c hc hne => ?_
  have hletter := (h.letters c hc).resolve_right (of_decide_eq_false hne)
  exact of_ascii (p := fun c => c.isAlpha = true → separates c.toLower = false) (by decide)
    (val_lt_of_isAlpha hletter) hletter

end

/-! ### What the prompt shows -/

section

variable [PatternTables] {token : String} {nameTokens : List String}

/-- **What is normalized holds a name if and only if a window of the text spells it.** -/
theorem infix_normalizeText_iff (h : IsName token) (s : String) :
    Leaks token (normalizeText (some s)) ↔ ∃ window, window <:+: (lower s).toList ∧
      Spells separates ' ' (lower token).toList window := by
  rw [Leaks, lower_normalizeText, contains_iff, toList_normalizeText]
  exact Words.infix_joinWords_iff (by decide) h.tidy_lower

theorem exists_exampleLine (nameTokens : List String) (ex : FewShotExample) :
    ∃ line, exampleLine nameTokens ex = some line := by
  obtain ⟨counterparty, hcounterparty⟩ :=
    exists_redactNames (some (redactPii ex.counterparty)) nameTokens
  obtain ⟨description, hdescription⟩ :=
    exists_redactNames (some (redactPii ex.rawDescription)) nameTokens
  unfold exampleLine sanitizeCounterparty sanitizeDescription
  rw [hcounterparty, hdescription]
  exact ⟨_, rfl⟩

/-- **The prompt is built.** -/
theorem exists_buildPrompt (fields : PromptFields) (examples : List FewShotExample)
    (activeSlugs nameTokens : List String) :
    ∃ prompt, buildPrompt fields examples activeSlugs nameTokens = some prompt := by
  obtain ⟨lines, hlines⟩ : ∃ lines, examples.mapM (exampleLine nameTokens) = some lines := by
    induction examples with
    | nil => exact ⟨[], rfl⟩
    | cons ex examples ih =>
      obtain ⟨line, hline⟩ := exists_exampleLine nameTokens ex
      obtain ⟨lines, hlines⟩ := ih
      rw [List.mapM_cons, hline, hlines]
      exact ⟨line :: lines, rfl⟩
  obtain ⟨counterparty, hcounterparty⟩ :=
    exists_redactNames (some (redactPii fields.counterparty)) nameTokens
  obtain ⟨description, hdescription⟩ :=
    exists_redactNames (some (redactPii fields.rawDescription)) nameTokens
  unfold buildPrompt sanitizeCounterparty sanitizeDescription
  rw [hlines, hcounterparty, hdescription]
  exact ⟨_, rfl⟩

section

variable (hname : IsName token) (hlength : 3 ≤ token.length)
  (hmarker : contains (lower token) redactedName = false) (hmem : token ∈ nameTokens)
include hname hlength hmarker hmem

/-- **A counterparty does not show the token.** -/
theorem sanitizeCounterparty_spec (s : Option String) :
    ∃ text, sanitizeCounterparty s nameTokens = some text ∧ ¬ Leaks token text := by
  obtain ⟨text, htext, hfree⟩ := redactNames_spec hname hmarker hlength hmem (some (redactPii s))
  exact ⟨text, htext, hfree.not_leaks hname⟩

/-- **A description does not show it if and only if it is not spelled apart.** -/
theorem sanitizeDescription_iff (s : Option String) :
    (∃ text, sanitizeDescription s nameTokens = some text ∧ ¬ Leaks token text) ↔
      ¬ SpelledApart token nameTokens s := by
  obtain ⟨redacted, hredacted, hfree⟩ :=
    redactNames_spec hname hmarker hlength hmem (some (redactPii s))
  have hsanitized : sanitizeDescription s nameTokens = some (normalizeText (some redacted)) := by
    rw [sanitizeDescription, hredacted]
    rfl
  have hspelled : SpelledApart token nameTokens s ↔ ∃ window, window <:+: (lower redacted).toList ∧
      Spells separates ' ' (lower token).toList window := by
    constructor
    · rintro ⟨redacted', hredacted', window, hwindow, -, hspells⟩
      obtain rfl := Option.some.inj (hredacted.symm.trans hredacted')
      exact ⟨window, hwindow, hspells⟩
    · rintro ⟨window, hwindow, hspells⟩
      refine ⟨redacted, hredacted, window, hwindow, ?_, hspells⟩
      -- as it is written it has been replaced
      rintro rfl
      exact hfree.not_leaks hname (contains_iff.mpr hwindow)
  rw [hspelled, ← infix_normalizeText_iff hname, hsanitized]
  constructor
  · rintro ⟨text, htext, hnot⟩
    rwa [Option.some.inj htext]
  · exact fun hnot => ⟨_, rfl, hnot⟩

/-- **The prompt is built, and hides the token if and only if no redacted description has it
spelled apart.** -/
theorem hides_iff (fields : PromptFields) (examples : List FewShotExample)
    (activeSlugs : List String) :
    (∃ prompt, buildPrompt fields examples activeSlugs nameTokens = some prompt) ∧
      (Hides token fields examples nameTokens ↔
        ∀ s ∈ descriptions fields examples, ¬ SpelledApart token nameTokens s) := by
  refine ⟨exists_buildPrompt fields examples activeSlugs nameTokens, fun h s hs => ?_,
    fun h => ⟨fun s _ => ?_, fun s hs => ?_⟩⟩
  · exact (sanitizeDescription_iff hname hlength hmarker hmem s).mp (h.description s hs)
  · exact sanitizeCounterparty_spec hname hlength hmarker hmem s
  · exact (sanitizeDescription_iff hname hlength hmarker hmem s).mpr (h s hs)

end

/-- A token of one word is never spelled apart. -/
theorem not_spelledApart_of_word (hname : IsName token) (hword : ' ' ∉ token.toList)
    (nameTokens : List String) (s : Option String) : ¬ SpelledApart token nameTokens s := by
  rintro ⟨redacted, -, window, -, hne, hspells⟩
  refine hne (hspells.eq_of_word (fun c hc => ?_) (by decide))
  rw [lower_of_ascii hname.val_lt, String.toList_ofList] at hc
  obtain ⟨d, hd, rfl⟩ := List.mem_map.mp hc
  have hletter : d.isAlpha = true := (hname.letters d hd).resolve_right fun hblank =>
    hword (hblank ▸ hd)
  exact of_ascii (p := fun c => c.isAlpha = true → separates c.toLower = false) (by decide)
    (val_lt_of_isAlpha hletter) hletter

end

/-! ### A description that has a dot in the name -/

/-- A transaction of which only the texts are known. -/
def textFields (counterparty rawDescription : String) : PromptFields where
  direction := some "debit"
  amount := some "100"
  currency := some "INR"
  channel := some "upi"
  bank := none
  counterparty := some counterparty
  rawDescription := some rawDescription

theorem isName_alex : IsName "Alex" where
  tidy := .word ⟨by decide, List.forall_iff_forall_mem.mp (by decide)⟩
  letters := List.forall_iff_forall_mem.mp (by decide)

theorem isName_alexDoe : IsName "Alex Doe" where
  tidy := .cons (w := ['A', 'l', 'e', 'x'])
    ⟨by decide, List.forall_iff_forall_mem.mp (by decide)⟩
    (.word (w := ['D', 'o', 'e']) ⟨by decide, List.forall_iff_forall_mem.mp (by decide)⟩)
  letters := List.forall_iff_forall_mem.mp (by decide)

/-- A name of one word is hidden, with whatever stands around it. -/
theorem hides_alex :
    let _ := asciiPatterns
    Hides "Alex" (textFields "ALEX.DOE" "upi/alex.doe/rent") [] ["Alex"] := by
  intro _
  have hone : ∀ s, ¬ SpelledApart "Alex" ["Alex"] s :=
    not_spelledApart_of_word isName_alex (by decide) _
  exact (hides_iff isName_alex (by decide) (by decide) (List.mem_singleton_self _)
    (textFields "ALEX.DOE" "upi/alex.doe/rent") [] []).2.mpr fun s _ => hone s

/-- One of two words is shown if a dot stands between them, or a second blank. -/
theorem not_hides_alexDoe :
    let _ := asciiPatterns
    (IsName "Alex Doe" ∧ 3 ≤ "Alex Doe".length ∧
      contains (lower "Alex Doe") redactedName = false) ∧
    ∀ description ∈ ["upi/alex.doe/rent", "rent alex  doe"],
      ¬ Hides "Alex Doe" (textFields "Alex Doe" description) [] ["Alex Doe"] := by
  intro _
  refine ⟨⟨isName_alexDoe, by decide, by decide⟩, ?_⟩
  have hshown : ∀ description ∈ ["upi/alex.doe/rent", "rent alex  doe"],
      (sanitizeDescription (some description) ["Alex Doe"]).any
        (fun text => contains (lower "Alex Doe") (lower text)) = true := by
    decide +kernel
  intro description hmem hhides
  obtain ⟨text, htext, hnot⟩ := hhides.description (some description) (List.mem_singleton_self _)
  have hleaks := hshown description hmem
  rw [htext] at hleaks
  exact hnot hleaks

end FinancialDashboard.Categorization
