import FinancialDashboard.Lib.PyText
import Mathlib.Data.List.Infix

/-!
# Evidence in the narration

How the reconcilers compare texts: a counterparty that stands in a card narration as a
whole token, a reference that stands in a bank narration between characters that are
no letters and no digits, and the tokens two narrations share.

What the standard library reads from the Unicode database beyond `UnicodeTables` is
`NarrationTables`.

* `boundedIn_iff`: the search for a needle between bounds finds it exactly when it is
  there.
-/

namespace FinancialDashboard.Statements

open PyText

/-- `unicodedata.normalize("NFC", s)`, `str.casefold` and three of the categories. -/
class NarrationTables where
  nfc : String → String
  casefold : Char → List Char
  isConnector : Char → Bool
  isMark : Char → Bool
  isDecimal : Char → Bool

/-- The tables of plain ASCII text. -/
@[reducible] def asciiNarration : NarrationTables where
  nfc s := s
  casefold c := [c.toLower]
  isConnector c := c = '_'
  isMark _ := false
  isDecimal := Char.isDigit

/-! ### A needle between bounds -/

/-- No character of a word: the end of the text, or a character that is none. -/
def isBound (isWord : Char → Bool) (ch : Option Char) : Bool := !ch.any isWord

/-- The needle starts here, and what comes after it is a bound. -/
def startsBounded (isWord : Char → Bool) (needle hay : List Char) : Bool :=
  needle.isPrefixOf hay && isBound isWord (hay.drop needle.length).head?

/-- The search from a position on; `before` is the character in front of it. -/
def boundedFrom (isWord : Char → Bool) (needle : List Char) : Option Char → List Char → Bool
  | _, [] => false
  | before, ch :: rest =>
    (isBound isWord before && startsBounded isWord needle (ch :: rest)) ||
      boundedFrom isWord needle (some ch) rest

/-- `needle` occurs in `hay` with a bound on either side. -/
def boundedIn (isWord : Char → Bool) (needle hay : String) : Bool :=
  boundedFrom isWord needle.toList none hay.toList

theorem startsBounded_iff {isWord : Char → Bool} {needle hay : List Char} :
    startsBounded isWord needle hay = true ↔
      ∃ post, hay = needle ++ post ∧ isBound isWord post.head? = true := by
  rw [startsBounded, Bool.and_eq_true, List.isPrefixOf_iff_prefix]
  constructor
  · rintro ⟨⟨post, rfl⟩, hb⟩
    exact ⟨post, rfl, by simpa using hb⟩
  · rintro ⟨post, rfl, hb⟩
    exact ⟨List.prefix_append _ _, by simpa using hb⟩

/-- The character in front of what follows `pre`. -/
def lastOr (before : Option Char) (pre : List Char) : Option Char :=
  match pre.getLast? with
  | some ch => some ch
  | none => before

theorem lastOr_cons (before : Option Char) (ch : Char) (pre : List Char) :
    lastOr before (ch :: pre) = lastOr (some ch) pre := by
  unfold lastOr
  rw [List.getLast?_cons]
  cases pre.getLast? <;> rfl

theorem boundedFrom_iff {isWord : Char → Bool} {needle : List Char} (hn : needle ≠ [])
    (before : Option Char) (hay : List Char) :
    boundedFrom isWord needle before hay = true ↔
      ∃ pre post, hay = pre ++ needle ++ post ∧
        isBound isWord (lastOr before pre) = true ∧ isBound isWord post.head? = true := by
  induction hay generalizing before with
  | nil =>
    constructor
    · intro h
      cases h
    · rintro ⟨pre, post, he, -⟩
      exact absurd (List.append_eq_nil_iff.mp (List.append_eq_nil_iff.mp he.symm).1).2 hn
  | cons ch rest ih =>
    rw [boundedFrom, Bool.or_eq_true, Bool.and_eq_true, startsBounded_iff, ih]
    constructor
    · rintro (⟨hb, post, he, hp⟩ | ⟨pre, post, rfl, hb, hp⟩)
      · exact ⟨[], post, he, hb, hp⟩
      · exact ⟨ch :: pre, post, by simp, by rwa [lastOr_cons], hp⟩
    · rintro ⟨pre, post, he, hb, hp⟩
      cases pre with
      | nil => exact .inl ⟨hb, post, he, hp⟩
      | cons c pre =>
        obtain ⟨rfl, rfl⟩ := List.cons.inj he
        exact .inr ⟨pre, post, by simp, by rwa [← lastOr_cons], hp⟩

/-- **The search finds the needle exactly where it stands between bounds.** -/
theorem boundedIn_iff {isWord : Char → Bool} {needle hay : String} (hn : needle ≠ "") :
    boundedIn isWord needle hay = true ↔
      ∃ pre post, hay.toList = pre ++ needle.toList ++ post ∧
        isBound isWord pre.getLast? = true ∧ isBound isWord post.head? = true := by
  have hl : needle.toList ≠ [] := fun h => hn (String.toList_inj.mp h)
  rw [boundedIn, boundedFrom_iff hl]
  have hnone : ∀ pre : List Char, lastOr none pre = pre.getLast? := by
    intro pre
    unfold lastOr
    cases pre.getLast? <;> rfl
  simp only [hnone]

/-! ### Card narrations -/

section

variable [UnicodeTables] [NarrationTables]

/-- `" ".join(text.split())`. -/
def collapseSpace (text : String) : String :=
  " ".intercalate (((text.toList.splitOnP UnicodeTables.isSpace).filter (· ≠ [])).map String.ofList)

def casefold (s : String) : String :=
  String.ofList (s.toList.flatMap NarrationTables.casefold)

def normalizeNarration (text : Option String) : String :=
  if text.getD "" = "" then ""
  else NarrationTables.nfc (casefold (collapseSpace (text.getD "")))

/-- ZWNJ and ZWJ. -/
def joinControls : List Char := ['\u200c', '\u200d']

def isWordChar (ch : Char) : Bool :=
  ch ∈ joinControls || UnicodeTables.isAlnum ch || NarrationTables.isConnector ch ||
    NarrationTables.isMark ch

/-- The positions `find` goes through are those where the needle starts. -/
def containsWholeToken (haystack needle : String) : Bool :=
  needle ≠ "" && boundedIn isWordChar needle haystack

end

/-! ### Bank narrations -/

def minRefSubstringLen : Nat := 6

def isAsciiAlnum (ch : Char) : Bool := ch.isAlphanum

def refAppearsIn (ref text : Option String) : Bool :=
  ref.getD "" ≠ "" && text.getD "" ≠ "" && minRefSubstringLen ≤ (ref.getD "").length &&
    boundedIn isAsciiAlnum (ref.getD "") (text.getD "")

/-- `_TOKEN_RE.findall(text)`, upper-cased: the runs of at least four ASCII letters. -/
def tokens (text : String) : List String :=
  ((text.toList.splitOnP (!·.isAlpha)).filter (4 ≤ ·.length)).map fun run =>
    String.ofList (run.map Char.toUpper)

def significantTokens (text : Option String) (exclude : List String) : List String :=
  (tokens (text.getD "")).filter (· ∉ exclude)

def holderNameTokens (name : Option String) : List String := tokens (name.getD "")

end FinancialDashboard.Statements
