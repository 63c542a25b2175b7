import FinancialDashboard.Lib.Budget
import FinancialDashboard.Lib.Calendar
import FinancialDashboard.Lib.Rounding
import FinancialDashboard.Paisa.Accounts
import FinancialDashboard.Paisa.Orchestrator
import FinancialDashboard.Paisa.Rendering

/-!
# Diagnosis

Which of Paisa's dangers a sync expects (`services/paisa/diagnosis.py`).

Paisa reports every negative posting to an expense account as a danger, and the postings of
refunds and reversals are negative.  A danger is accepted if its text is that of such a
posting of the projection, and if there is still one that no danger before it was accepted
for; all others are fatal.

* `classifyIssues_eq`: the loop splits the dangers as a budget of fingerprints is spent.
* `classifyDiagnosis_spec`: what is accepted and what is fatal.
-/

namespace FinancialDashboard.Paisa.Diagnosis

open PyText PyTime Rounding Budget

/-! ### Patterns -/

/-- What a pattern knows of the characters: the value of a digit, and which characters a
letter stands for where the case is ignored. -/
class PatternTables where
  digit : Char → Option Nat
  same : Char → Char → Bool

/-- The tables of plain text. -/
@[reducible] def plainPatterns : PatternTables where
  digit c := if c.isDigit then some (c.toNat - '0'.toNat) else none
  same letter c := c.toLower = letter.toLower

/-- The ways in which a text can begin, with what comes then; the preferred ones first. -/
def Pattern (α : Type) : Type := List Char → List (α × List Char)

namespace Pattern

variable {α β : Type}

def done (a : α) : Pattern α := fun text => [(a, text)]

def andThen (first : Pattern α) (next : α → Pattern β) : Pattern β :=
  fun text => (first text).flatMap fun way => next way.1 way.2

/-- As many of the characters as there are, and no fewer than `least`. -/
def greedy (p : Char → Bool) (least : Nat) (most : Option Nat) : Pattern (List Char) :=
  fun text =>
    let run := (text.takeWhile p).length
    let longest := most.elim run (min run)
    ((List.range (longest + 1)).reverse.filter (least ≤ ·)).map fun n =>
      (text.take n, text.drop n)

def optional (pattern : Pattern (List Char)) : Pattern (List Char) :=
  fun text => pattern text ++ [([], text)]

/-- One text and no other. -/
def literal [PatternTables] : List Char → Pattern Unit
  | [] => done ()
  | letter :: rest => fun text =>
    match text with
    | c :: later => if PatternTables.same letter c then literal rest later else []
    | [] => []

/-- The first place that the pattern fits, in the way it prefers. -/
def search (pattern : Pattern α) : List Char → Option α
  | [] => (pattern []).head?.map (·.1)
  | c :: rest => ((pattern (c :: rest)).head?.map (·.1)).or (search pattern rest)

end Pattern

/-! ### The text of a danger -/

structure DebitEntryFingerprint where
  account : String
  date : Int
  amount : ℚ
  deriving DecidableEq, Repr

structure PaisaDiagnosisIssue where
  level : String
  summary : String
  details : String
  deriving DecidableEq, Repr

structure PaisaDiagnosis where
  dangerCount : Nat
  issues : List PaisaDiagnosisIssue
  deriving DecidableEq, Repr

/-- `ClassifiedDiagnosis`, with the raw count. -/
structure Classified extends ClassifiedDiagnosis where
  rawDangerCount : Nat
  deriving DecidableEq, Repr

/-- `DEBIT_ENTRY_SUMMARY`. -/
def debitEntrySummary : String := "Debit Entry"

/-- `_PAISA_MONTHS`. -/
def paisaMonths : List String :=
  ["jan", "feb", "mar", "apr", "may", "jun", "jul", "aug", "sep", "oct", "nov", "dec"]

/-- `value.quantize(Decimal("0.0001"))`. -/
def quantizeFour (value : ℚ) : Option ℚ := (quantizeTo 10000 value).map fun q => q / 10000

/-- `datetime.date(year, month, day)`. -/
def dateOfParts (year month day : Nat) : Option Int :=
  let number : Int := 12 * year + month - 1
  if 1 ≤ year ∧ year ≤ 9999 ∧ 1 ≤ day ∧ (day : Int) ≤ daysInMonth number then
    some (firstOf number + day - 1)
  else none

/-- What the groups of the template matched. -/
structure DebitEntryMatch where
  negative : Bool
  whole : List Char
  places : List Char
  account : List Char
  day : List Char
  month : List Char
  year : List Char

section

variable [PatternTables]

def isDigit (c : Char) : Bool := (PatternTables.digit c).isSome

/-- `[A-Za-z]`. -/
def isLetter (c : Char) : Bool := "abcdefghijklmnopqrstuvwxyz".toList.any (PatternTables.same · c)

/-- The number that the digits write. -/
def digitsValue (digits : List Char) : Nat :=
  digits.foldl (fun n c => 10 * n + (PatternTables.digit c).getD 0) 0

variable [UnicodeTables]

open Pattern in
/-- `_DEBIT_ENTRY_RE`. -/
def debitEntryRe : Pattern DebitEntryMatch :=
  let blanks := greedy UnicodeTables.isSpace 1 none
  let places := andThen (literal ['.']) fun _ => greedy isDigit 1 none
  andThen (literal "<b>".toList) fun _ =>
  andThen (optional (greedy (· = '-') 1 (some 1))) fun sign =>
  andThen (greedy isDigit 1 none) fun whole =>
  andThen (optional places) fun places =>
  andThen (literal "</b>".toList) fun _ => andThen blanks fun _ =>
  andThen (literal "got".toList) fun _ => andThen blanks fun _ =>
  andThen (literal "debited".toList) fun _ => andThen blanks fun _ =>
  andThen (literal "from".toList) fun _ => andThen blanks fun _ =>
  andThen (literal "<b>".toList) fun _ =>
  andThen (greedy (· ≠ '<') 1 none) fun account =>
  andThen (literal "</b>".toList) fun _ => andThen blanks fun _ =>
  andThen (literal "on".toList) fun _ => andThen blanks fun _ =>
  andThen (greedy isDigit 1 (some 2)) fun day => andThen blanks fun _ =>
  andThen (greedy isLetter 3 none) fun month => andThen blanks fun _ =>
  andThen (greedy isDigit 4 (some 4)) fun year =>
  done ⟨sign ≠ [], whole, places, account, day, month, year⟩

/-- `parse_debit_entry_details`. -/
def parseDebitEntryDetails (details : String) : Option DebitEntryFingerprint := do
  let found ← Pattern.search debitEntryRe details.toList
  let number : ℚ := digitsValue (found.whole ++ found.places) / 10 ^ found.places.length
  let amount ← quantizeFour (if found.negative then -number else number)
  let index ← paisaMonths.idxOf? (lower (String.ofList found.month))
  let date ← dateOfParts (digitsValue found.year) (index + 1) (digitsValue found.day)
  return ⟨strip (String.ofList found.account), date, amount⟩

/-! ### The message of a fatal danger -/

/-- `_HTML_TAG_RE.sub(" ", text)`, in a tag or outside. -/
def removeTags : Bool → List Char → List Char
  | _, [] => []
  | true, c :: rest => if c = '>' then ' ' :: removeTags false rest else removeTags true rest
  | false, c :: rest =>
    if c = '<' ∧ rest.head? ≠ some '>' ∧ '>' ∈ rest then removeTags true rest
    else c :: removeTags false rest

omit [PatternTables] in
/-- `_strip_html`. -/
def stripHtml (text : String) : String :=
  let words := ((removeTags false text.toList).splitOnP UnicodeTables.isSpace).filter (· ≠ [])
  String.ofList (List.intercalate [' '] words)

omit [PatternTables] in
/-- `_fatal_message`. -/
def fatalMessage (summary details : String) : String :=
  let cleaned := stripHtml details
  let message := if cleaned = "" then summary else summary ++ ": " ++ cleaned
  String.ofList (message.toList.take 300)

/-! ### Classification -/

/-- `expected_debit_entry_fingerprints`; `none` where an amount has too many digits. -/
def expectedDebitEntryFingerprints (entries : List ProjectedEntry) :
    Option (Multiset DebitEntryFingerprint) := do
  let found ← (entries.flatMap fun entry => (entry.postings.filter fun posting =>
      startsWith posting.account.name "Expenses:" ∧ posting.amount < 0).map
        fun posting => (entry.date, posting)).mapM fun (date, posting) =>
    (quantizeFour posting.amount).map fun amount =>
      (⟨posting.account.name, date, amount⟩ : DebitEntryFingerprint)
  return found

/-- The loop's variables. -/
structure Tally where
  expected : Multiset DebitEntryFingerprint
  accepted : Nat
  fatal : Nat
  firstFatalMessage : Option String

/-- The fingerprint a danger would consume. -/
def PaisaDiagnosisIssue.fingerprint (issue : PaisaDiagnosisIssue) :
    Option DebitEntryFingerprint :=
  if issue.summary = debitEntrySummary then parseDebitEntryDetails issue.details else none

/-- An issue in the loop. -/
def classifyIssue (tally : Tally) (issue : PaisaDiagnosisIssue) : Tally :=
  if issue.level ≠ "danger" then tally
  else
    match issue.fingerprint.filter (· ∈ tally.expected) with
    | some fingerprint =>
      { tally with
        expected := tally.expected.erase fingerprint
        accepted := tally.accepted + 1 }
    | none =>
      { tally with
        fatal := tally.fatal + 1
        firstFatalMessage := tally.firstFatalMessage.or
          (some (fatalMessage issue.summary issue.details)) }

/-- The loop, with these fingerprints expected. -/
def classifyIssues (expected : Multiset DebitEntryFingerprint)
    (issues : List PaisaDiagnosisIssue) : Tally :=
  issues.foldl classifyIssue ⟨expected, 0, 0, none⟩

/-- `classify_diagnosis`. -/
def classifyDiagnosis (diagnosis : PaisaDiagnosis) (entries : List ProjectedEntry) :
    Option Classified :=
  (expectedDebitEntryFingerprints entries).map fun expected =>
    let tally := classifyIssues expected diagnosis.issues
    { expectedCount := expected.card
      acceptedCount := tally.accepted
      fatalCount := tally.fatal
      firstFatalMessage := tally.firstFatalMessage
      rawDangerCount := diagnosis.dangerCount }

/-! ### What is accepted -/

def dangers (issues : List PaisaDiagnosisIssue) : List PaisaDiagnosisIssue :=
  issues.filter (·.level = "danger")

def PaisaDiagnosisIssue.message (issue : PaisaDiagnosisIssue) : String :=
  fatalMessage issue.summary issue.details

variable {expected : Multiset DebitEntryFingerprint} {issues other : List PaisaDiagnosisIssue}
  {issue : PaisaDiagnosisIssue} {tally : Tally}

/-- An issue as the budget of fingerprints sees it. -/
theorem classifyIssue_of_mem {fingerprint : DebitEntryFingerprint} (hlevel : issue.level = "danger")
    (hfingerprint : issue.fingerprint = some fingerprint) (h : fingerprint ∈ tally.expected) :
    classifyIssue tally issue =
      { tally with
        expected := tally.expected.erase fingerprint
        accepted := tally.accepted + 1 } := by
  have hfilter : issue.fingerprint.filter (· ∈ tally.expected) = some fingerprint := by
    simp [hfingerprint, h]
  rw [classifyIssue, if_neg (not_not.mpr hlevel), hfilter]

theorem classifyIssue_of_not_mem (hlevel : issue.level = "danger")
    (h : ∀ fingerprint ∈ issue.fingerprint, fingerprint ∉ tally.expected) :
    classifyIssue tally issue =
      { tally with
        fatal := tally.fatal + 1
        firstFatalMessage := tally.firstFatalMessage.or (some issue.message) } := by
  have hfilter : issue.fingerprint.filter (· ∈ tally.expected) = none := by
    simpa [Option.filter_eq_none_iff] using h
  rw [classifyIssue, if_neg (not_not.mpr hlevel), hfilter]
  rfl

/-- **The loop spends the fingerprints on the dangers.** -/
theorem foldl_classifyIssue (tally : Tally) (issues : List PaisaDiagnosisIssue) :
    issues.foldl classifyIssue tally =
      let split := spend PaisaDiagnosisIssue.fingerprint tally.expected (dangers issues)
      { expected := tally.expected - (split.1.filterMap PaisaDiagnosisIssue.fingerprint :
          Multiset DebitEntryFingerprint)
        accepted := tally.accepted + split.1.length
        fatal := tally.fatal + split.2.length
        firstFatalMessage := tally.firstFatalMessage.or
          (split.2.head?.map PaisaDiagnosisIssue.message) } := by
  induction issues generalizing tally with
  | nil => simp [dangers, spend]
  | cons issue rest ih =>
    rw [List.foldl_cons, ih]
    by_cases hlevel : issue.level = "danger"
    · have hdangers : dangers (issue :: rest) = issue :: dangers rest :=
        List.filter_cons_of_pos (decide_eq_true hlevel)
      rw [hdangers]
      rcases key_cases PaisaDiagnosisIssue.fingerprint tally.expected issue with
        ⟨fingerprint, hmem, hfingerprint⟩ | hnot
      · rw [classifyIssue_of_mem hlevel hfingerprint hmem, spend_of_mem hfingerprint hmem]
        dsimp only
        rw [List.filterMap_cons_some hfingerprint, ← Multiset.cons_coe, Multiset.sub_cons,
          List.length_cons, Nat.add_assoc, Nat.add_comm 1]
      · rw [classifyIssue_of_not_mem hlevel hnot, spend_of_not_mem hnot]
        dsimp only
        rw [List.length_cons, Nat.add_assoc, Nat.add_comm 1, List.head?_cons, Option.map_some]
        cases tally.firstFatalMessage <;> rfl
    · have hdangers : dangers (issue :: rest) = dangers rest :=
        List.filter_cons_of_neg (by simpa using hlevel)
      rw [hdangers, classifyIssue, if_pos hlevel]

theorem classifyIssues_eq (expected : Multiset DebitEntryFingerprint)
    (issues : List PaisaDiagnosisIssue) :
    classifyIssues expected issues =
      let split := spend PaisaDiagnosisIssue.fingerprint expected (dangers issues)
      { expected := expected - (split.1.filterMap PaisaDiagnosisIssue.fingerprint :
          Multiset DebitEntryFingerprint)
        accepted := split.1.length
        fatal := split.2.length
        firstFatalMessage := split.2.head?.map PaisaDiagnosisIssue.message } := by
  rw [classifyIssues, foldl_classifyIssue]
  dsimp only
  rw [Nat.zero_add, Nat.zero_add, Option.none_or]

/-- What is known of a tally. -/
structure Sorts (expected : Multiset DebitEntryFingerprint) (issues : List PaisaDiagnosisIssue)
    (tally : Tally) : Prop where
  split : ∃ accepted fatal : List PaisaDiagnosisIssue,
    (accepted ++ fatal).Perm (dangers issues) ∧ (∀ issue ∈ accepted, issue.fingerprint.isSome) ∧
    (accepted.filterMap PaisaDiagnosisIssue.fingerprint : Multiset DebitEntryFingerprint) =
      ((dangers issues).filterMap PaisaDiagnosisIssue.fingerprint :
        Multiset DebitEntryFingerprint) ∩ expected ∧
    tally.accepted = accepted.length ∧ tally.fatal = fatal.length ∧
    tally.firstFatalMessage = fatal.head?.map PaisaDiagnosisIssue.message
  total : tally.accepted + tally.fatal = (dangers issues).length
  order : ∀ other, issues.Perm other → tally.accepted = (classifyIssues expected other).accepted ∧
    tally.fatal = (classifyIssues expected other).fatal
  clean : tally.fatal = 0 ↔ (∀ issue ∈ dangers issues, issue.fingerprint.isSome) ∧
    ((dangers issues).filterMap PaisaDiagnosisIssue.fingerprint :
      Multiset DebitEntryFingerprint) ≤ expected

theorem sorts_classifyIssues (expected : Multiset DebitEntryFingerprint)
    (issues : List PaisaDiagnosisIssue) :
    Sorts expected issues (classifyIssues expected issues) := by
  have hperm : ∀ other, issues.Perm other → (dangers issues).Perm (dangers other) :=
    fun other h => h.filter _
  refine ⟨?_, ?_, fun other h => ?_, ?_⟩
  · rw [classifyIssues_eq]
    exact ⟨_, _, perm_accepted_rejected _ expected _, fun issue => isSome_of_accepted,
      keys_accepted _ expected _, rfl, rfl, rfl⟩
  · rw [classifyIssues_eq]
    exact length_add_length _ expected _
  · rw [classifyIssues_eq, classifyIssues_eq]
    exact ⟨length_accepted_of_perm (hperm other h), length_rejected_of_perm (hperm other h)⟩
  · rw [classifyIssues_eq]
    exact List.length_eq_zero_iff.trans rejected_eq_nil_iff

/-- **A diagnosis accepts exactly the expected dangers.**  The accepted fingerprints are those
that the dangers and the expected ones have in common, whatever the order of the issues, and
nothing is fatal if and only if every danger is one of them.  The message is that of the first
fatal danger. -/
theorem classifyDiagnosis_spec (expected : Multiset DebitEntryFingerprint)
    (issues : List PaisaDiagnosisIssue) :
    Sorts expected issues (classifyIssues expected issues) ∧
      ∀ entries dangerCount, expectedDebitEntryFingerprints entries = some expected →
        classifyDiagnosis ⟨dangerCount, issues⟩ entries = some
          { expectedCount := expected.card
            acceptedCount := (classifyIssues expected issues).accepted
            fatalCount := (classifyIssues expected issues).fatal
            firstFatalMessage := (classifyIssues expected issues).firstFatalMessage
            rawDangerCount := dangerCount } := by
  refine ⟨sorts_classifyIssues expected issues, fun entries dangerCount h => ?_⟩
  rw [classifyDiagnosis, h]
  rfl

end

/-- Two dangers that are fatal. -/
def negativeBalance (account : String) : PaisaDiagnosisIssue :=
  ⟨"danger", "Negative Balance", account⟩

/-- The message depends on the order of the issues. -/
theorem not_orderIndependent :
    let _ := asciiTables
    let _ := plainPatterns
    ∃ issues other : List PaisaDiagnosisIssue, issues.Perm other ∧
      classifyDiagnosis ⟨2, issues⟩ [] ≠ classifyDiagnosis ⟨2, other⟩ [] := by
  intro _ _
  refine ⟨[negativeBalance "Assets:A", negativeBalance "Assets:B"],
    [negativeBalance "Assets:B", negativeBalance "Assets:A"], List.Perm.swap _ _ _, fun h => ?_⟩
  have hmessages : (classifyDiagnosis ⟨2, [negativeBalance "Assets:A",
      negativeBalance "Assets:B"]⟩ []).map (·.firstFatalMessage) ≠
      (classifyDiagnosis ⟨2, [negativeBalance "Assets:B",
        negativeBalance "Assets:A"]⟩ []).map (·.firstFatalMessage) := by decide +kernel
  exact hmessages (congrArg (Option.map (·.firstFatalMessage)) h)

end FinancialDashboard.Paisa.Diagnosis
