import FinancialDashboard.Lib.PyText
import Mathlib.Data.List.Nodup

/-!
# Fetch rules and what a fetch hands over

`services/rules.py`, the records of `integrations/email/base.py` and the part of
`poll_all` that closes a rule's initial backfill.  A provider returns the messages it
fetched, rule by rule, and the ids of the rules whose backfill it takes for complete; the poll
stamps these, and from then on their searches start two days before the last sync.

`Backfill` is what the two providers have in common: what was found for a rule, what
the rule's own filter accepts, and what was left behind.

* `mem_stampBackfill`: which rules are stamped.
* `LosesNothing`: of a stamped rule nothing is left behind.
-/

namespace FinancialDashboard.Mail

open PyText

/-! ### Rules -/

def initialBackfillDays : Int := 90

structure FetchRule where
  id : Nat
  sender : Option String
  subject : Option String
  folder : Option String
  initialBackfillDoneAt : Option Int
  deriving DecidableEq, Repr

/-- `initial_backfill_done_at is None`. -/
def FetchRule.needsBackfill (rule : FetchRule) : Bool := rule.initialBackfillDoneAt.isNone

/-- The rules of one source; `id` is their primary key. -/
structure RuleSet where
  rules : List FetchRule
  ids : (rules.map (·.id)).Nodup

instance : Membership FetchRule RuleSet := ⟨fun s rule => rule ∈ s.rules⟩

theorem RuleSet.eq_of_id {s : RuleSet} {rule other : FetchRule} (h : rule ∈ s) (ho : other ∈ s)
    (hid : rule.id = other.id) : rule = other :=
  List.inj_on_of_nodup_map s.ids h ho hid

/-! ### The filter of a rule -/

variable [UnicodeTables]

def cleanRuleValue (value : Option String) : String := strip (value.getD "")

def normalizeText (value : String) : String := lower (cleanRuleValue (some value))

/-- `address` is `parseaddr(actual_sender)[1]`. -/
def senderMatches (address : String → String) (ruleSender actualSender : String) : Bool :=
  if ruleSender = "" then true
  else
    let actual := normalizeText actualSender
    let expected := normalizeText ruleSender
    if actual = "" then false
    else contains expected actual || expected = lower (address actualSender)

def subjectMatches (ruleSubject actualSubject : String) : Bool :=
  if ruleSubject = "" then true
  else
    let actual := normalizeText actualSubject
    actual ≠ "" && contains (normalizeText ruleSubject) actual

def matchesRuleFilters (address : String → String) (rule : FetchRule)
    (sender subject : Option String) : Bool :=
  senderMatches address (cleanRuleValue rule.sender) (sender.getD "") &&
    subjectMatches (cleanRuleValue rule.subject) (subject.getD "")

structure JmapAddress where
  name : Option String
  email : Option String

/-- One sender of a `From` field, where there is something to show. -/
def formatSender (sender : JmapAddress) : Option String :=
  let name := cleanRuleValue sender.name
  let emailAddr := cleanRuleValue sender.email
  if name ≠ "" && emailAddr ≠ "" then some s!"{name} <{emailAddr}>"
  else if emailAddr ≠ "" then some emailAddr
  else if name ≠ "" then some name
  else none

def formatJmapFromField (fromField : Option (List JmapAddress)) : String :=
  ", ".intercalate ((fromField.getD []).filterMap formatSender)

/-! ### What a fetch returns -/

omit [UnicodeTables]

/-- A provider's answer to a command. -/
inductive Reply (α : Type)
  | ok (a : α)
  /-- `typ != "OK"`, or a folder that is not there. -/
  | refused
  | raised

structure FetchedEmail where
  msgId : String
  remoteId : String
  rawBytes : List UInt8
  deriving DecidableEq

/-- The `message_id` of an email. -/
def messageIdOf (sourceId : Nat) (kind remoteId : String) : String :=
  s!"src{sourceId}:{kind}:{remoteId}"

structure FetchSourceResult where
  /-- The fetched messages by the id of the rule. -/
  resultsByRule : Nat → List FetchedEmail
  fetchOk : Bool
  backfillReadyRuleIds : List Nat

/-- What `poll_all` does about the initial backfill of the rules of a source. -/
def stampBackfill (now : Int) (result : FetchSourceResult) (rules : List FetchRule) :
    List FetchRule :=
  rules.map fun rule =>
    if result.fetchOk && rule.id ∈ result.backfillReadyRuleIds && rule.needsBackfill then
      { rule with initialBackfillDoneAt := some now }
    else rule

/-! ### Nothing is lost -/

/-- A fetch as far as its rules' initial backfill goes; `μ` is what a search can find. -/
structure Backfill (μ : Type) where
  result : FetchSourceResult
  /-- The message is in what the rule's backfill search finds. -/
  Found : FetchRule → μ → Prop
  /-- The rule's own filter. -/
  Accepts : FetchRule → μ → Prop
  remoteId : μ → String
  /-- The limit cut the message off. -/
  CutOff : FetchRule → μ → Prop
  /-- The message could not be fetched. -/
  Undelivered : FetchRule → μ → Prop

namespace Backfill

variable {μ : Type}

/-- Some rule's fetched messages have it, or it is stored, or the rule does not want it. -/
def Accounted (b : Backfill μ) (rules : RuleSet) (existing : List String) (rule : FetchRule)
    (m : μ) : Prop :=
  (∃ other ∈ rules, ∃ e ∈ b.result.resultsByRule other.id, e.remoteId = b.remoteId m) ∨
    b.remoteId m ∈ existing ∨ ¬ b.Accepts rule m

/-- **A rule whose backfill is taken for complete has lost nothing.** -/
def LosesNothing (b : Backfill μ) (rules : RuleSet) (existing : List String) : Prop :=
  ∀ rule ∈ rules, rule.needsBackfill = true → rule.id ∈ b.result.backfillReadyRuleIds →
    ∀ m, b.Found rule m →
      b.Accounted rules existing rule m ∧ ¬ b.CutOff rule m ∧ ¬ b.Undelivered rule m

end Backfill

/-- **The poll stamps the rules that the fetch names and that were not stamped before.** -/
theorem mem_stampBackfill {now : Int} {result : FetchSourceResult} {rules : RuleSet}
    {rule : FetchRule} (h : rule ∈ rules) :
    { rule with initialBackfillDoneAt := some now } ∈ stampBackfill now result rules.rules ↔
      rule.initialBackfillDoneAt = some now ∨
        result.fetchOk = true ∧ rule.id ∈ result.backfillReadyRuleIds ∧ rule.needsBackfill := by
  unfold stampBackfill
  rw [List.mem_map]
  constructor
  · rintro ⟨other, hother, heq⟩
    have hid : other.id = rule.id := by
      have hcongr := congrArg FetchRule.id heq
      split_ifs at hcongr
      · exact hcongr
      · exact hcongr
    obtain rfl := rules.eq_of_id hother h hid
    split_ifs at heq with hstamp
    · simp only [Bool.and_eq_true, decide_eq_true_eq] at hstamp
      exact .inr ⟨hstamp.1.1, hstamp.1.2, hstamp.2⟩
    · exact .inl (congrArg FetchRule.initialBackfillDoneAt heq)
  · rintro (hdone | ⟨hok, hready, hneeds⟩)
    · refine ⟨rule, h, ?_⟩
      rw [if_neg (by simp [FetchRule.needsBackfill, hdone]), ← hdone]
    · exact ⟨rule, h, if_pos (by simp [hok, hready, hneeds])⟩

end FinancialDashboard.Mail
