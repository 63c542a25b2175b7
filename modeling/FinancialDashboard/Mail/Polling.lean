import FinancialDashboard.Mail.Gmail
import FinancialDashboard.Mail.Fastmail

/-!
# Initial backfill

The poll asks the provider of a source for the messages of its rules and stamps the rules that
the provider names.  Both providers name a rule as soon as one message of it was fetched, and
neither looks at what the limit, a refused download or a copy in another folder kept back.

* `losesNothing_iff`: when every message of a rule that is named is accounted for.
* `older_mail_lost`: two mails and a limit of one, with either provider.
-/

namespace FinancialDashboard.Mail

open PyText

/-- `get_provider`: whose `fetch_source` is called, with what it finds there. -/
inductive Provider
  | gmail (server : ImapServer) (credentials : Bool)
  | fastmail (server : JmapServer) (token : Bool)

namespace Provider

variable [UnicodeTables] (now : Int) (lastSyncedAt : Option Int) (address : String → String)
  (sourceId : Nat) (fetchLimit : Int) (existing : List String) (rules : RuleSet)

/-- A rule that the fetch names has lost nothing. -/
def LosesNothing : Provider → Prop
  | gmail server credentials => (gmailBackfill server now lastSyncedAt address sourceId credentials
      fetchLimit existing rules).LosesNothing rules existing
  | fastmail server token => (fastmailBackfill server now lastSyncedAt address sourceId fetchLimit
      token existing rules).LosesNothing rules existing

/-- A rule that has something new leaves something behind. -/
def Loses : Provider → Prop
  | gmail server credentials =>
    GmailLoses server now lastSyncedAt address credentials fetchLimit existing rules
  | fastmail server token =>
    FastmailLoses server now lastSyncedAt address fetchLimit token existing rules

/-- **Initial backfill loses nothing but where a rule with something new leaves something
behind.** -/
theorem losesNothing_iff (provider : Provider) :
    provider.LosesNothing now lastSyncedAt address sourceId fetchLimit existing rules ↔
      ¬ provider.Loses now lastSyncedAt address fetchLimit existing rules := by
  cases provider with
  | gmail server credentials => exact gmail_losesNothing_iff
  | fastmail server token => exact fastmail_losesNothing_iff

end Provider

/-! ### Two mails and a limit of one -/

/-- A rule that takes every mail, not yet backfilled. -/
def openRule : FetchRule := ⟨1, none, none, none, none⟩

def openRules : RuleSet := ⟨[openRule], List.nodup_singleton _⟩

def letter (gmailId : String) : GmailMessage := ⟨some gmailId, "", "bank", "statement", []⟩

/-- Two mails in the folder of all mail. -/
def twoLetters : ImapServer where
  login := true
  select _ _ := .ok ()
  search _ _ := .ok ["1", "2"]
  headers _ uids := uids
  delivers _ _ := true
  mail _ uid := letter uid

def lettersPlan : Plan where
  answers := [(openRule, ["1", "2"])]
  known := [("[Gmail]/All Mail", "1"), ("[Gmail]/All Mail", "2")]
  new := [("[Gmail]/All Mail", "1"), ("[Gmail]/All Mail", "2")]
  chosen := [("[Gmail]/All Mail", "1")]

def jmapLetter (id : String) : JmapEmail := ⟨id, id, none, none, []⟩

def twoJmapLetters : JmapServer where
  session := true
  mailboxes _ := none
  emails _ := [jmapLetter "1", jmapLetter "2"]
  answers _ _ := true
  blob _ := some []

/-- **The older of two mails is lost under a limit of one**, with either provider. -/
theorem older_mail_lost :
    ¬ @Provider.LosesNothing asciiTables 0 none id 1 1 [] openRules (.gmail twoLetters true) ∧
      ¬ @Provider.LosesNothing asciiTables 0 none id 1 1 [] openRules
        (.fastmail twoJmapLetters true) := by
  let _ := asciiTables
  have hplan : plan twoLetters 0 none true 1 [] openRules = some lettersPlan := by decide +kernel
  have haccepts : acceptsMail twoLetters id openRule ("[Gmail]/All Mail", "1") = true := rfl
  have hwants : ∀ em, acceptsEmail id openRule none em = true := fun _ => rfl
  have hread : candidatesOf twoJmapLetters 0 none id 1 openRule = some [jmapLetter "1"] := by
    show queryFrom (acceptsEmail id openRule none) 1 [jmapLetter "1", jmapLetter "2"]
      (fun _ => true) 0 [] = _
    simp [queryFrom, full, readPage, pageSize, hwants]
  have hcandidates : ruleCandidates twoJmapLetters 0 none id 1 openRules.rules =
      some [(openRule, [jmapLetter "1"])] := by
    simp [ruleCandidates, openRules, hread]
  have hselect : ∀ key ∈ lettersPlan.chosen, twoLetters.select .messages key.1 ≠ .raised := by
    intro key _ hraised
    cases hraised
  have hgmail : GmailLoses twoLetters 0 none id true 1 [] openRules := by
    refine ⟨lettersPlan, hplan, hselect, openRule, rfl, ⟨("[Gmail]/All Mail", "1"), ?_⟩,
      ("[Gmail]/All Mail", "2"), ?_⟩
    · exact ⟨⟨_, List.mem_cons_self, rfl, List.mem_cons_self⟩, List.mem_cons_self, ⟨rfl, rfl⟩,
        haccepts⟩
    · exact ⟨⟨_, List.mem_cons_self, rfl, by decide⟩, .inl (by decide)⟩
  have hfastmail : FastmailLoses twoJmapLetters 0 none id 1 true [] openRules := by
    refine ⟨rfl, rfl, _, hcandidates, fun _ _ => Option.some_ne_none _, openRule,
      List.mem_cons_self, rfl, none, rfl, ⟨1, by decide, by decide, ?_⟩, jmapLetter "1", ?_,
      List.not_mem_nil⟩
    · simp [twoJmapLetters, hwants]
    · simp [twoJmapLetters, hwants]
  constructor
  · exact fun h => gmail_losesNothing_iff.mp h hgmail
  · exact fun h => fastmail_losesNothing_iff.mp h hfastmail

end FinancialDashboard.Mail
