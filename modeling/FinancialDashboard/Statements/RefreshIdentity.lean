import FinancialDashboard.Lib.StableCase
import FinancialDashboard.Statements.Import

/-!
# Bank rows of one refresh identity

The reconciler leaves a claim in place if every rival has the refresh identity of its row
(`RefreshIdentity` of `services/statements/bank.py`): whichever of them the transaction is
paired with, enrichment is to leave it in one state.

The identity is the name that enrichment would write, or the narration where the row names
nobody, and the channel.  Enrichment reads more: it stores the narration as the description,
and a narration alone it does not take for a name.

* `description_eq_iff`, `name_eq_iff`: when the two texts come out alike.
* `enrichBank_eq_iff`: when the transaction does.
-/

namespace FinancialDashboard.Statements

open PyText Transactions

section

variable [UnicodeTables] [NarrationTables] {a b : BankTransaction} {row : Transaction}

/-- The statement row itself names the other party. -/
def Names (txn : BankTransaction) : Prop := stripped txn.counterparty ≠ ""

/-- The stored name gives way to one of a statement. -/
def NameOpen (row : Transaction) : Prop :=
  stripped row.counterparty = "" ∨ isPlaceholderCounterparty (stripped row.counterparty) = true

omit [NarrationTables] in
instance (txn : BankTransaction) : Decidable (Names txn) := inferInstanceAs (Decidable (_ ≠ _))

instance (row : Transaction) : Decidable (NameOpen row) := inferInstanceAs (Decidable (_ ∨ _))

/-- Pairing the transaction with either row leaves it in one state. -/
def Interchangeable (a b : BankTransaction) (row : Transaction) : Prop :=
  enrichBank a row = enrichBank b row

/-- Either has no narration to give, or gives the same; and either names the other party
itself, or the stored name does not change. -/
structure WritesAlike (a b : BankTransaction) (row : Transaction) : Prop where
  description : stripped a.narration = stripped b.narration ∨ stripped row.rawDescription ≠ ""
  name : (Names a ↔ Names b) ∨
    (bankRefreshIdentity a).counterparty = stripped row.counterparty ∨ ¬ NameOpen row

omit [NarrationTables] in
theorem stripped_some (text : Option String) : stripped (some (stripped text)) = stripped text := by
  unfold stripped
  rw [Option.getD_some, strip_strip]

theorem interchangeable_iff : Interchangeable a b row ↔
    (enrichBank a row).rawDescription = (enrichBank b row).rawDescription ∧
      (enrichBank a row).counterparty = (enrichBank b row).counterparty := by
  constructor
  · intro h
    exact ⟨congrArg (·.rawDescription) h, congrArg (·.counterparty) h⟩
  · rintro ⟨hdescription, hname⟩
    obtain ⟨name, description, ha⟩ := enrichBank_eq a row
    obtain ⟨name', description', hb⟩ := enrichBank_eq b row
    rw [ha, hb] at hdescription hname
    unfold Interchangeable
    rw [ha, hb, show description = description' from hdescription,
      show name = name' from hname]

/-! ### The description -/

theorem rawDescription_enrichBank (txn : BankTransaction) (row : Transaction) :
    (enrichBank txn row).rawDescription =
      if stripped txn.narration ≠ "" ∧ stripped row.rawDescription = "" then
        some (stripped txn.narration)
      else row.rawDescription := by
  simp [enrichBank]

theorem description_eq_iff :
    (enrichBank a row).rawDescription = (enrichBank b row).rawDescription ↔
      stripped a.narration = stripped b.narration ∨ stripped row.rawDescription ≠ "" := by
  rw [rawDescription_enrichBank, rawDescription_enrichBank]
  by_cases hstored : stripped row.rawDescription = ""
  · -- A narration that is written is not the blank text stored before it.
    have hnew : ∀ text : Option String, stripped text ≠ "" →
        some (stripped text) ≠ row.rawDescription := by
      intro text hne heq
      rw [← heq, stripped_some] at hstored
      exact hne hstored
    by_cases ha : stripped a.narration = ""
    · by_cases hb : stripped b.narration = ""
      · simp [ha, hb]
      · simp [ha, hb, hstored, (hnew b.narration hb).symm, Ne.symm hb]
    · by_cases hb : stripped b.narration = ""
      · simp [ha, hb, hstored, hnew a.narration ha]
      · simp [ha, hb, hstored]
  · simp [hstored]

/-! ### The name -/

/-- A placeholder is not the name that a fixed deposit's label replaces. -/
theorem not_nameOpen_of_self (h : lower (stripped row.counterparty) = "self") :
    ¬ NameOpen row := by
  have hspace : UnicodeTables.isSpace 's' = false := UnicodeTables.isSpace_letter 's' (by decide)
  have hstrip : strip (stripped row.counterparty) = stripped row.counterparty := strip_strip _
  rintro (hempty | hplaceholder)
  · rw [hempty] at h
    exact absurd h (by simp [lower, sigmas])
  · unfold isPlaceholderCounterparty at hplaceholder
    rw [hstrip, h] at hplaceholder
    revert hplaceholder
    simp [genericCounterparties, isMaskOnly, maskLabels, hspace]

theorem counterparty_enrichBank (txn : BankTransaction) (row : Transaction) :
    (enrichBank txn row).counterparty =
      if (bankRefreshIdentity txn).counterparty ≠ stripped row.counterparty ∧
          (Names txn ∧ NameOpen row ∨
            isFdCounterparty (bankRefreshIdentity txn).counterparty row.bank = true ∧
              lower (stripped row.counterparty) = "self") then
        some (bankRefreshIdentity txn).counterparty
      else row.counterparty := by
  have hname : (bankRefreshIdentity txn).counterparty =
      if stripped txn.counterparty ≠ "" then stripped txn.counterparty
      else stripped txn.narration := rfl
  rw [hname]
  simp [enrichBank, Names, NameOpen]

theorem name_eq_iff (h : bankRefreshIdentity a = bankRefreshIdentity b) :
    (enrichBank a row).counterparty = (enrichBank b row).counterparty ↔
      (Names a ↔ Names b) ∨
        (bankRefreshIdentity a).counterparty = stripped row.counterparty ∨ ¬ NameOpen row := by
  rw [counterparty_enrichBank, counterparty_enrichBank, ← h]
  by_cases hsame : (bankRefreshIdentity a).counterparty = stripped row.counterparty
  · simp [hsame]
  · by_cases hopen : NameOpen row
    · have hself : lower (stripped row.counterparty) ≠ "self" := fun hself =>
        not_nameOpen_of_self hself hopen
      -- A name that is written is not the one stored before it.
      have hnew : some (bankRefreshIdentity a).counterparty ≠ row.counterparty := by
        intro heq
        refine hsame ?_
        rw [← heq]
        unfold bankRefreshIdentity
        dsimp only
        split_ifs
        · rw [stripped_some]
        · rw [stripped_some]
      by_cases ha : Names a
      · by_cases hb : Names b
        · simp [ha, hb]
        · simp [hsame, hopen, hself, ha, hb, hnew]
      · by_cases hb : Names b
        · simp [hsame, hopen, hself, ha, hb, hnew.symm]
        · simp [ha, hb]
    · simp [hopen]

/-- **Two rows of one identity are interchangeable if they write alike**: equal narrations,
or a description stored already, and a name of their own in both or in neither, or a stored
name that is kept. -/
theorem enrichBank_eq_iff (h : bankRefreshIdentity a = bankRefreshIdentity b) :
    Interchangeable a b row ↔ WritesAlike a b row := by
  rw [interchangeable_iff, description_eq_iff, name_eq_iff h]
  constructor
  · rintro ⟨hdescription, hname⟩
    exact ⟨hdescription, hname⟩
  · intro halike
    exact ⟨halike.description, halike.name⟩

end

/-! ### Two payments to one payee -/

def upiPayment (narration : String) (counterparty : Option String) : BankTransaction where
  date := "05/03/2024"
  amount := "250.00"
  direction := .debit
  narration := some narration
  counterparty := counterparty
  referenceNumber := none
  channel := some "upi"
  balance := none

/-- The alert of one of them. -/
def mobileAlert : Transaction := alertRow 1 738950 250 .debit "Mobile XXXXX006"

theorem enrichBank_eq_iff_upiAlert :
    let _ := asciiTables
    let _ := asciiNarration
    bankRefreshIdentity (upiPayment "UPI/1/ACME" (some "Acme")) =
        bankRefreshIdentity (upiPayment "UPI/1/ACME" (some "Acme ")) ∧
      (Interchangeable (upiPayment "UPI/1/ACME" (some "Acme"))
          (upiPayment "UPI/1/ACME" (some "Acme ")) mobileAlert ↔
        WritesAlike (upiPayment "UPI/1/ACME" (some "Acme"))
          (upiPayment "UPI/1/ACME" (some "Acme ")) mobileAlert) := by
  let _ := asciiTables
  let _ := asciiNarration
  have hidentity : bankRefreshIdentity (upiPayment "UPI/1/ACME" (some "Acme")) =
      bankRefreshIdentity (upiPayment "UPI/1/ACME" (some "Acme ")) := by decide +kernel
  exact ⟨hidentity, enrichBank_eq_iff hidentity⟩

/-- Two payments to one payee have one identity, and each leaves its own description. -/
theorem description_depends :
    let _ := asciiTables
    let _ := asciiNarration
    bankRefreshIdentity (upiPayment "UPI/1/ACME" (some "Acme")) =
        bankRefreshIdentity (upiPayment "UPI/2/ACME" (some "Acme")) ∧
      ¬ Interchangeable (upiPayment "UPI/1/ACME" (some "Acme"))
        (upiPayment "UPI/2/ACME" (some "Acme")) mobileAlert := by
  let _ := asciiTables
  let _ := asciiNarration
  refine ⟨by decide +kernel, fun h => ?_⟩
  have hdescription := congrArg (·.rawDescription) h
  revert hdescription
  decide +kernel

end FinancialDashboard.Statements
