import FinancialDashboard.Categorization.Engine
import FinancialDashboard.Transactions.Maskings

/-!
# The two legs of a self transfer

Which pairs of rows `apply_reference_self_transfer_rule` marks
(`services/categorization/self_transfer.py`), against the account numbers that the masks of
the two rows can be maskings of.

Rows of which one is not linked are told apart by the digits of their masks, run together
whatever was hidden between them; the masks themselves are read by position.

* `neverSame_iff`: a pair on one account number is marked if two masks that match have digits
  of which neither end the others.
* `shows_before`: one of these masks shows a digit before a hidden one.
-/

namespace FinancialDashboard.Categorization

open PyText
open Transactions (SameNumber ShownAtEnd maskDigits maskMatches normalizeMask sameNumber_iff
  endsWith_of_shownAtEnd)
open Cashflow (selfTransferSlug)

section

variable [UnicodeTables] {t : Table transactions} {txn other : CategorizedTransaction}
  {first second : Option String}

/-- The rule, applied to the first row, marks the two rows. -/
def MarksPair (t : Table transactions) (txn other : CategorizedTransaction) : Prop :=
  referenceRuleApplies txn t = true ∧ other ∈ otherLegs txn t

/-- A pair that is marked, with a row that is not linked, is not on one account number. -/
def NeverSame (t : Table transactions) (txn other : CategorizedTransaction) : Prop :=
  MarksPair t txn other → (txn.accountId = none ∨ other.accountId = none) →
    ¬ SameNumber txn.accountMask other.accountMask

/-- The rows are the two legs of one reference, and none is a fixed deposit. -/
structure Legs (t : Table transactions) (txn other : CategorizedTransaction) : Prop where
  stored : other ∈ t.rows
  reference : other.referenceNumber = txn.referenceNumber
  not_blank : strip (txn.referenceNumber.getD "") ≠ ""
  opposite : oppositeDirection txn.direction = some other.direction
  no_deposit : isFdCounterparty txn.counterparty (some txn.bank) = false
  no_deposit' : isFdCounterparty other.counterparty (some other.bank) = false

/-- The masks match, but of their digits, run together, neither end the others. -/
structure RunTogether (first second : Option String) : Prop where
  enough : 3 ≤ (maskDigits first).length
  enough' : 3 ≤ (maskDigits second).length
  not_ending : endsWith (maskDigits first) (maskDigits second) = false
  not_ending' : endsWith (maskDigits second) (maskDigits first) = false
  matched : maskMatches (normalizeMask first) (normalizeMask second) = true

omit [UnicodeTables] in
theorem differentAccounts_iff (h : txn.accountId = none ∨ other.accountId = none) :
    differentAccounts txn other = true ↔
      (3 ≤ (maskDigits txn.accountMask).length ∧ 3 ≤ (maskDigits other.accountMask).length) ∧
        endsWith (maskDigits txn.accountMask) (maskDigits other.accountMask) = false ∧
          endsWith (maskDigits other.accountMask) (maskDigits txn.accountMask) = false := by
  have hmasks : differentAccounts txn other =
      if (maskDigits txn.accountMask).length < 3 ∨ (maskDigits other.accountMask).length < 3 then
        false
      else !(endsWith (maskDigits txn.accountMask) (maskDigits other.accountMask) ||
        endsWith (maskDigits other.accountMask) (maskDigits txn.accountMask)) := by
    unfold differentAccounts
    rcases h with h | h
    · rw [h]
    · rw [h]
      cases txn.accountId <;> rfl
  rw [hmasks]
  by_cases hshort : (maskDigits txn.accountMask).length < 3 ∨
      (maskDigits other.accountMask).length < 3
  · rw [if_pos hshort]
    constructor
    · exact fun h => absurd h Bool.false_ne_true
    · rintro ⟨⟨henough, henough'⟩, -⟩
      omega
  · rw [if_neg hshort, Bool.not_eq_true', Bool.or_eq_false_iff]
    exact ⟨fun h => ⟨by omega, h⟩, And.right⟩

theorem mem_otherLegs : other ∈ otherLegs txn t ↔
    other ∈ t.rows ∧ other.referenceNumber = txn.referenceNumber ∧
      oppositeDirection txn.direction = some other.direction ∧
        differentAccounts txn other = true ∧
          isFdCounterparty other.counterparty (some other.bank) = false := by
  unfold otherLegs
  cases hopposite : oppositeDirection txn.direction with
  | none => simp
  | some opposite =>
    simp only [List.mem_filter, Bool.and_eq_true, decide_eq_true_eq, Bool.not_eq_true',
      Option.some.injEq]
    constructor
    · rintro ⟨hmem, ⟨⟨href, hdir⟩, hdiff⟩, hfd⟩
      exact ⟨hmem, href, hdir.symm, hdiff, hfd⟩
    · rintro ⟨hmem, href, hdir, hdiff, hfd⟩
      exact ⟨hmem, ⟨⟨href, hdir.symm⟩, hdiff⟩, hfd⟩

theorem marksPair_iff : MarksPair t txn other ↔
    Legs t txn other ∧ differentAccounts txn other = true := by
  unfold MarksPair referenceRuleApplies
  rw [mem_otherLegs, Bool.and_eq_true, Bool.and_eq_true, Bool.not_eq_true', decide_eq_true_eq,
    decide_eq_true_eq]
  constructor
  · rintro ⟨⟨⟨hfd, hblank⟩, -⟩, hmem, href, hdir, hdiff, hfd'⟩
    exact ⟨⟨hmem, href, hblank, hdir, hfd, hfd'⟩, hdiff⟩
  · rintro ⟨⟨hmem, href, hblank, hdir, hfd, hfd'⟩, hdiff⟩
    have hleg := mem_otherLegs.mpr ⟨hmem, href, hdir, hdiff, hfd'⟩
    exact ⟨⟨⟨hfd, hblank⟩, List.ne_nil_of_mem hleg⟩, hmem, href, hdir, hdiff, hfd'⟩

/-- What is marked is stored as a self transfer. -/
theorem category_of_marksPair (env : Env) (h : MarksPair t txn other)
    {row : CategorizedTransaction} (hrow : row ∈ applyReferenceSelfTransferRule env txn t)
    (hid : row.id = txn.id ∨ row.id = other.id) : row.category = some selfTransferSlug := by
  unfold applyReferenceSelfTransferRule at hrow
  rw [if_pos h.1] at hrow
  obtain ⟨before, -, ⟨-, rfl⟩ | ⟨hneither, rfl⟩⟩ := Table.mem_update.mp hrow
  · have hmarked : (markSelfTransfer env before).category = some selfTransferSlug := by
      unfold markSelfTransfer
      dsimp only
      split_ifs <;> rfl
    exact hmarked
  · rw [Bool.or_eq_false_iff] at hneither
    rcases hid with hid | hid
    · exact absurd hid (of_decide_eq_false hneither.1)
    · have hany : ((otherLegs txn t).any fun other => row.id = other.id) = true :=
        List.any_eq_true.mpr ⟨other, h.2, decide_eq_true hid⟩
      rw [hneither.2] at hany
      cases hany

/-- **A marked pair is never on one account number, unless its masks match while of their
digits neither end the others.** -/
theorem neverSame_iff (t : Table transactions) (txn other : CategorizedTransaction) :
    NeverSame t txn other ↔ ¬ (Legs t txn other ∧
      (txn.accountId = none ∨ other.accountId = none) ∧
        RunTogether txn.accountMask other.accountMask) := by
  unfold NeverSame
  rw [marksPair_iff, sameNumber_iff]
  constructor
  · rintro h ⟨hlegs, hunlinked, ⟨henough, henough', hending, hending', hmatched⟩⟩
    refine h ⟨hlegs, ?_⟩ hunlinked hmatched
    exact (differentAccounts_iff hunlinked).mpr ⟨⟨henough, henough'⟩, hending, hending'⟩
  · rintro h ⟨hlegs, hdiff⟩ hunlinked hmatched
    obtain ⟨⟨henough, henough'⟩, hending, hending'⟩ := (differentAccounts_iff hunlinked).mp hdiff
    exact h ⟨hlegs, hunlinked, henough, henough', hending, hending', hmatched⟩

/-- One of the masks shows a digit before a hidden one. -/
theorem shows_before (h : RunTogether first second) : ¬ (ShownAtEnd first ∧ ShownAtEnd second) := by
  rintro ⟨hfirst, hsecond⟩
  rcases endsWith_of_shownAtEnd hfirst hsecond h.matched with hending | hending
  · rw [h.not_ending] at hending
    cases hending
  · rw [h.not_ending'] at hending
    cases hending

end

/-! ### One account, marked -/

/-- A leg of a transfer with a reference, not linked yet. -/
def leg (id : Nat) (direction accountMask : String) : CategorizedTransaction :=
  { freshRow direction "hdfc_account_alert" "Asha" none 1 with
    id := id
    accountId := none
    accountMask := some accountMask
    referenceNumber := some "412345678901" }

/-- A debit of an account and its reversal, which shows the whole number. -/
def legs : Table transactions where
  rows := [leg 1 "debit" "73XXXXXX3942", leg 2 "credit" "730055113942"]
  ids := by decide
  unique := by decide +kernel

/-- The two are marked, though both are on the account 730055113942. -/
theorem marked_on_one_account :
    let _ := asciiTables
    MarksPair legs (leg 1 "debit" "73XXXXXX3942") (leg 2 "credit" "730055113942") ∧
      SameNumber (some "73XXXXXX3942") (some "730055113942") ∧
      ¬ NeverSame legs (leg 1 "debit" "73XXXXXX3942") (leg 2 "credit" "730055113942") := by
  let _ := asciiTables
  have hrule : referenceRuleApplies (leg 1 "debit" "73XXXXXX3942") legs = true := by
    decide +kernel
  have hleg : leg 2 "credit" "730055113942" ∈ otherLegs (leg 1 "debit" "73XXXXXX3942") legs := by
    decide +kernel
  have hmatch : maskMatches (normalizeMask (some "73XXXXXX3942"))
      (normalizeMask (some "730055113942")) = true := by
    decide +kernel
  intro _
  have hsame := sameNumber_iff.mpr hmatch
  exact ⟨⟨hrule, hleg⟩, hsame, fun h => h ⟨hrule, hleg⟩ (.inl rfl) hsame⟩

end FinancialDashboard.Categorization
