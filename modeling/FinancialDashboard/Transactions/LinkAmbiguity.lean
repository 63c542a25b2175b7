import FinancialDashboard.Transactions.Linker
import Mathlib.Data.Option.Basic

/-!
# Ambiguous masks

What `link_transaction` (`services/linker.py`) does with a mask that more than one card or
account matches.

Its steps refuse an ambiguous match each for itself: a card mask that the cards of two accounts
match is passed on to the numbers of the accounts, and then gives way to the account mask.

* `denoted_of_linked`: an account linked through a mask has a card or a number that matches.
* `refuses_iff`: an ambiguous card mask leaves a row unlinked if no number alone matches it,
  nor the account mask.
-/

namespace FinancialDashboard.Transactions

open PyText

section

variable [UnicodeTables] {ctx : LinkContext} {key mask bank emailType : String}
  {cardMask accountMask : Option String} {accountId : Nat} {cardId : Option Nat}

/-- The account with the id is at the bank. -/
def AtBank (ctx : LinkContext) (key : String) (accountId : Nat) : Prop :=
  ∃ account, ctx.accounts.find? (·.id = accountId) = some account ∧ bankKey account.bank = key

/-- The account, at the bank, has a card that the mask matches. -/
def CardMatches (ctx : LinkContext) (key mask : String) (accountId : Nat) : Prop :=
  AtBank ctx key accountId ∧
    ∃ card ∈ ctx.cards, card.accountId = accountId ∧
      maskMatches mask (normalizeMask card.cardMask) = true

/-- The account is at the bank, and the mask matches its number. -/
def numberMatches (key mask : String) (account : LinkAccount) : Bool :=
  bankKey account.bank = key && maskMatches mask (normalizeMask account.accountNumber)

/-- The mask matches the cards of more than one account of the bank. -/
def Ambiguous (ctx : LinkContext) (key mask : String) : Prop :=
  ∃ a b, a ≠ b ∧ CardMatches ctx key mask a ∧ CardMatches ctx key mask b

/-- The linker refuses to guess. -/
structure Refuses (ctx : LinkContext) (bank emailType : String)
    (cardMask accountMask : Option String) : Prop where
  unlinked : usable (normalizeMask cardMask) = true →
    Ambiguous ctx (bankKey bank) (normalizeMask cardMask) →
      linkTransaction ctx bank emailType cardMask accountMask = none
  /-- Not linked by the bank alone, a row is linked to an account that a mask of it denotes. -/
  denoted : ∀ accountId cardId,
    linkTransaction ctx bank emailType cardMask accountMask = some (accountId, cardId) →
      ¬ (cardMask.getD "" = "" ∧ accountMask.getD "" = "") →
        ∃ mask ∈ [cardMask, accountMask], usable (normalizeMask mask) = true ∧
          (CardMatches ctx (bankKey bank) (normalizeMask mask) accountId ∨
            ∃ account ∈ ctx.accounts, account.id = accountId ∧
              numberMatches (bankKey bank) (normalizeMask mask) account = true)

/-- The mask does not single out a number of the bank. -/
def NoSingleNumber (ctx : LinkContext) (key mask : String) : Prop :=
  (ctx.accounts.filter (numberMatches key mask)).length ≠ 1

/-! ### One match -/

omit [UnicodeTables] in
theorem onlyOne_eq_some {α : Type} {l : List α} {x : α} : onlyOne l = some x ↔ l = [x] := by
  match l with
  | [] => simp [onlyOne]
  | [a] => simp [onlyOne]
  | a :: b :: rest => simp [onlyOne]

omit [UnicodeTables] in
theorem onlyOne_eq_none {α : Type} {l : List α} : onlyOne l = none ↔ l.length ≠ 1 := by
  match l with
  | [] => simp [onlyOne]
  | [a] => simp [onlyOne]
  | a :: b :: rest => simp [onlyOne]

theorem mem_cardsByBank {stored : String} {card : Nat} :
    (stored, accountId, card) ∈ cardsByBank ctx key ↔
      AtBank ctx key accountId ∧ ∃ c ∈ ctx.cards, c.accountId = accountId ∧ c.id = card ∧
        normalizeMask c.cardMask = stored ∧ stored ≠ "" := by
  unfold cardsByBank AtBank
  rw [List.mem_filterMap]
  constructor
  · rintro ⟨c, hc, h⟩
    dsimp only at h
    split_ifs at h with hempty
    obtain ⟨account, hfind, h⟩ := Option.bind_eq_some_iff.mp h
    split_ifs at h with hbank
    obtain ⟨rfl, rfl, rfl⟩ : _ ∧ _ ∧ _ := by simpa using Option.some.inj h
    exact ⟨⟨account, hfind, hbank⟩, c, hc, rfl, rfl, rfl, hempty⟩
  · rintro ⟨⟨account, hfind, hbank⟩, c, hc, rfl, rfl, rfl, hempty⟩
    refine ⟨c, hc, ?_⟩
    dsimp only
    rw [if_neg hempty, hfind, Option.bind_some, if_pos hbank]

theorem cardMatches_iff : CardMatches ctx key mask accountId ↔
    ∃ entry ∈ (cardsByBank ctx key).filter fun card => maskMatches mask card.1,
      entry.2.1 = accountId := by
  constructor
  · rintro ⟨hbank, card, hcard, haccount, hmatch⟩
    have hempty : normalizeMask card.cardMask ≠ "" := by
      intro hempty
      rw [hempty] at hmatch
      simp [maskMatches] at hmatch
    refine ⟨(normalizeMask card.cardMask, accountId, card.id), List.mem_filter.mpr ⟨?_, hmatch⟩, rfl⟩
    exact mem_cardsByBank.mpr ⟨hbank, card, hcard, haccount, rfl, rfl, hempty⟩
  · rintro ⟨⟨stored, account, card⟩, hentry, rfl⟩
    obtain ⟨hmem, hmatch⟩ := List.mem_filter.mp hentry
    obtain ⟨hbank, c, hc, haccount, -, hstored, -⟩ := mem_cardsByBank.mp hmem
    exact ⟨hbank, c, hc, haccount, hstored ▸ hmatch⟩

/-- **A step that finds the cards of two accounts finds none.** -/
theorem findCardMatch_of_ambiguous (h : Ambiguous ctx key mask) :
    findCardMatch ctx key mask = none := by
  obtain ⟨a, b, hne, ha, hb⟩ := h
  obtain ⟨entry, hentry, rfl⟩ := cardMatches_iff.mp ha
  obtain ⟨entry', hentry', rfl⟩ := cardMatches_iff.mp hb
  unfold findCardMatch
  cases honly : onlyOne ((cardsByBank ctx key).filter fun card => maskMatches mask card.1) with
  | none => rfl
  | some x =>
    rw [onlyOne_eq_some.mp honly] at hentry hentry'
    rw [List.mem_singleton.mp hentry, List.mem_singleton.mp hentry'] at hne
    exact absurd rfl hne

theorem filter_accountsByBankWithMasks (ctx : LinkContext) (key mask : String) :
    (accountsByBankWithMasks ctx key).filter (fun account => maskMatches mask account.1) =
      (ctx.accounts.filter (numberMatches key mask)).map fun account =>
        (normalizeMask account.accountNumber, account.id) := by
  unfold accountsByBankWithMasks
  rw [List.filter_filterMap, ← List.filterMap_eq_map, List.filterMap_filter]
  refine List.filterMap_congr fun account _ => ?_
  dsimp only
  unfold numberMatches
  by_cases hbank : bankKey account.bank = key
  · by_cases hempty : normalizeMask account.accountNumber = ""
    · simp [hempty, maskMatches]
    · by_cases hmatch : maskMatches mask (normalizeMask account.accountNumber) = true
      · simp [hbank, hempty, hmatch]
      · simp [hbank, hempty, hmatch]
  · simp [hbank]

theorem findAccountMatch_eq_none : findAccountMatch ctx key mask = none ↔
    NoSingleNumber ctx key mask := by
  unfold findAccountMatch NoSingleNumber
  rw [Option.map_eq_none_iff, onlyOne_eq_none, filter_accountsByBankWithMasks, List.length_map]

theorem mem_of_findAccountMatch (h : findAccountMatch ctx key mask = some accountId) :
    ∃ account ∈ ctx.accounts, account.id = accountId ∧ numberMatches key mask account = true := by
  unfold findAccountMatch at h
  rw [filter_accountsByBankWithMasks] at h
  obtain ⟨entry, honly, rfl⟩ := Option.map_eq_some_iff.mp h
  have hmem := onlyOne_eq_some.mp honly ▸ List.mem_singleton.mpr rfl
  obtain ⟨account, haccount, rfl⟩ := List.mem_map.mp hmem
  obtain ⟨hmem, hmatch⟩ := List.mem_filter.mp haccount
  exact ⟨account, hmem, rfl, hmatch⟩

/-! ### The steps together -/

/-- Where the link of a row comes from. -/
theorem linkTransaction_eq_some
    (h : linkTransaction ctx bank emailType cardMask accountMask = some (accountId, cardId)) :
    (usable (normalizeMask cardMask) = true ∧
      ∃ card, findCardMatch ctx (bankKey bank) (normalizeMask cardMask) = some (accountId, card)) ∨
    (usable (normalizeMask cardMask) = true ∧
      findAccountMatch ctx (bankKey bank) (normalizeMask cardMask) = some accountId) ∨
    (usable (normalizeMask accountMask) = true ∧
      findAccountMatch ctx (bankKey bank) (normalizeMask accountMask) = some accountId) ∨
    (cardMask.getD "" = "" ∧ accountMask.getD "" = "") := by
  unfold linkTransaction at h
  dsimp only at h
  cases hcard : (if usable (normalizeMask cardMask) = true then
      findCardMatch ctx (bankKey bank) (normalizeMask cardMask) else none) with
  | some found =>
    rw [hcard] at h
    obtain ⟨rfl, -⟩ := Prod.mk.inj (Option.some.inj h)
    split_ifs at hcard with husable
    exact .inl ⟨husable, found.2, hcard⟩
  | none =>
    rw [hcard] at h
    obtain ⟨found, hfound, heq⟩ := Option.map_eq_some_iff.mp h
    obtain ⟨rfl, -⟩ := Prod.mk.inj heq
    rcases (Option.orElse_eq_some _ _ _).mp hfound with hnumber | ⟨-, hrest⟩
    · split_ifs at hnumber with husable
      exact .inr (.inl ⟨husable, hnumber⟩)
    · rcases (Option.orElse_eq_some _ _ _).mp hrest with haccount | ⟨-, hbank⟩
      · split_ifs at haccount with husable
        exact .inr (.inr (.inl ⟨husable, haccount⟩))
      · split_ifs at hbank with hempty
        exact .inr (.inr (.inr hempty))

theorem cardMatches_of_findCardMatch {card : Nat}
    (h : findCardMatch ctx key mask = some (accountId, card)) :
    CardMatches ctx key mask accountId := by
  unfold findCardMatch at h
  obtain ⟨entry, honly, heq⟩ := Option.map_eq_some_iff.mp h
  have hmem := onlyOne_eq_some.mp honly ▸ List.mem_singleton.mpr rfl
  exact cardMatches_iff.mpr ⟨entry, hmem, congrArg Prod.fst heq⟩

/-- **An account linked through a mask has a card or a number that the mask matches.** -/
theorem denoted_of_linked
    (h : linkTransaction ctx bank emailType cardMask accountMask = some (accountId, cardId))
    (hmask : ¬ (cardMask.getD "" = "" ∧ accountMask.getD "" = "")) :
    ∃ mask ∈ [cardMask, accountMask], usable (normalizeMask mask) = true ∧
      (CardMatches ctx (bankKey bank) (normalizeMask mask) accountId ∨
        ∃ account ∈ ctx.accounts, account.id = accountId ∧
          numberMatches (bankKey bank) (normalizeMask mask) account = true) := by
  have hcard : cardMask ∈ [cardMask, accountMask] := List.mem_cons_self
  have haccount : accountMask ∈ [cardMask, accountMask] :=
    List.mem_cons_of_mem _ (List.mem_singleton.mpr rfl)
  rcases linkTransaction_eq_some h with ⟨husable, card, hfound⟩ | ⟨husable, hfound⟩ |
    ⟨husable, hfound⟩ | hempty
  · exact ⟨cardMask, hcard, husable, .inl (cardMatches_of_findCardMatch hfound)⟩
  · exact ⟨cardMask, hcard, husable, .inr (mem_of_findAccountMatch hfound)⟩
  · exact ⟨accountMask, haccount, husable, .inr (mem_of_findAccountMatch hfound)⟩
  · exact absurd hempty hmask

theorem getD_ne_empty_of_usable (h : usable (normalizeMask cardMask) = true) :
    cardMask.getD "" ≠ "" := by
  intro hempty
  have hnorm : normalizeMask cardMask = "" := by
    cases cardMask with
    | none => rfl
    | some s =>
      obtain rfl : s = "" := hempty
      simp [normalizeMask, normalizeChars]
  rw [hnorm] at h
  exact absurd h (by decide)

/-- After an ambiguous card mask only the numbers are left. -/
theorem linkTransaction_eq_none (husable : usable (normalizeMask cardMask) = true)
    (hambiguous : Ambiguous ctx (bankKey bank) (normalizeMask cardMask)) :
    linkTransaction ctx bank emailType cardMask accountMask = none ↔
      NoSingleNumber ctx (bankKey bank) (normalizeMask cardMask) ∧
        (usable (normalizeMask accountMask) = true →
          NoSingleNumber ctx (bankKey bank) (normalizeMask accountMask)) := by
  have hmask : ¬ (cardMask.getD "" = "" ∧ accountMask.getD "" = "") :=
    fun h => getD_ne_empty_of_usable husable h.1
  unfold linkTransaction
  dsimp only
  rw [if_pos husable, if_pos husable, findCardMatch_of_ambiguous hambiguous, if_neg hmask]
  dsimp only
  rw [Option.map_eq_none_iff, Option.orElse_eq_none, Option.orElse_eq_none,
    findAccountMatch_eq_none]
  by_cases haccount : usable (normalizeMask accountMask) = true
  · rw [if_pos haccount, findAccountMatch_eq_none]
    simp [haccount]
  · rw [if_neg haccount]
    simp [haccount]

/-- **The linker refuses to guess if no number alone matches an ambiguous card mask**, nor the
account mask beside it. -/
theorem refuses_iff (ctx : LinkContext) (bank emailType : String)
    (cardMask accountMask : Option String) :
    Refuses ctx bank emailType cardMask accountMask ↔
      (usable (normalizeMask cardMask) = true →
        Ambiguous ctx (bankKey bank) (normalizeMask cardMask) →
          NoSingleNumber ctx (bankKey bank) (normalizeMask cardMask) ∧
            (usable (normalizeMask accountMask) = true →
              NoSingleNumber ctx (bankKey bank) (normalizeMask accountMask))) := by
  constructor
  · intro h husable hambiguous
    exact (linkTransaction_eq_none husable hambiguous).mp (h.unlinked husable hambiguous)
  · intro h
    refine ⟨fun husable hambiguous => ?_, fun accountId cardId hlink hmask =>
      denoted_of_linked hlink hmask⟩
    exact (linkTransaction_eq_none husable hambiguous).mpr (h husable hambiguous)

end

/-! ### Two cards that end alike -/

/-- A savings account, whose number ends like its card and like the card of another account. -/
def endingAlike : LinkContext where
  accounts := [⟨1, "hdfc", some "bank_account", some "50100001234"⟩,
    ⟨2, "hdfc", some "credit_card", none⟩]
  cards := [⟨1, 1, some "XX1234"⟩, ⟨2, 2, some "4000 XXXX XXXX 1234"⟩]

/-- The cards of both match, and the row is linked to the one with the number. -/
theorem guesses :
    let _ := asciiTables
    Ambiguous endingAlike (bankKey "hdfc") (normalizeMask (some "XX1234")) ∧
      linkTransaction endingAlike "hdfc" "hdfc_dc_alert" (some "XX1234") none = some (1, none) ∧
      ¬ Refuses endingAlike "hdfc" "hdfc_dc_alert" (some "XX1234") none := by
  let _ := asciiTables
  have hcards : ((cardsByBank endingAlike (bankKey "hdfc")).filter fun card =>
      maskMatches (normalizeMask (some "XX1234")) card.1).map (·.2.1) = [1, 2] := by
    decide +kernel
  have husable : usable (normalizeMask (some "XX1234")) = true := by decide +kernel
  have hlink : linkTransaction endingAlike "hdfc" "hdfc_dc_alert" (some "XX1234") none =
      some (1, none) := by
    decide +kernel
  intro _
  have hmatches : ∀ accountId ∈ [1, 2],
      CardMatches endingAlike (bankKey "hdfc") (normalizeMask (some "XX1234")) accountId := by
    intro accountId hmem
    rw [← hcards] at hmem
    obtain ⟨entry, hentry, heq⟩ := List.mem_map.mp hmem
    exact cardMatches_iff.mpr ⟨entry, hentry, heq⟩
  have hambiguous : Ambiguous endingAlike (bankKey "hdfc") (normalizeMask (some "XX1234")) :=
    ⟨1, 2, by decide, hmatches 1 (by decide), hmatches 2 (by decide)⟩
  refine ⟨hambiguous, hlink, fun h => ?_⟩
  rw [h.unlinked husable hambiguous] at hlink
  cases hlink

end FinancialDashboard.Transactions
