import FinancialDashboard.Transactions.Linker
import FinancialDashboard.Transactions.Maskings
import Mathlib.Data.List.Dedup
import Mathlib.Data.List.Nodup

/-!
# The account a card statement is for

`_match_account_by_mask`, `_mask_refutes` and the choice of
`process_cc_statement_email_summary` of `services/statements/cc.py`: among several accounts
of the bank the printed mask has to denote one, and the only account of a bank is taken
unless its masks speak against the printed one.

Two masks are in `Conflict`, or they agree wherever both show a digit.  Of masks that agree,
one that ends in a digit denotes the account, and one that does not says nothing.

* `maskMatches_iff`: two masks match if both can be read and they are not in conflict.
* `matchAccountByMask_eq_some`: the account that is matched is the only one denoted.
* `summaryAccount_of_only`: the only account of a bank is refused when it is refuted.
* `statementAccount_unique`: the two together.
-/

namespace FinancialDashboard.Statements

open PyText Transactions

/-- What the choice reads of a row of `accounts`. -/
structure CcAccount where
  id : Nat
  bank : String
  type : String
  active : Option Bool
  accountNumber : Option String
  deriving DecidableEq, Repr

/-- What it reads of a row of `cards`; a card that is no longer active counts too. -/
structure CcCard where
  accountId : Nat
  cardMask : String
  deriving DecidableEq, Repr

structure CardTables where
  accounts : List CcAccount
  nodup_ids : (accounts.map (·.id)).Nodup
  cards : List CcCard

/-- What the choice reads of a `StatementSummary`. -/
structure StatementSummary where
  totalAmountDue : Option Rat
  dueDate : Option Int
  cardMask : Option String

/-- Why `process_cc_statement_email_summary` stores no upload. -/
inductive SummaryRefusal
  | noSummary | incomplete | noAccount | disagrees | noTrailingDigits | noSingleAccount
  deriving DecidableEq, Repr

/-- `func.lower` of the database, which knows the plain letters only. -/
def sqlLower (s : String) : String := String.ofList (s.toList.map Char.toLower)

section

variable [UnicodeTables]

/-- `_stored_masks_by_account` of one account. -/
def storedMasks (cards : List CcCard) (account : CcAccount) : List String :=
  (normalizeMask account.accountNumber ::
    (cards.filter (·.accountId = account.id)).map fun card =>
      normalizeMask (some card.cardMask)).filter (· ≠ "")

omit [UnicodeTables] in
/-- `_mask_refutes`. -/
def maskRefutes (stmtMask : String) (stored : List String) : Bool :=
  stmtMask.toList.any isMaskDigit && !stored.isEmpty && !stored.any (maskMatches stmtMask)

omit [UnicodeTables] in
/-- A stored mask of an account that the statement's denotes. -/
def identifies (stmtMask stored : String) : Bool :=
  0 < trailingVisibleDigits stored && maskMatches stmtMask stored

/-- `_match_account_by_mask`: the ids that match are a set. -/
def matchAccountByMask (cards : List CcCard) (ccAccounts : List CcAccount) (stmtMask : String) :
    Option CcAccount :=
  let matched := ccAccounts.filter fun account =>
    (storedMasks cards account).any (identifies stmtMask)
  match (matched.map (·.id)).dedup with
  | [id] => ccAccounts.find? (·.id = id)
  | _ => none

/-- The active credit cards of a bank. -/
def CardTables.ccAccounts (tables : CardTables) (bank : String) : List CcAccount :=
  tables.accounts.filter fun account =>
    sqlLower account.bank = lower bank && account.type = "credit_card" &&
      account.active = some true

/-- `process_cc_statement_email_summary` up to the account that the upload is stored for. -/
def summaryAccount (tables : CardTables) (bank : String) (statement : Option StatementSummary) :
    Except SummaryRefusal CcAccount :=
  match statement with
  | none => .error .noSummary
  | some summary =>
    if summary.totalAmountDue.isNone || summary.dueDate.isNone then .error .incomplete
    else
      let stmtMask := normalizeMask summary.cardMask
      match tables.ccAccounts bank with
      | [] => .error .noAccount
      | [account] =>
        if maskRefutes stmtMask (storedMasks tables.cards account) then .error .disagrees
        else .ok account
      | accounts =>
        if trailingVisibleDigits stmtMask = 0 then .error .noTrailingDigits
        else match matchAccountByMask tables.cards accounts stmtMask with
          | none => .error .noSingleAccount
          | some account => .ok account

end

/-! ### What two masks say of each other -/

/-- At one place, counted from the right, the masks show different digits. -/
def Conflict (a b : String) : Prop :=
  ∃ (i : Nat) (p s : Char), a.toList.reverse[i]? = some p ∧ b.toList.reverse[i]? = some s ∧
    isMaskDigit p = true ∧ isMaskDigit s = true ∧ p ≠ s

/-- The last place of the mask shows a digit. -/
def EndsInDigit (mask : String) : Prop :=
  ∃ c, mask.toList.getLast? = some c ∧ isMaskDigit c = true

/-- The mask shows a digit somewhere. -/
def ShowsDigit (mask : String) : Prop := ∃ c ∈ mask.toList, isMaskDigit c = true

theorem not_positionMatches_iff {p s : Char} (hp : IsPosition p) (hs : IsPosition s) :
    positionMatches p s = false ↔ isMaskDigit p = true ∧ isMaskDigit s = true ∧ p ≠ s := by
  simp only [positionMatches, Bool.or_eq_false_iff, decide_eq_false_iff_not]
  constructor
  · rintro ⟨⟨hp', hs'⟩, hne⟩
    exact ⟨hp.resolve_right hp', hs.resolve_right hs', hne⟩
  · rintro ⟨hp', hs', hne⟩
    exact ⟨⟨ne_wildcard_of_digit hp', ne_wildcard_of_digit hs'⟩, hne⟩

theorem trailingVisibleDigits_pos_iff {mask : String} :
    0 < trailingVisibleDigits mask ↔ EndsInDigit mask := by
  unfold trailingVisibleDigits EndsInDigit
  rw [← List.head?_reverse]
  cases mask.toList.reverse with
  | nil => simp
  | cons c rest =>
    by_cases hc : isMaskDigit c = true
    · simp [List.takeWhile_cons_of_pos hc, hc]
    · simp [List.takeWhile_cons_of_neg hc, hc]

section

variable [UnicodeTables] {a b : Option String}

/-- **Two masks match if both can be read and they are not in conflict.** -/
theorem maskMatches_iff : maskMatches (normalizeMask a) (normalizeMask b) = true ↔
    normalizeMask a ≠ "" ∧ normalizeMask b ≠ "" ∧
      ¬ Conflict (normalizeMask a) (normalizeMask b) := by
  unfold maskMatches
  rw [Bool.and_eq_true, Bool.and_eq_true, decide_eq_true_eq, decide_eq_true_eq, and_assoc]
  refine and_congr_right fun ha => and_congr_right fun hb => ?_
  rw [List.all_eq_true]
  constructor
  · rintro hall ⟨i, p, s, hp, hs, hdigits⟩
    have hmem : (p, s) ∈ (normalizeMask a).toList.reverse.zip (normalizeMask b).toList.reverse :=
      List.mem_iff_getElem?.mpr ⟨i, List.getElem?_zip_eq_some.mpr ⟨hp, hs⟩⟩
    have hmiss := (not_positionMatches_iff (isPosition_of_mem ha p (List.mem_of_getElem? hp))
      (isPosition_of_mem hb s (List.mem_of_getElem? hs))).mpr hdigits
    exact absurd (hall (p, s) hmem) (by simp [hmiss])
  · rintro hnone ⟨p, s⟩ hmem
    obtain ⟨i, hi⟩ := List.mem_iff_getElem?.mp hmem
    obtain ⟨hp, hs⟩ := List.getElem?_zip_eq_some.mp hi
    by_contra hmiss
    refine hnone ⟨i, p, s, hp, hs, ?_⟩
    exact (not_positionMatches_iff (isPosition_of_mem ha p (List.mem_of_getElem? hp))
      (isPosition_of_mem hb s (List.mem_of_getElem? hs))).mp (Bool.not_eq_true _ ▸ hmiss)

/-! ### What the masks of an account say of a printed one -/

/-- The account answers to the mask, with its number or one of its cards. -/
def AnswersTo (cards : List CcCard) (account : CcAccount) (mask : String) : Prop :=
  mask ≠ "" ∧ (normalizeMask account.accountNumber = mask ∨
    ∃ card ∈ cards, card.accountId = account.id ∧ normalizeMask (some card.cardMask) = mask)

/-- The printed mask can be read, and the account answers to one that ends in a digit and is
not in conflict with it. -/
def Denotes (cards : List CcCard) (printed : Option String) (account : CcAccount) : Prop :=
  normalizeMask printed ≠ "" ∧ ∃ mask, AnswersTo cards account mask ∧ EndsInDigit mask ∧
    ¬ Conflict (normalizeMask printed) mask

/-- The printed mask shows a digit, and is in conflict with every mask that the account answers
to; and it answers to one. -/
def Refutes (cards : List CcCard) (printed : Option String) (account : CcAccount) : Prop :=
  ShowsDigit (normalizeMask printed) ∧ (∃ mask, AnswersTo cards account mask) ∧
    ∀ mask, AnswersTo cards account mask → Conflict (normalizeMask printed) mask

variable {cards : List CcCard} {account : CcAccount} {mask bank : String}
  {printed : Option String} {tables : CardTables} {accounts : List CcAccount}

theorem mem_storedMasks : mask ∈ storedMasks cards account ↔ AnswersTo cards account mask := by
  unfold storedMasks AnswersTo
  rw [List.mem_filter, List.mem_cons, List.mem_map, decide_eq_true_eq, and_comm,
    eq_comm (a := mask)]
  simp only [List.mem_filter, decide_eq_true_eq, and_assoc]

/-- A stored mask is the reading of a text. -/
theorem AnswersTo.exists_text (h : AnswersTo cards account mask) :
    ∃ text, normalizeMask text = mask := by
  rcases h.2 with hnumber | ⟨card, -, -, hcard⟩
  · exact ⟨_, hnumber⟩
  · exact ⟨_, hcard⟩

theorem AnswersTo.matches_iff (h : AnswersTo cards account mask) :
    maskMatches (normalizeMask printed) mask = true ↔
      normalizeMask printed ≠ "" ∧ ¬ Conflict (normalizeMask printed) mask := by
  obtain ⟨text, rfl⟩ := h.exists_text
  rw [maskMatches_iff]
  exact and_congr_right fun _ => and_iff_right h.1

theorem any_identifies_iff :
    (storedMasks cards account).any (identifies (normalizeMask printed)) = true ↔
      Denotes cards printed account := by
  rw [List.any_eq_true]
  constructor
  · rintro ⟨mask, hmem, hidentifies⟩
    have hanswers := mem_storedMasks.mp hmem
    unfold identifies at hidentifies
    rw [Bool.and_eq_true, decide_eq_true_eq, trailingVisibleDigits_pos_iff,
      hanswers.matches_iff] at hidentifies
    obtain ⟨hdigit, hreadable, hagree⟩ := hidentifies
    exact ⟨hreadable, mask, hanswers, hdigit, hagree⟩
  · rintro ⟨hreadable, mask, hanswers, hdigit, hagree⟩
    refine ⟨mask, mem_storedMasks.mpr hanswers, ?_⟩
    unfold identifies
    rw [Bool.and_eq_true, decide_eq_true_eq, trailingVisibleDigits_pos_iff, hanswers.matches_iff]
    exact ⟨hdigit, hreadable, hagree⟩

theorem maskRefutes_iff :
    maskRefutes (normalizeMask printed) (storedMasks cards account) = true ↔
      Refutes cards printed account := by
  have hshown : ShowsDigit (normalizeMask printed) → normalizeMask printed ≠ "" := by
    rintro ⟨c, hc, -⟩ hempty
    rw [hempty] at hc
    exact absurd hc List.not_mem_nil
  have hsome : (storedMasks cards account).isEmpty = false ↔
      ∃ mask, AnswersTo cards account mask := by
    rw [List.isEmpty_eq_false_iff_exists_mem]
    exact exists_congr fun mask => mem_storedMasks
  unfold maskRefutes Refutes
  rw [Bool.and_eq_true, Bool.and_eq_true, Bool.not_eq_true', Bool.not_eq_true', hsome,
    List.any_eq_true, List.any_eq_false, and_assoc]
  refine and_congr_right fun hdigit => and_congr_right fun _ => ?_
  constructor
  · intro hnone mask hanswers
    by_contra hagree
    exact hnone mask (mem_storedMasks.mpr hanswers)
      (hanswers.matches_iff.mpr ⟨hshown hdigit, hagree⟩)
  · intro hall mask hmem hmatch
    have hanswers := mem_storedMasks.mp hmem
    exact (hanswers.matches_iff.mp hmatch).2 (hall mask hanswers)

/-! ### The choice -/

omit [UnicodeTables] in
theorem find_of_id (hids : (accounts.map (·.id)).Nodup) (h : account ∈ accounts) :
    accounts.find? (·.id = account.id) = some account := by
  cases hfind : accounts.find? (·.id = account.id) with
  | none => simpa using List.find?_eq_none.mp hfind account h
  | some found =>
    have hid : found.id = account.id := by simpa using List.find?_some hfind
    rw [List.inj_on_of_nodup_map hids (List.mem_of_find?_eq_some hfind) h hid]

/-- **The account that is matched is the only one that the printed mask denotes.** -/
theorem matchAccountByMask_eq_some (hids : (accounts.map (·.id)).Nodup) :
    matchAccountByMask cards accounts (normalizeMask printed) = some account ↔
      (account ∈ accounts ∧ Denotes cards printed account) ∧
        ∀ other ∈ accounts, Denotes cards printed other → other = account := by
  set matched := accounts.filter fun account =>
    (storedMasks cards account).any (identifies (normalizeMask printed)) with hmatched
  have hmem : ∀ other, other ∈ matched ↔ other ∈ accounts ∧ Denotes cards printed other :=
    fun other => by rw [hmatched, List.mem_filter, any_identifies_iff]
  have hnodup : (matched.map (·.id)).Nodup := hids.sublist (List.filter_sublist.map _)
  have hunfold : matchAccountByMask cards accounts (normalizeMask printed) =
      match matched.map (·.id) with
      | [id] => accounts.find? (·.id = id)
      | _ => none := by
    conv_rhs => rw [← hnodup.dedup]
    rfl
  rw [hunfold]
  match matched, hmem, hnodup with
  | [], hmem, _ =>
    refine iff_of_false nofun fun h => ?_
    exact absurd ((hmem account).mpr h.1) List.not_mem_nil
  | [only], hmem, _ =>
    have honly : only ∈ accounts ∧ Denotes cards printed only :=
      (hmem only).mp (List.mem_singleton_self only)
    rw [List.map_singleton]
    dsimp only
    rw [find_of_id hids honly.1]
    constructor
    · rintro heq
      obtain rfl := Option.some.inj heq
      exact ⟨honly, fun other hother hdenotes =>
        List.mem_singleton.mp ((hmem other).mpr ⟨hother, hdenotes⟩)⟩
    · rintro ⟨-, hunique⟩
      rw [hunique only honly.1 honly.2]
  | first :: second :: rest, hmem, hnodup =>
    refine iff_of_false nofun fun ⟨_, hunique⟩ => ?_
    obtain ⟨hfirst, hdenotes⟩ := (hmem first).mp List.mem_cons_self
    obtain ⟨hsecond, hdenotes'⟩ :=
      (hmem second).mp (List.mem_cons_of_mem first List.mem_cons_self)
    have heq : first = second :=
      (hunique first hfirst hdenotes).trans (hunique second hsecond hdenotes').symm
    rw [List.map_cons, List.map_cons, heq] at hnodup
    exact (List.nodup_cons.mp hnodup).1 List.mem_cons_self

/-- The account that is matched has a mask that is not in conflict with the printed one. -/
theorem exists_agreeing (hids : (accounts.map (·.id)).Nodup)
    (h : matchAccountByMask cards accounts (normalizeMask printed) = some account) :
    ∃ mask, AnswersTo cards account mask ∧ ¬ Conflict (normalizeMask printed) mask := by
  obtain ⟨⟨-, -, mask, hanswers, -, hagree⟩, -⟩ := (matchAccountByMask_eq_some hids).mp h
  exact ⟨mask, hanswers, hagree⟩

/-- **The only account of a bank** is refused when the printed mask refutes it, and taken
otherwise. -/
theorem summaryAccount_of_only {summary : StatementSummary}
    (htotal : summary.totalAmountDue ≠ none) (hdue : summary.dueDate ≠ none)
    (hprinted : summary.cardMask = printed) (honly : tables.ccAccounts bank = [account]) :
    (summaryAccount tables bank (some summary) = .error .disagrees ↔
        Refutes tables.cards printed account) ∧
      (summaryAccount tables bank (some summary) = .ok account ↔
        ¬ Refutes tables.cards printed account) := by
  have hcomplete : (summary.totalAmountDue.isNone || summary.dueDate.isNone) = false := by
    rw [Bool.or_eq_false_iff, Option.isNone_eq_false_iff, Option.isNone_eq_false_iff]
    exact ⟨Option.isSome_iff_ne_none.mpr htotal, Option.isSome_iff_ne_none.mpr hdue⟩
  unfold summaryAccount
  dsimp only
  rw [hcomplete, honly, hprinted, if_neg Bool.false_ne_true, ← maskRefutes_iff]
  dsimp only
  split_ifs with hrefutes
  · simp [hrefutes]
  · simp [hrefutes]

/-- **A statement is for the one account that its mask denotes.**  It is never for one whose
masks are all in conflict with it, and the only account of a bank is refused exactly when
its masks refute the printed one. -/
theorem statementAccount_unique (tables : CardTables) (bank : String) (accounts : List CcAccount)
    (printed : Option String) (hids : (accounts.map (·.id)).Nodup) :
    (∀ account, matchAccountByMask tables.cards accounts (normalizeMask printed) = some account ↔
      (account ∈ accounts ∧ Denotes tables.cards printed account) ∧
        ∀ other ∈ accounts, Denotes tables.cards printed other → other = account) ∧
    (∀ account, matchAccountByMask tables.cards accounts (normalizeMask printed) = some account →
      ¬ ∀ mask, AnswersTo tables.cards account mask → Conflict (normalizeMask printed) mask) ∧
    ∀ (summary : StatementSummary) (account : CcAccount), summary.totalAmountDue ≠ none →
      summary.dueDate ≠ none → summary.cardMask = printed → tables.ccAccounts bank = [account] →
        (summaryAccount tables bank (some summary) = .error .disagrees ↔
            Refutes tables.cards printed account) ∧
          (summaryAccount tables bank (some summary) = .ok account ↔
            ¬ Refutes tables.cards printed account) := by
  refine ⟨fun account => matchAccountByMask_eq_some hids, fun account hmatch hall => ?_,
    fun summary account htotal hdue hprinted honly =>
      summaryAccount_of_only htotal hdue hprinted honly⟩
  obtain ⟨mask, hanswers, hagree⟩ := exists_agreeing hids hmatch
  exact hagree (hall mask hanswers)

end

/-! ### Two accounts of a bank -/

/-- One account that stored the leading digits of its cards only, and one with an add-on card. -/
def twoAccounts : CardTables where
  accounts := [⟨1, "HDFC", "credit_card", some true, some "5100 XXXX XXXX"⟩,
    ⟨2, "hdfc", "credit_card", some true, none⟩]
  nodup_ids := by decide
  cards := [⟨2, "XX9012"⟩, ⟨2, "4111-XXXX-XXXX-1234"⟩]

/-- The add-on card is matched; the stored leading digits match nothing. -/
theorem statementAccount_unique_twoAccounts :
    let _ := asciiTables
    matchAccountByMask twoAccounts.cards twoAccounts.accounts (normalizeMask (some "41XX XX34")) =
        some ⟨2, "hdfc", "credit_card", some true, none⟩ ∧
      ¬ ∀ mask, AnswersTo twoAccounts.cards ⟨2, "hdfc", "credit_card", some true, none⟩ mask →
        Conflict (normalizeMask (some "41XX XX34")) mask := by
  let _ := asciiTables
  have hmatch : matchAccountByMask twoAccounts.cards twoAccounts.accounts
      (normalizeMask (some "41XX XX34")) = some ⟨2, "hdfc", "credit_card", some true, none⟩ := by
    decide +kernel
  exact ⟨hmatch, (statementAccount_unique twoAccounts "hdfc" twoAccounts.accounts
    (some "41XX XX34") twoAccounts.nodup_ids).2.1 _ hmatch⟩

end FinancialDashboard.Statements
