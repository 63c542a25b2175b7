import FinancialDashboard.Lib.Posting
import FinancialDashboard.Paisa.Accounting
import FinancialDashboard.Paisa.Valuation
import FinancialDashboard.Transactions.Booked
import Mathlib.Data.List.Sort

/-!
# The projection

`project` of `services/paisa/projection.py`: the accounts the operator has selected, their
openings, and what becomes of each of their transactions after the cutover.  The entries
of the CAS portfolios join those of the transactions in `projectedEntries`.

The report's counters and its diagnostics of scope are left out, and so is the text of
the journal.
-/

namespace FinancialDashboard.Paisa

open Networth (orElse BalanceSnapshot)
open Posting PyText PyTime Transactions

/-! ### Configuration and tables -/

inductive NonInrPolicy
  | skip | priced
  deriving DecidableEq, Repr

structure FxRate where
  date : Int
  rate : Rat
  deriving DecidableEq

structure PaisaProjectionConfig where
  selectedAccountIds : List Nat
  cutoverDate : Option Int
  accountMappings : Mappings
  categoryMappings : Mappings
  nonInrPolicy : NonInrPolicy
  ledgerCli : Backend
  fxRates : AList fun _ : String => List FxRate
  projectInvestments : Bool

/-- What the projection reads: the tables, and the installation's secret with its hash. -/
structure Books where
  accounts : List Account
  nodup_accounts : (accounts.map (·.id)).Nodup
  cards : List Card
  transactions : TransactionTable
  networth : Networth.Database
  secret : Option String
  digest : String → String → String

/-- The day of a transaction; only dated ones are in scope. -/
def txnDate (t : BookedTransaction) : Int := t.transactionDate.getD 0

variable [UnicodeTables]

/-! ### Currencies -/

/-- `FxRate` in force: the latest on or before a day. -/
def PaisaProjectionConfig.fxRateFor (config : PaisaProjectionConfig) (currency : String)
    (onOrBefore : Int) : Option FxRate :=
  ((config.fxRates.lookup (upper currency)).getD []).foldl (fun chosen rate =>
    if rate.date ≤ onOrBefore && chosen.all (·.date < rate.date) then some rate else chosen) none

inductive FxSkip
  | invalidCurrency | nonInr | missingFxRate
  deriving DecidableEq, Repr

/-- The currency of a transaction, which is its commodity too. -/
structure FxDecision where
  currency : String
  rate : Option Rat
  skipReason : Option FxSkip
  deriving DecidableEq

/-- `_normalize_fx_currency`. -/
def normalizeFxCurrency (raw : String) : Option String :=
  match (raw.toList.filter isAsciiAlnum).map Char.toUpper with
  | [] => none
  | c :: rest => if c.isAlpha then some (String.ofList (c :: rest)) else none

/-- `_decide_fx`. -/
def decideFx (config : PaisaProjectionConfig) (t : BookedTransaction) : FxDecision :=
  let raw := t.currency.getD ""
  if strip raw = "" then ⟨"INR", none, none⟩
  else match normalizeFxCurrency raw with
    | none => ⟨raw, none, some .invalidCurrency⟩
    | some currency =>
      if currency = "INR" then ⟨"INR", none, none⟩
      else if config.nonInrPolicy ≠ .priced then ⟨currency, none, some .nonInr⟩
      else match t.transactionDate.bind (config.fxRateFor currency) with
        | none => ⟨currency, none, some .missingFxRate⟩
        | some fx => ⟨currency, some fx.rate, none⟩

structure PriceDirective where
  date : Int
  currency : String
  rate : Rat
  deriving DecidableEq

/-- `_price_directive_for`. -/
def priceDirectiveFor (t : BookedTransaction) (decision : FxDecision) : Option PriceDirective :=
  if decision.currency = "INR" then none
  else match decision.rate, t.transactionDate with
    | some rate, some date => some ⟨date, decision.currency, rate⟩
    | _, _ => none

/-! ### Skipped rows -/

/-- Why a row is skipped: its label in the source, and what the detail tells of the row. -/
inductive SkipReason
  | unknownAccount (account : Nat)
  | invalidCurrency (currency : String)
  | nonInr (currency : String)
  | missingFxRate (currency : String) (date : Int)
  | noReference
  | amountMismatch (reference : String)
  | currencyMismatch (reference debit credit : String)
  | accountNotInScope (reference : String)
  | notAPair (reference : String) (debits credits : Nat)
  | strayLeg
  | orphan
  | cardSidePayment
  deriving DecidableEq, Repr

structure SkippedRow where
  txnId : Option Nat
  why : SkipReason
  deriving DecidableEq, Repr

def skip (why : SkipReason) (t : BookedTransaction) : SkippedRow := ⟨some t.id, why⟩

/-! ### Metadata -/

namespace EntryKind

def value : EntryKind → String
  | expense => "expense"
  | income => "income"
  | contraExpense => "contra_expense"
  | investment => "investment"
  | repayment => "repayment"
  | selfTransfer => "self_transfer"
  | cardPayment => "card_payment"
  | opening => "opening"
  | lot => "investment_lot"
  | valuation => "investment_valuation"
  | unknown => "unknown"

end EntryKind

/-- `_pipe(ids) or "none"`. -/
def pipeIds (ids : List Nat) : String :=
  if ids.isEmpty then "none" else String.intercalate "|" (ids.map toString)

def txnIdsText (ids : List Nat) : String :=
  String.intercalate "|" (ids.map fun id => s!"txn-{id}")

/-- A sanitized value, or `unknown`. -/
def metaOrUnknown (raw : Option String) : String :=
  orElse (some (sanitizeMetaValue (raw.getD ""))) "unknown"

/-- `_txn_meta`; the ids are those the entry stands for. -/
def txnMeta (t : BookedTransaction) (ids : List Nat) (kind : EntryKind)
    (accountIds cardIds : List Nat) (extra : List (String × MetaValue)) :
    List (String × MetaValue) :=
  let reference := sanitizeMetaValue (t.referenceNumber.getD "")
  [("dashboard_txn_ids", .text (txnIdsText ids)),
    ("dashboard_kind", .text kind.value),
    ("dashboard_category", .text (categorySlug t.category)),
    ("dashboard_source", .text (metaOrUnknown t.source)),
    ("dashboard_channel", .text (metaOrUnknown t.channel)),
    ("dashboard_email_type", .text (metaOrUnknown (some t.emailType))),
    ("dashboard_account_ids", .text (pipeIds accountIds)),
    ("dashboard_card_ids", .text (pipeIds cardIds))] ++
  (if reference = "" then [] else [("dashboard_reference", .text reference)]) ++ extra

/-! ### Entries -/

/-- An entry of transactions, of two opposed postings, with the prices recorded along with
it. -/
structure Emission where
  entry : ProjectedEntry
  notValuation : entry.kind ≠ .valuation
  opposed : Opposed entry.postings
  prices : List PriceDirective

/-- `_account_sign`. -/
def accountSign (direction : String) : Rat := if direction = "credit" then 1 else -1

/-- `accounts_by_id.get(txn.account_id) if txn.account_id else None`. -/
def accountOf (accounts : List LedgerAccount) (t : BookedTransaction) : Option LedgerAccount :=
  match t.accountId with
  | none | some 0 => none
  | some id => accounts.find? (·.accountId = id)

/-- The stored category in lower case, not trimmed. -/
def category (t : BookedTransaction) : String := lower (t.category.getD "")

def pricesOf (config : PaisaProjectionConfig) (t : BookedTransaction) : List PriceDirective :=
  (priceDirectiveFor t (decideFx config t)).toList

/-- `_build_self_transfer_entry`. -/
def selfTransferEntry (accounts : List LedgerAccount) (debit credit : BookedTransaction)
    (commodity : String) (prices : List PriceDirective) : Option Emission :=
  match accountOf accounts debit, accountOf accounts credit with
  | some debitAcct, some creditAcct =>
    let ids := [debit.id, credit.id].insertionSort (· ≤ ·)
    let cardIds := debit.cardId.toList ++ credit.cardId.toList
    let accountIds := debit.accountId.toList ++ credit.accountId.toList
    some {
      entry := {
        date := min (txnDate debit) (txnDate credit)
        payee := orElse debit.counterparty (orElse credit.counterparty "Self Transfer")
        txnIds := ids
        postings := [⟨debitAcct.name, -debit.amount, commodity⟩,
          ⟨creditAcct.name, debit.amount, commodity⟩]
        note := if debit.referenceNumber.getD "" = "" then credit.referenceNumber
          else debit.referenceNumber
        currency := commodity
        kind := .selfTransfer
        details := txnMeta debit ids .selfTransfer accountIds cardIds [] }
      notValuation := nofun
      opposed := ⟨_, _, rfl, rfl, (neg_neg _).symm⟩
      prices }
  | _, _ => none

/-- A selected card and the liability account that owns it. -/
structure ResolvedCard where
  cardId : Nat
  account : LedgerAccount
  deriving DecidableEq, Repr

/-- `by_card_id` of `_load_card_resolution_maps`, in the order of the query. -/
def resolvedCards (accounts : List LedgerAccount) (cards : List Card) :
    List (Card × ResolvedCard) :=
  cards.filterMap fun card =>
    ((accounts.filter (·.kind = .liability)).find? (·.accountId = card.accountId)).map
      fun account => (card, ⟨card.id, account⟩)

/-- The candidates of a mask; it is unique if there is one, and ambiguous if more. -/
def maskCandidates (accounts : List LedgerAccount) (cards : List Card) (mask : String) :
    List ResolvedCard :=
  ((resolvedCards accounts cards).filter fun c =>
    c.1.cardMask ≠ "" && strip c.1.cardMask = mask).map (·.2)

inductive CardResolution
  | resolved (card : ResolvedCard)
  | ambiguousMask
  | unresolved
  deriving DecidableEq, Repr

def CardResolution.status : CardResolution → String
  | resolved _ => "resolved"
  | ambiguousMask => "ambiguous_mask"
  | unresolved => "unresolved"

/-- `_resolve_card_for_payment`. -/
def resolveCardForPayment (accounts : List LedgerAccount) (cards : List Card)
    (t : BookedTransaction) : CardResolution :=
  let byId := t.cardId.bind fun id => (resolvedCards accounts cards).find? (·.1.id = id)
  match byId with
  | some c => .resolved c.2
  | none =>
    let mask := strip (t.cardMask.getD "")
    if mask = "" then .unresolved
    else match maskCandidates accounts cards mask with
      | [] => .unresolved
      | [card] => .resolved card
      | _ => .ambiguousMask

/-- Where a card payment goes, and the ids that tell so. -/
structure CardTarget where
  name : AccountName
  cardIds : List Nat
  accountIds : List Nat

/-- The account of the card, or the one that clears for all cards. -/
def cardTarget (config : PaisaProjectionConfig) (bankAccount : LedgerAccount) :
    CardResolution → Except NameError CardTarget
  | .resolved card => .ok ⟨card.account.name, [card.cardId],
      [bankAccount.accountId, card.account.accountId]⟩
  | _ => do
    let name ← cardClearingAccount config.categoryMappings config.ledgerCli
    return ⟨name, [], [bankAccount.accountId]⟩

/-- `_build_card_payment_entry`. -/
def cardPaymentEntry (config : PaisaProjectionConfig) (t : BookedTransaction)
    (bankAccount : LedgerAccount) (commodity : String) (resolution : CardResolution) :
    Except NameError Emission := do
  let target ← cardTarget config bankAccount resolution
  let sign := accountSign t.direction
  return {
    entry := {
      date := txnDate t
      payee := orElse t.counterparty "Card Payment"
      txnIds := [t.id]
      postings := [⟨target.name, t.amount * -sign, commodity⟩,
        ⟨bankAccount.name, t.amount * sign, commodity⟩]
      note := t.note
      currency := commodity
      kind := .cardPayment
      details := txnMeta t [t.id] .cardPayment target.accountIds target.cardIds
        [("dashboard_card_resolution", .text resolution.status)] }
    notValuation := nofun
    opposed := ⟨_, _, rfl, rfl, by rw [mul_neg, neg_neg]⟩
    prices := pricesOf config t }

/-- The contra of a standard entry, and the entry's kind. -/
structure Contra where
  account : AccountName
  kind : EntryKind
  ofCategory : kind ∈ categoryKinds

variable [TitleTables]

/-- The contra of a category; an investment's redemption that no mapping speaks for is
cleared instead, so that the unallocated account does not go negative. -/
def contraOf (config : PaisaProjectionConfig) (t : BookedTransaction) : Except NameError Contra :=
  if category t ∈ investmentCategorySlugs && category t ∉ config.categoryMappings &&
      config.projectInvestments && t.direction ≠ "debit" then do
    let account ← normalizePolicyAccount config.ledgerCli repaymentClearingAccount
      "investment_redemption_unallocated"
    return ⟨account, .investment, by decide⟩
  else do
    let account ← contraAccount t.category config.categoryMappings config.ledgerCli
    return ⟨account, categoryKind (categorySlug t.category), categoryKind_mem _⟩

omit [UnicodeTables] [TitleTables] in
theorem Contra.notValuation (contra : Contra) : contra.kind ≠ .valuation := by
  intro h
  have hkind := contra.ofCategory
  rw [h] at hkind
  revert hkind
  decide

/-- `_build_standard_entry`. -/
def standardEntry (config : PaisaProjectionConfig) (t : BookedTransaction)
    (account : LedgerAccount) (commodity : String) : Except NameError Emission := do
  let contra ← contraOf config t
  let sign := accountSign t.direction
  return {
    entry := {
      date := txnDate t
      payee := orElse t.counterparty t.bank
      txnIds := [t.id]
      postings := [⟨account.name, t.amount * sign, commodity⟩,
        ⟨contra.account, t.amount * -sign, commodity⟩]
      note := t.note
      currency := commodity
      kind := contra.kind
      details := txnMeta t [t.id] contra.kind [account.accountId] t.cardId.toList [] }
    notValuation := contra.notValuation
    opposed := ⟨_, _, rfl, rfl, mul_neg _ _⟩
    prices := pricesOf config t }

/-! ### Self-transfers -/

def isSelfTransfer (t : BookedTransaction) : Bool := category t = selfTransferSlug

def reference (t : BookedTransaction) : String := strip (t.referenceNumber.getD "")

/-- The groups of `_pair_self_transfers` in order of their references. -/
def selfTransferGroups (rows : List BookedTransaction) : List (String × List BookedTransaction) :=
  let referenced := rows.filter fun t => isSelfTransfer t && reference t ≠ ""
  Dict.groups reference ((referenced.map reference).dedup.insertionSort (· ≤ ·)) referenced

/-- The leftovers of `_pair_self_transfers`. -/
def selfTransferLeftovers (rows : List BookedTransaction) : List BookedTransaction :=
  rows.filter fun t => isSelfTransfer t && reference t = ""

/-- A group is one entry if it has one debit and one credit that agree. -/
def pairGroup (config : PaisaProjectionConfig) (accounts : List LedgerAccount)
    (group : String × List BookedTransaction) : Except SkipReason Emission :=
  let (ref, rows) := group
  match rows.filter (·.direction = "debit"), rows.filter (·.direction = "credit") with
  | [debit], [credit] =>
    let debitCcy := (decideFx config debit).currency
    let creditCcy := (decideFx config credit).currency
    if debit.amount ≠ credit.amount then .error (.amountMismatch ref)
    else if debitCcy ≠ creditCcy then .error (.currencyMismatch ref debitCcy creditCcy)
    else match selfTransferEntry accounts debit credit debitCcy (rows.flatMap (pricesOf config)) with
      | none => .error (.accountNotInScope ref)
      | some emission => .ok emission
  | debits, credits => .error (.notAPair ref debits.length credits.length)

/-- A group that is no entry is skipped whole. -/
def groupBatch (config : PaisaProjectionConfig) (accounts : List LedgerAccount)
    (group : String × List BookedTransaction) : Batch Emission SkippedRow :=
  match pairGroup config accounts group with
  | .ok emission => ⟨[emission], []⟩
  | .error why => ⟨[], group.2.map (skip why)⟩

/-! ### The passes -/

/-- Why a row is skipped for its currency. -/
def fxSkip (config : PaisaProjectionConfig) (t : BookedTransaction) : Option SkipReason :=
  let decision := decideFx config t
  decision.skipReason.map fun
    | .invalidCurrency => .invalidCurrency decision.currency
    | .nonInr => .nonInr decision.currency
    | .missingFxRate => .missingFxRate decision.currency (txnDate t)

/-- The pass over the rows that are in no group. -/
def projectRow (config : PaisaProjectionConfig) (accounts : List LedgerAccount) (cards : List Card)
    (t : BookedTransaction) : Except NameError (Batch Emission SkippedRow) :=
  if isSelfTransfer t then .ok ⟨[], [skip .strayLeg t]⟩
  else match accountOf accounts t with
    | none => .ok ⟨[], [skip .orphan t]⟩
    | some account =>
      let commodity := (decideFx config t).currency
      if category t = creditCardPaymentSlug then
        if account.kind = .liability then .ok ⟨[], [skip .cardSidePayment t]⟩
        else do
          let emission ← cardPaymentEntry config t account commodity
            (resolveCardForPayment accounts cards t)
          return ⟨[emission], []⟩
      else do
        let emission ← standardEntry config t account commodity
        return ⟨[emission], []⟩

/-- What becomes of the transactions in scope. -/
def projectTransactions (config : PaisaProjectionConfig) (accounts : List LedgerAccount)
    (cards : List Card) (txns : List BookedTransaction) :
    Except NameError (Batch Emission SkippedRow) := do
  let fxSkipped := txns.filterMap fun t => (fxSkip config t).map fun why => skip why t
  let eligible := txns.filter (fxSkip config · = none)
  let leftovers := selfTransferLeftovers eligible
  let groups := selfTransferGroups eligible
  let seen := leftovers.map (·.id) ++ groups.flatMap fun group => group.2.map (·.id)
  let rest ← (eligible.filter (·.id ∉ seen)).mapM (projectRow config accounts cards)
  return Batch.append ⟨[], fxSkipped⟩ (Batch.append ⟨[], leftovers.map (skip .noReference)⟩
    (Batch.append (Batch.flatten (groups.map (groupBatch config accounts))) (Batch.flatten rest)))

/-! ### Openings -/

inductive OpeningSource
  | snapshot | transactionBalance
  deriving DecidableEq, Repr

def OpeningSource.value : OpeningSource → String
  | snapshot => "snapshot"
  | transactionBalance => "transaction_balance"

structure OpeningBalance where
  accountId : Nat
  accountName : AccountName
  amount : Rat
  source : OpeningSource
  asOf : Int
  deriving DecidableEq

/-- `_opening_meta`. -/
def OpeningBalance.details (ob : OpeningBalance) : List (String × MetaValue) :=
  [("dashboard_account_ids", .text (toString ob.accountId)),
    ("dashboard_source", .text ob.source.value), ("dashboard_as_of", .date ob.asOf)]

/-- `_latest_snapshot`. -/
def latestSnapshot (books : Books) (accountId : Nat) (cutover : Int) : Option BalanceSnapshot :=
  ((books.networth.snapshots.rows.filter fun s =>
      s.accountId = some accountId && s.asOfDate ≤ cutover && s.currency = "INR").insertionSort
    fun a b => b.rank ≤ a.rank).head?

/-- The row of the latest running balance, of `_running_balance_fallback`. -/
def latestBalance (books : Books) (accountId : Nat) (cutover : Int) : Option BookedTransaction :=
  ((books.transactions.rows.filter fun t =>
      t.accountId = some accountId && t.transactionDate.any (· ≤ cutover) && t.balance.isSome &&
        t.currency.all (· = "INR")).insertionSort
    fun a b => (toLex (txnDate b, b.id) : Int ×ₗ Nat) ≤ toLex (txnDate a, a.id)).head?

/-- A liability is stored as the amount owed. -/
def openingAmount (account : LedgerAccount) (value : Rat) : Rat :=
  if account.kind = .liability then -value else value

/-- `_opening_for_account`. -/
def openingForAccount (books : Books) (account : LedgerAccount) (cutover : Int) :
    Option OpeningBalance :=
  match latestSnapshot books account.accountId cutover with
  | some s => some ⟨account.accountId, account.name, openingAmount account s.value, .snapshot,
      s.asOfDate⟩
  | none => do
    let t ← latestBalance books account.accountId cutover
    let balance ← t.balance
    return ⟨account.accountId, account.name, openingAmount account balance, .transactionBalance,
      txnDate t⟩

/-! ### The report -/

/-- What a `ProjectionReport` lists. -/
structure Projection where
  cutover : Int
  openings : List OpeningBalance
  entries : List ProjectedEntry
  accountsDeclared : List AccountName
  priceDirectives : List PriceDirective
  skipped : List SkippedRow

/-- The first directive of each day and currency, in order. -/
def dedupePrices (prices : List PriceDirective) : List PriceDirective :=
  (prices.foldl (fun seen price =>
    if seen.any fun other => other.date = price.date && other.currency = price.currency then seen
    else seen ++ [price]) []).insertionSort fun a b =>
      (toLex (a.date, a.currency) : Int ×ₗ String) ≤ toLex (b.date, b.currency)

/-- The query for transactions: dated after the cutover and of a selected account. -/
def PaisaProjectionConfig.inScope (config : PaisaProjectionConfig) (cutover : Int)
    (t : BookedTransaction) : Bool :=
  t.accountId.any (· ∈ config.selectedAccountIds) && t.transactionDate.any (cutover < ·)

def transactionsInScope (config : PaisaProjectionConfig) (books : Books) (cutover : Int) :
    List BookedTransaction :=
  (books.transactions.rows.filter (config.inScope cutover)).insertionSort fun a b =>
    (toLex (txnDate a, a.id) : Int ×ₗ Nat) ≤ toLex (txnDate b, b.id)

def selectedAccounts (config : PaisaProjectionConfig) (books : Books) : List Account :=
  books.accounts.filter (·.id ∈ config.selectedAccountIds)

/-- The selected accounts that do not exist. -/
def unknownAccounts (config : PaisaProjectionConfig) (books : Books) : List SkippedRow :=
  ((config.selectedAccountIds.dedup.filter
      (· ∉ books.accounts.map (·.id))).insertionSort (· ≤ ·)).map fun id =>
    ⟨none, .unknownAccount id⟩

/-- The entries of the transactions by day and first id. -/
def sortedEntries (emissions : List Emission) : TransactionEntries :=
  ⟨(emissions.map (·.entry)).insertionSort fun a b =>
      (toLex (a.date, a.txnIds.head?.getD 0) : Int ×ₗ Nat) ≤ toLex (b.date, b.txnIds.head?.getD 0),
    fun e he => by
      obtain ⟨emission, -, rfl⟩ := List.mem_map.mp ((List.mem_insertionSort _).mp he)
      exact emission.notValuation⟩

def valuationConfig (config : PaisaProjectionConfig) (books : Books) (cutover : Int) :
    ValuationConfig where
  projectInvestments := config.projectInvestments
  backend := config.ledgerCli
  cutover := cutover
  secret := books.secret
  digest := books.digest

inductive ProjectionFailure
  | cutoverRequired
  | name (error : NameError)
  deriving DecidableEq, Repr

/-- `project` from a cutover on. -/
def projectFrom (config : PaisaProjectionConfig) (books : Books) (cutover : Int) :
    Except NameError Projection := do
  let accounts ← (selectedAccounts config books).mapM fun account =>
    resolveAccount account config.accountMappings config.ledgerCli
  let batch ← projectTransactions config accounts books.cards
    (transactionsInScope config books cutover)
  let entries ← projectedEntries (valuationConfig config books cutover) books.networth
    (sortedEntries batch.posted)
  return {
    cutover
    openings := (accounts.insertionSort (·.accountId ≤ ·.accountId)).filterMap
      (openingForAccount books · cutover)
    entries
    accountsDeclared := (accounts.map (·.name)).dedup.insertionSort (·.name ≤ ·.name)
    priceDirectives := dedupePrices (batch.posted.flatMap (·.prices))
    skipped := unknownAccounts config books ++ batch.skipped }

/-- `project`. -/
def project (config : PaisaProjectionConfig) (books : Books) :
    Except ProjectionFailure Projection :=
  match config.cutoverDate with
  | none => .error .cutoverRequired
  | some cutover => (projectFrom config books cutover).mapError .name

end FinancialDashboard.Paisa
