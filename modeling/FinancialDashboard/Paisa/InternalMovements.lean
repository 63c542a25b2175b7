import FinancialDashboard.Paisa.Conservation

/-!
# Transfers and card payments are no spending

A transaction whose category, trimmed and in lower case, is `self_transfer` or
`credit_card_payment` moves money between accounts of the household.  `project` is to post
no entry of it to an account of spending or income.

`contra_account` and the metadata trim the category.  The two tests of `project` that
route it do not, so a category stored with a blank around it goes the way of an ordinary
expense.

* `ownEntry_cases`: what the entry of a single row is.
* `internal_iff`: the rows that are kept from spending.
-/

namespace FinancialDashboard.Paisa

open Posting PyText Transactions

/-! ### Spending -/

/-- The account is one of spending or of income. -/
def AccountName.Spending (name : AccountName) : Prop := name.root = .expenses ∨ name.root = .income

instance (name : AccountName) : Decidable name.Spending :=
  inferInstanceAs (Decidable (_ ∨ _))

/-- The categories of internal movements. -/
def internalSlugs : List String := [selfTransferSlug, creditCardPaymentSlug]

theorem categoryKind_internal {slug : String} (h : slug ∈ internalSlugs) :
    categoryKind slug = .expense := by
  have hall : ∀ s ∈ internalSlugs, categoryKind s = .expense := by decide
  exact hall slug h

variable [UnicodeTables]

/-- No name the operator has given to an account, or to the categories of internal
movements, is one of spending. -/
structure OperatorKeepsTransfers (config : PaisaProjectionConfig) : Prop where
  accounts : ∀ (id : Nat) (raw : String), config.accountMappings.lookup (toString id) = some raw →
    ∀ name, validateAccountName config.ledgerCli raw = some name → ¬ name.Spending
  categories : ∀ slug ∈ internalSlugs, ∀ raw, config.categoryMappings.lookup slug = some raw →
    ∀ name, validateAccountName config.ledgerCli raw = some name → ¬ name.Spending

theorem overrideName_eq_ok {backend : Backend} {raw label : String} {name : AccountName}
    (h : overrideName backend raw label = .ok name) : validateAccountName backend raw = some name := by
  unfold overrideName at h
  cases hvalid : validateAccountName backend raw with
  | none =>
    rw [hvalid] at h
    cases h
  | some other =>
    rw [hvalid] at h
    rw [Except.ok.inj h]

theorem not_spending_of_normalize {backend : Backend} {raw name : AccountName} {label : String}
    (h : normalizePolicyAccount backend raw label = .ok name) (hraw : ¬ raw.Spending) :
    ¬ name.Spending := by
  unfold AccountName.Spending at hraw ⊢
  rwa [root_of_normalize h]

section

variable [TitleTables] {config : PaisaProjectionConfig} {t : BookedTransaction}

/-- The accounts that are resolved are the household's own. -/
theorem not_spending_of_resolve (hnames : OperatorKeepsTransfers config) {account : Account}
    {ledger : LedgerAccount}
    (h : resolveAccount account config.accountMappings config.ledgerCli = .ok ledger) :
    ¬ ledger.name.Spending := by
  unfold resolveAccount at h
  obtain ⟨name, hname, h⟩ := bind_eq_ok.mp h
  obtain rfl := Except.ok.inj h
  unfold ledgerName at hname
  dsimp only at hname
  cases hmapped : config.accountMappings.lookup (toString account.id) with
  | some raw =>
    rw [hmapped] at hname
    exact hnames.accounts account.id raw hmapped _ (overrideName_eq_ok hname)
  | none =>
    rw [hmapped] at hname
    refine not_spending_of_normalize hname ?_
    unfold defaultAccountName
    cases accountKind account.type <;> simp [AccountName.Spending]

omit [TitleTables] in
theorem not_spending_of_clearing (hnames : OperatorKeepsTransfers config) {name : AccountName}
    (h : cardClearingAccount config.categoryMappings config.ledgerCli = .ok name) :
    ¬ name.Spending := by
  unfold cardClearingAccount at h
  cases hmapped : config.categoryMappings.lookup creditCardPaymentSlug with
  | some raw =>
    rw [hmapped] at h
    exact hnames.categories _ (by simp [internalSlugs]) raw hmapped _ (overrideName_eq_ok h)
  | none =>
    rw [hmapped] at h
    exact not_spending_of_normalize h (by decide)

/-- A mapped category of an internal movement has a contra that is no spending. -/
theorem not_spending_of_mapped (hnames : OperatorKeepsTransfers config)
    (hslug : categorySlug t.category ∈ internalSlugs)
    (hmapped : (config.categoryMappings.lookup (categorySlug t.category)).isSome) {contra : Contra}
    (h : contraOf config t = .ok contra) : ¬ contra.account.Spending := by
  unfold contraOf at h
  split_ifs at h
  · obtain ⟨account, haccount, h⟩ := bind_eq_ok.mp h
    obtain rfl := Except.ok.inj h
    exact not_spending_of_normalize haccount (by decide)
  · obtain ⟨account, haccount, h⟩ := bind_eq_ok.mp h
    obtain rfl := Except.ok.inj h
    obtain ⟨raw, hraw⟩ := Option.isSome_iff_exists.mp hmapped
    unfold contraAccount at haccount
    dsimp only at haccount
    rw [hraw] at haccount
    exact hnames.categories _ hslug raw hraw _ (overrideName_eq_ok haccount)

/-! ### Categories with blanks around them -/

omit [TitleTables] in
theorem strip_isInfix (s : String) : (strip s).toList <:+: s.toList := by
  unfold strip
  rw [String.toList_ofList]
  refine List.IsInfix.trans ?_ (List.dropWhile_suffix (p := UnicodeTables.isSpace)).isInfix
  have h := (List.dropWhile_suffix (l := (s.toList.dropWhile UnicodeTables.isSpace).reverse)
    (p := UnicodeTables.isSpace)).isInfix
  simpa using List.reverse_infix.mpr h

omit [TitleTables] in
/-- Trimming cuts a piece out of the lower-cased text, where no sigma comes to its end. -/
theorem lower_strip_isInfix {s : String} (h : ∀ d ∈ ['σ', 'ς'], d ∉ (lower (strip s)).toList) :
    (lower (strip s)).toList <:+: (lower s).toList := by
  have hsigma := sigma_notMem_of_lower h
  rw [lower_of_notMem hsigma, String.toList_ofList]
  exact infix_lower hsigma (strip_isInfix s)

omit [TitleTables] in
/-- A category that trims to an internal movement is no investment before. -/
theorem category_notMem_investment (hslug : categorySlug t.category ∈ internalSlugs) :
    category t ∉ investmentCategorySlugs := by
  have hnever : ∀ slug ∈ internalSlugs, ∀ other ∈ investmentCategorySlugs,
      ¬ slug.toList <:+: other.toList := by decide
  intro hmem
  refine hnever _ hslug _ hmem ?_
  have hmedial : ∀ slug ∈ internalSlugs, 'σ' ∉ slug.toList := by decide
  have hfinal : ∀ slug ∈ internalSlugs, 'ς' ∉ slug.toList := by decide
  have hsigma : ∀ d ∈ ['σ', 'ς'], d ∉ (categorySlug t.category).toList :=
    forall_sigma (hmedial _ hslug) (hfinal _ hslug)
  unfold categorySlug at hslug hsigma ⊢
  dsimp only at hslug hsigma ⊢
  split_ifs at hslug hsigma ⊢ with hblank
  · exact absurd hslug (by decide)
  · exact lower_strip_isInfix hsigma

/-- **A category that is not mapped is an expense.** -/
theorem spending_of_unmapped (hslug : categorySlug t.category ∈ internalSlugs)
    (hmapped : config.categoryMappings.lookup (categorySlug t.category) = none) {contra : Contra}
    (h : contraOf config t = .ok contra) : contra.account.Spending := by
  unfold contraOf at h
  rw [if_neg (by simp [category_notMem_investment hslug])] at h
  obtain ⟨account, haccount, h⟩ := bind_eq_ok.mp h
  obtain rfl := Except.ok.inj h
  unfold contraAccount at haccount
  dsimp only at haccount
  rw [hmapped] at haccount
  left
  have hroot := root_of_normalize haccount
  unfold defaultContra at hroot
  rw [categoryKind_internal hslug] at hroot
  exact hroot

/-! ### The entries of a row -/

/-- The accounts an entry posts to. -/
def PostsOn (P : AccountName → Prop) (e : ProjectedEntry) : Prop := ∀ p ∈ e.postings, P p.account

/-- No posting of the entry is one of spending. -/
def NoSpending (e : ProjectedEntry) : Prop := ∀ p ∈ e.postings, ¬ p.account.Spending

variable {accounts : List LedgerAccount} {cards : List Card} {emission : Emission}
  {P : AccountName → Prop}

omit [UnicodeTables] [TitleTables] in
theorem postsOn_pair {e : ProjectedEntry} {p q : LedgerPosting} (h : e.postings = [p, q])
    (hp : P p.account) (hq : P q.account) : PostsOn P e := by
  intro r hr
  rw [h] at hr
  rcases List.mem_cons.mp hr with rfl | hr
  · exact hp
  · rwa [List.mem_singleton.mp hr]

omit [UnicodeTables] [TitleTables] in
theorem mem_of_accountOf {account : LedgerAccount} (h : accountOf accounts t = some account) :
    account ∈ accounts := by
  unfold accountOf at h
  split at h
  next => cases h
  next => cases h
  next => exact List.mem_of_find?_eq_some h

omit [TitleTables] in
/-- The entry of a pair is between two accounts of the household. -/
theorem postsOn_of_pair (hown : ∀ a ∈ accounts, P a.name)
    {group : String × List BookedTransaction}
    (h : pairGroup config accounts group = .ok emission) : PostsOn P emission.entry := by
  obtain ⟨debit, credit, -, -, -, -, hentry⟩ := exists_selfTransferEntry h
  unfold selfTransferEntry at hentry
  split at hentry
  next debitAcct creditAcct hdebit hcredit =>
    obtain rfl := Option.some.inj hentry
    exact postsOn_pair rfl (hown _ (mem_of_accountOf hdebit)) (hown _ (mem_of_accountOf hcredit))
  next => cases hentry

omit [TitleTables] in
theorem mem_of_resolved {resolution : CardResolution} {card : ResolvedCard}
    (h : resolveCardForPayment accounts cards t = resolution) (hr : resolution = .resolved card) :
    card.account ∈ accounts := by
  have hcards : ∀ c ∈ resolvedCards accounts cards, c.2.account ∈ accounts := by
    intro c hc
    obtain ⟨card, -, hmap⟩ := List.mem_filterMap.mp hc
    obtain ⟨account, hfind, rfl⟩ := Option.map_eq_some_iff.mp hmap
    exact List.mem_of_mem_filter (List.mem_of_find?_eq_some hfind)
  subst hr
  unfold resolveCardForPayment at h
  dsimp only at h
  split at h
  next c hid =>
    obtain rfl := CardResolution.resolved.inj h
    obtain ⟨id, -, hfind⟩ := Option.bind_eq_some_iff.mp hid
    exact hcards c (List.mem_of_find?_eq_some hfind)
  next =>
    split_ifs at h
    split at h
    next => cases h
    next found hmask =>
      obtain rfl := CardResolution.resolved.inj h
      have hmem : found ∈ maskCandidates accounts cards (strip (t.cardMask.getD "")) :=
        hmask ▸ List.mem_singleton_self found
      obtain ⟨c, hc, rfl⟩ := List.mem_map.mp hmem
      exact hcards c (List.mem_of_mem_filter hc)
    next => cases h

omit [TitleTables] in
/-- The bank leg of a card payment is between two accounts of the household, or the
account that clears for all cards. -/
theorem postsOn_of_cardPayment (hclearing : ∀ name,
      cardClearingAccount config.categoryMappings config.ledgerCli = .ok name → P name)
    (hown : ∀ a ∈ accounts, P a.name) {account : LedgerAccount} {commodity : String}
    (haccount : account ∈ accounts) (h : cardPaymentEntry config t account commodity
      (resolveCardForPayment accounts cards t) = .ok emission) : PostsOn P emission.entry := by
  unfold cardPaymentEntry at h
  obtain ⟨target, htarget, h⟩ := bind_eq_ok.mp h
  obtain rfl := Except.ok.inj h
  refine postsOn_pair rfl ?_ (hown account haccount)
  cases hresolution : resolveCardForPayment accounts cards t with
  | resolved card =>
    rw [hresolution] at htarget
    obtain rfl := Except.ok.inj htarget
    exact hown _ (mem_of_resolved hresolution rfl)
  | ambiguousMask =>
    rw [hresolution] at htarget
    obtain ⟨name, hname, htarget⟩ := bind_eq_ok.mp htarget
    obtain rfl := Except.ok.inj htarget
    exact hclearing name hname
  | unresolved =>
    rw [hresolution] at htarget
    obtain ⟨name, hname, htarget⟩ := bind_eq_ok.mp htarget
    obtain rfl := Except.ok.inj htarget
    exact hclearing name hname

/-- What the entry of a row is: a card payment's, or one against the contra of its category. -/
theorem ownEntry_cases {batch : Batch Emission SkippedRow}
    (h : projectRow config accounts cards t = .ok batch) (he : emission ∈ batch.posted) :
    ∃ account, accountOf accounts t = some account ∧
      ((category t = creditCardPaymentSlug ∧
          cardPaymentEntry config t account (decideFx config t).currency
            (resolveCardForPayment accounts cards t) = .ok emission) ∨
        (category t ∉ internalSlugs ∧
          standardEntry config t account (decideFx config t).currency = .ok emission)) := by
  unfold projectRow at h
  by_cases hself : isSelfTransfer t = true
  · rw [if_pos hself] at h
    obtain rfl := Except.ok.inj h
    cases he
  rw [if_neg hself] at h
  cases haccount : accountOf accounts t with
  | none =>
    rw [haccount] at h
    obtain rfl := Except.ok.inj h
    cases he
  | some account =>
    rw [haccount] at h
    dsimp only at h
    refine ⟨account, rfl, ?_⟩
    split_ifs at h with hcategory hliability
    · obtain rfl := Except.ok.inj h
      cases he
    · obtain ⟨other, hentry, h⟩ := bind_eq_ok.mp h
      obtain rfl := Except.ok.inj h
      obtain rfl := List.mem_singleton.mp he
      exact .inl ⟨hcategory, hentry⟩
    · obtain ⟨other, hentry, h⟩ := bind_eq_ok.mp h
      obtain rfl := Except.ok.inj h
      obtain rfl := List.mem_singleton.mp he
      have hne : category t ≠ selfTransferSlug := by simpa [isSelfTransfer] using hself
      exact .inr ⟨by simp [internalSlugs, hne, hcategory], hentry⟩

/-- A row that neither test routes has a standard entry. -/
theorem projectRow_standard {account : LedgerAccount} (haccount : accountOf accounts t = some account)
    (hcategory : category t ∉ internalSlugs) : projectRow config accounts cards t =
      (standardEntry config t account (decideFx config t).currency).map fun e => ⟨[e], []⟩ := by
  have hself : isSelfTransfer t = false := by
    simp only [internalSlugs, List.mem_cons, not_or] at hcategory
    simpa [isSelfTransfer] using hcategory.1
  have hcard : category t ≠ creditCardPaymentSlug := fun h => hcategory (by simp [internalSlugs, h])
  simp only [projectRow, hself, haccount, hcard, Bool.false_eq_true, if_false]
  cases standardEntry config t account (decideFx config t).currency <;> rfl

/-! ### The report -/

variable {books : Books} {cutover : Int} {report : Projection}

omit [TitleTables] in
/-- The row is in scope, its currency can be posted and its account is there. -/
structure Reaches (config : PaisaProjectionConfig) (books : Books) (cutover : Int)
    (t : BookedTransaction) : Prop where
  inScope : config.inScope cutover t = true
  convertible : fxSkip config t = none
  onAccount : ∃ kind, OnAccount books kind t

/-- **Which internal movements stay out of spending**: where the operator's names do, a row
does exactly if lower-casing alone makes its category the slug, or it is not posted, or the
operator has mapped its category. -/
theorem internal_iff (hcutover : config.cutoverDate = some cutover)
    (h : project config books = .ok report) (hnames : OperatorKeepsTransfers config)
    (ht : t ∈ books.transactions.rows) (hslug : categorySlug t.category ∈ internalSlugs) :
    (∀ e ∈ report.entries, t.id ∈ e.txnIds → NoSpending e) ↔
      category t ∈ internalSlugs ∨ ¬ Reaches config books cutover t ∨
        (config.categoryMappings.lookup (categorySlug t.category)).isSome := by
  obtain ⟨cutover', hcutover', accounts, batch, portfolios, hmade⟩ := project_eq_ok h
  obtain rfl := Option.some.inj (hcutover.symm.trans hcutover')
  have hids := nodup_transactionsInScope config books cutover
  constructor
  · intro hkept
    by_contra hnot
    obtain ⟨hcategory, hnot⟩ := not_or.mp hnot
    obtain ⟨hreaches, hunmapped⟩ := not_or.mp hnot
    obtain ⟨hscope, hfx, kind, honaccount⟩ := not_not.mp hreaches
    rw [Option.not_isSome_iff_eq_none] at hunmapped
    obtain ⟨account, haccount, -⟩ := hmade.accountOf_eq hscope honaccount
    obtain ⟨rest, hrest, hbatch⟩ := projectTransactions_eq_ok hids hmade.projected
    have heligible : t ∈ (eligibleRows config (transactionsInScope config books cutover)).filter
        (!isSelfTransfer ·) := by
      refine List.mem_filter.mpr ⟨List.mem_filter.mpr
        ⟨mem_transactionsInScope.mpr ⟨ht, hscope⟩, by simp [hfx]⟩, ?_⟩
      simp only [internalSlugs, List.mem_cons, not_or] at hcategory
      simpa [isSelfTransfer] using hcategory.1
    obtain ⟨b, hb, hrow⟩ := exists_right (forall₂_of_mapM hrest) heligible
    rw [projectRow_standard haccount hcategory] at hrow
    obtain ⟨emission, hentry, rfl⟩ := map_eq_ok.mp hrow
    have hposted : emission ∈ batch.posted := by
      rw [hbatch]
      refine List.mem_append_right _ (List.mem_append_right _ (List.mem_append_right _ ?_))
      exact mem_posted_flatten.mpr ⟨_, hb, List.mem_singleton.mpr rfl⟩
    have hmem : emission.entry ∈ report.entries :=
      hmade.entries.mem_iff.mpr (List.mem_append_left _ (List.mem_map_of_mem hposted))
    obtain ⟨contra, hcontra, hbuilt⟩ := bind_eq_ok.mp hentry
    obtain rfl := Except.ok.inj hbuilt
    have hspending := spending_of_unmapped hslug hunmapped hcontra
    exact hkept _ hmem List.mem_cons_self ⟨contra.account, _, _⟩
      (List.mem_cons_of_mem _ List.mem_cons_self) hspending
  · intro hcond e he hid
    have hown : ∀ a ∈ accounts, ¬ a.name.Spending := by
      intro a ha
      obtain ⟨account, -, hresolve⟩ := exists_left hmade.resolved ha
      exact not_spending_of_resolve hnames hresolve
    rcases List.mem_append.mp (hmade.entries.mem_iff.mp he) with he | he
    · obtain ⟨emission, hposted, rfl⟩ := List.mem_map.mp he
      rcases posted_origin hids hmade.projected hposted with ⟨group, _, hpair⟩ |
        ⟨u, hu, b, hrow, hb⟩
      · exact postsOn_of_pair (P := fun name => ¬ name.Spending) hown hpair
      · have hscope := mem_transactionsInScope.mp (List.mem_of_mem_filter hu)
        have hfx : fxSkip config u = none := of_decide_eq_true (List.mem_filter.mp hu).2
        obtain ⟨account, haccount, hcases⟩ := ownEntry_cases hrow hb
        have hids' : emission.entry.txnIds = [u.id] := by
          rcases hcases with ⟨_, hentry⟩ | ⟨_, hentry⟩
          · exact (cardPaymentEntry_eq_ok hentry).2
          · exact (standardEntry_eq_ok hentry).2
        rw [hids', List.mem_singleton] at hid
        obtain rfl := books.transactions.eq_of_id ht hscope.1 hid
        rcases hcases with ⟨_, hentry⟩ | ⟨hcategory, hentry⟩
        · exact postsOn_of_cardPayment (P := fun name => ¬ name.Spending)
            (fun _ => not_spending_of_clearing hnames) hown (mem_of_accountOf haccount) hentry
        · have hmapped : (config.categoryMappings.lookup (categorySlug t.category)).isSome := by
            rcases hcond with hinternal | hunreached | hmapped
            · exact absurd hinternal hcategory
            · exact absurd ⟨hscope.2, hfx, _, hmade.onAccount haccount⟩ hunreached
            · exact hmapped
          obtain ⟨contra, hcontra, hbuilt⟩ := bind_eq_ok.mp hentry
          obtain rfl := Except.ok.inj hbuilt
          exact postsOn_pair (P := fun name => ¬ name.Spending) rfl
            (hown _ (mem_of_accountOf haccount))
            (not_spending_of_mapped hnames hslug hmapped hcontra)
    · rw [(hmade.ofPortfolios e he).txnIds] at hid
      cases hid

end

/-! ### A transfer with a blank before it -/

/-- The bank leg of a transfer, its category stored with a blank before it. -/
def paddedTransfer : Books :=
  { billAndTransfer with
    transactions := ⟨[bankRow 3 1 "debit" " self_transfer" (some "IMPS1")], by decide⟩ }

/-- What the report posts, and to which accounts. -/
def postedTo (report : Projection) : List (List Nat × List String) :=
  report.entries.map fun e => (e.txnIds, e.postings.map (·.account.name))

omit [UnicodeTables] in
/-- **It is posted as spending.** -/
theorem padded_transfer_spent : ∃ report,
    @project asciiTables asciiTitles allAccounts paddedTransfer = .ok report ∧
      @categorySlug asciiTables (some " self_transfer") = selfTransferSlug ∧
      postedTo report = [([3], ["Assets:Bank:Hdfc:Salary", "Expenses:Self Transfer"])] ∧
      ¬ ∀ e ∈ report.entries, 3 ∈ e.txnIds → NoSpending e := by
  have hrun : (@project asciiTables asciiTitles allAccounts paddedTransfer).toOption.map
      (fun report => (postedTo report, report.entries.map fun e =>
        (decide (3 ∈ e.txnIds), e.postings.any fun p => decide p.account.Spending))) =
      some ([([3], ["Assets:Bank:Hdfc:Salary", "Expenses:Self Transfer"])], [(true, true)]) := by
    decide +kernel
  cases h : @project asciiTables asciiTitles allAccounts paddedTransfer with
  | error e =>
    rw [h] at hrun
    cases hrun
  | ok report =>
    rw [h] at hrun
    obtain ⟨hposted, hspent⟩ := Prod.mk.inj (Option.some.inj hrun)
    refine ⟨report, rfl, by decide +kernel, hposted, fun hkept => ?_⟩
    have hmem : (true, true) ∈ report.entries.map fun e =>
        (decide (3 ∈ e.txnIds), e.postings.any fun p => decide p.account.Spending) := by
      rw [hspent]
      exact List.mem_singleton.mpr rfl
    obtain ⟨e, he, heq⟩ := List.mem_map.mp hmem
    obtain ⟨hid, hany⟩ := Prod.mk.inj heq
    obtain ⟨p, hp, hspending⟩ := List.any_eq_true.mp hany
    exact hkept e he (of_decide_eq_true hid) p hp (of_decide_eq_true hspending)

omit [UnicodeTables] in
theorem operatorKeepsTransfers_allAccounts :
    @OperatorKeepsTransfers asciiTables allAccounts := by
  have haccounts : allAccounts.accountMappings = ∅ := rfl
  have hcategories : allAccounts.categoryMappings = ∅ := rfl
  refine @OperatorKeepsTransfers.mk asciiTables _ (fun id raw hmapped => ?_)
    (fun slug _ raw hmapped => ?_)
  · rw [haccounts, AList.lookup_empty] at hmapped
    cases hmapped
  · rw [hcategories, AList.lookup_empty] at hmapped
    cases hmapped

omit [UnicodeTables] in
/-- A transfer whose category is stored without blanks. -/
theorem internal_iff_billAndTransfer : ∃ report,
    @project asciiTables asciiTitles allAccounts billAndTransfer = .ok report ∧
      ∀ e ∈ report.entries, 3 ∈ e.txnIds → NoSpending e := by
  have hok : (@project asciiTables asciiTitles allAccounts billAndTransfer).isOk = true := by
    decide +kernel
  cases h : @project asciiTables asciiTitles allAccounts billAndTransfer with
  | error e =>
    rw [h] at hok
    cases hok
  | ok report =>
    refine ⟨report, rfl, ?_⟩
    refine (@internal_iff asciiTables asciiTitles allAccounts
      (bankRow 3 1 "debit" "self_transfer" (some "IMPS1")) billAndTransfer 737000 report rfl h
      operatorKeepsTransfers_allAccounts ?_ ?_).mpr (.inl ?_)
    · exact List.mem_cons_of_mem _ (List.mem_cons_of_mem _ List.mem_cons_self)
    · decide +kernel
    · decide +kernel

end FinancialDashboard.Paisa
