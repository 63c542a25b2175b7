import FinancialDashboard.Paisa.InternalMovements
import FinancialDashboard.Paisa.ProjectedBalance

/-!
# The investments in the document

What all postings of a document put on the valuation accounts, against the investment component
of `current_networth`.

The names an operator gives to accounts and categories are checked for their form only.  One of
them may be that of a valuation account, and then what is posted on it stands beside the entries
of the portfolios.

* `valuationTotal_journal`: the postings come to the component and to what stands beside.
* `valuation_parity`: they come to the component where nothing does.
* `valuedByPortfolios_of_names`: nothing does where no name of the operator is such an account's.
-/

namespace FinancialDashboard.Paisa

open Networth (BalanceSnapshot investmentComponent currentNetworth investmentComponent_eq)
open Posting PyText Transactions

/-! ### What stands beside the portfolios -/

/-- The postings that are no portfolio's: of the openings, and of the transactions up to a day. -/
def postedBeside (report : Projection) (d : Int) : List LedgerPosting :=
  report.openings.map (fun ob => ⟨ob.accountName, ob.amount, "INR"⟩) ++
    (report.entries.filter fun e => e.kind ≠ .valuation && e.date ≤ d).flatMap (·.postings)

/-- None of them is on a valuation account. -/
structure ValuedByPortfolios (report : Projection) : Prop where
  openings : ∀ ob ∈ report.openings, isValuationAccount ob.accountName = false
  entries : ∀ e ∈ report.entries, e.kind ≠ .valuation →
    ∀ p ∈ e.postings, isValuationAccount p.account = false

theorem ValuedByPortfolios.valuationTotal_eq {report : Projection} (h : ValuedByPortfolios report)
    (d : Int) : valuationTotal (postedBeside report d) = 0 := by
  refine valuationTotal_of_none fun p hp => ?_
  rcases List.mem_append.mp hp with hp | hp
  · obtain ⟨ob, hob, rfl⟩ := List.mem_map.mp hp
    exact h.openings ob hob
  · obtain ⟨e, he, hp⟩ := List.mem_flatMap.mp hp
    obtain ⟨he, hkind⟩ := List.mem_filter.mp he
    rw [Bool.and_eq_true, decide_eq_true_eq] at hkind
    exact h.entries e he hkind.1 p hp

theorem isValuationAccount_equityOpening (backend : Backend) :
    isValuationAccount (equityOpening backend) = false := by
  cases backend <;> rfl

/-- Nor the openings that are not printed, nor their equity, change the total. -/
theorem valuationTotal_openingEntry (backend : Backend) (openings : List OpeningBalance) :
    valuationTotal (openingEntry backend openings) =
      valuationTotal (openings.map fun ob => ⟨ob.accountName, ob.amount, "INR"⟩) := by
  have hprinted : valuationTotal (openings.map fun ob => ⟨ob.accountName, ob.amount, "INR"⟩) =
      valuationTotal ((nonzeroOpenings openings).map fun ob => ⟨ob.accountName, ob.amount, "INR"⟩) := by
    induction openings with
    | nil => rfl
    | cons ob rest ih =>
      have hcons : ∀ postings : List LedgerPosting,
          valuationTotal (⟨ob.accountName, ob.amount, "INR"⟩ :: postings) =
            valuationTotal [⟨ob.accountName, ob.amount, "INR"⟩] + valuationTotal postings :=
        fun postings => valuationTotal_append [_] postings
      rw [List.map_cons, hcons, ih]
      by_cases hzero : ob.amount = 0
      · have hskipped : nonzeroOpenings (ob :: rest) = nonzeroOpenings rest := by
          simp [nonzeroOpenings, hzero]
        have hnothing : valuationTotal [⟨ob.accountName, ob.amount, "INR"⟩] = 0 := by
          unfold valuationTotal
          by_cases haccount : isValuationAccount ob.accountName = true
          · simp [haccount, hzero]
          · simp [haccount]
        rw [hskipped, hnothing, zero_add]
      · have hkept : nonzeroOpenings (ob :: rest) = ob :: nonzeroOpenings rest := by
          simp [nonzeroOpenings, hzero]
        rw [hkept, List.map_cons]
        exact (hcons _).symm
  rw [hprinted]
  unfold openingEntry
  split_ifs with hnone
  · rw [hnone]
    rfl
  · unfold openingPostings
    rw [valuationTotal_append]
    have hequity : valuationTotal [⟨equityOpening backend, equityAmount openings, "INR"⟩] = 0 :=
      valuationTotal_of_none fun p hp => by
        rw [List.mem_singleton.mp hp]
        exact isValuationAccount_equityOpening backend
    rw [hequity, add_zero]

section

variable [UnicodeTables] [TitleTables] {config : PaisaProjectionConfig} {books : Books}
  {cutover d : Int} {report : Projection} {accounts : List LedgerAccount}
  {batch : Batch Emission SkippedRow} {portfolios : List ProjectedEntry}

/-! ### The component -/

theorem PartsOf.postedBeside_perm (h : PartsOf config books report accounts batch portfolios) :
    (report.entries.filter fun e => e.kind ≠ .valuation && e.date ≤ d).Perm
      ((batch.posted.map (·.entry)).filter (·.date ≤ d)) := by
  have hperm := h.entries.filter fun e => e.kind ≠ .valuation && e.date ≤ d
  rw [List.filter_append] at hperm
  have hportfolios : portfolios.filter (fun e => e.kind ≠ .valuation && e.date ≤ d) = [] := by
    rw [List.filter_eq_nil_iff]
    intro e he
    simp [(h.ofPortfolios e he).kind]
  have hposted : (batch.posted.map (·.entry)).filter (fun e => e.kind ≠ .valuation && e.date ≤ d) =
      (batch.posted.map (·.entry)).filter (·.date ≤ d) := by
    refine List.filter_congr fun e he => ?_
    obtain ⟨emission, -, rfl⟩ := List.mem_map.mp he
    simp [emission.notValuation]
  rwa [hportfolios, hposted, List.append_nil] at hperm

/-- **The postings on the valuation accounts come to the component and what stands beside it.** -/
theorem valuationTotal_journal (h : project config books = .ok report)
    (hon : config.projectInvestments = true) (hd : report.cutover ≤ d) (backend : Backend) :
    valuationTotal (journalUpTo backend report d) =
      investmentComponent (currentNetworth books.networth d) +
        valuationTotal (postedBeside report d) := by
  obtain ⟨accounts, batch, portfolios, hparts⟩ := exists_partsOf h
  have hportfolios : valuationBalance portfolios d =
      investmentComponent (currentNetworth books.networth d) := by
    have hvalued := hparts.valued
    generalize hinner : valuationConfig config books report.cutover = inner at hvalued
    rw [investmentComponent_eq]
    refine valuationBalance_casEntries ?_ ?_ hvalued
    · exact hinner ▸ hon
    · exact hinner ▸ hd
  have hentries : valuationTotal ((report.entries.filter (·.date ≤ d)).flatMap (·.postings)) =
      valuationBalance (batch.posted.map (·.entry)) d + valuationBalance portfolios d := by
    rw [← valuationBalance_append]
    exact valuationBalance_perm hparts.entries
  have hbeside : valuationTotal
      ((report.entries.filter fun e => e.kind ≠ .valuation && e.date ≤ d).flatMap (·.postings)) =
        valuationBalance (batch.posted.map (·.entry)) d :=
    ((((hparts.postedBeside_perm (d := d)).flatMap_right _).filter _).map _).sum_eq
  unfold journalUpTo postedBeside
  rw [if_pos hd, valuationTotal_append, valuationTotal_append, valuationTotal_openingEntry, hentries,
    hbeside, hportfolios]
  ring

/-- **The journal and the dashboard agree on the investments**: in every document in which no
opening and no transaction is posted to a valuation account, up to every day from the cutover on. -/
theorem valuation_parity (hcutover : config.cutoverDate = some cutover)
    (hon : config.projectInvestments = true) (hd : cutover ≤ d)
    (h : project config books = .ok report) (hvalued : ValuedByPortfolios report) :
    valuationTotal (journalUpTo config.ledgerCli report d) =
      investmentComponent (currentNetworth books.networth d) := by
  obtain ⟨accounts, batch, portfolios, hparts⟩ := exists_partsOf h
  have hsame : report.cutover = cutover := Option.some.inj (hparts.cutover.symm.trans hcutover)
  rw [valuationTotal_journal h hon (hsame.trans_le hd), hvalued.valuationTotal_eq, add_zero]

/-! ### The operator's names -/

omit [TitleTables] in
/-- No name the operator has given is a valuation account's. -/
structure OperatorKeepsValuations (config : PaisaProjectionConfig) : Prop where
  accounts : ∀ (id : Nat) (raw : String), config.accountMappings.lookup (toString id) = some raw →
    ∀ name, validateAccountName config.ledgerCli raw = some name → isValuationAccount name = false
  categories : ∀ (slug raw : String), config.categoryMappings.lookup slug = some raw →
    ∀ name, validateAccountName config.ledgerCli raw = some name → isValuationAccount name = false

omit [TitleTables] in
/-- A generated name is none unless it was made to be one. -/
theorem not_valuation_of_normalize {backend : Backend} {raw name : AccountName} {label : String}
    (h : normalizePolicyAccount backend raw label = .ok name)
    (hraw : isValuationAccount raw = false)
    (hpascal : isValuationAccount { raw with segments := raw.segments.map pascal } = false) :
    isValuationAccount name = false := by
  rcases normalize_eq_ok h with rfl | rfl
  · exact hraw
  · exact hpascal

theorem not_valuation_of_resolve (hnames : OperatorKeepsValuations config) {account : Account}
    {ledger : LedgerAccount}
    (h : resolveAccount account config.accountMappings config.ledgerCli = .ok ledger) :
    isValuationAccount ledger.name = false := by
  unfold resolveAccount at h
  obtain ⟨name, hname, h⟩ := bind_eq_ok.mp h
  obtain rfl := Except.ok.inj h
  unfold ledgerName at hname
  dsimp only at hname
  cases hmapped : config.accountMappings.lookup (toString account.id) with
  | some raw =>
    rw [hmapped] at hname
    exact hnames.accounts account.id raw hmapped _ (overrideName_eq_ok hname)
  | none =>
    rw [hmapped] at hname
    refine not_valuation_of_normalize hname ?_ ?_
    · cases accountKind account.type <;> rfl
    · cases accountKind account.type <;> rfl

omit [TitleTables] in
theorem not_valuation_of_clearing (hnames : OperatorKeepsValuations config) {name : AccountName}
    (h : cardClearingAccount config.categoryMappings config.ledgerCli = .ok name) :
    isValuationAccount name = false := by
  unfold cardClearingAccount at h
  cases hmapped : config.categoryMappings.lookup creditCardPaymentSlug with
  | some raw =>
    rw [hmapped] at h
    exact hnames.categories _ raw hmapped _ (overrideName_eq_ok h)
  | none =>
    rw [hmapped] at h
    exact not_valuation_of_normalize h (by decide) (by decide)

/-- What a category stands for without a mapping is none. -/
theorem not_valuation_of_defaultContra {slug label : String} {name : AccountName}
    (h : normalizePolicyAccount config.ledgerCli (defaultContra slug) label = .ok name) :
    isValuationAccount name = false := by
  unfold defaultContra at h
  refine not_valuation_of_normalize h ?_ ?_
  · cases categoryKind slug <;> rfl
  · cases categoryKind slug <;> rfl

theorem not_valuation_of_contra (hnames : OperatorKeepsValuations config) {t : BookedTransaction}
    {contra : Contra} (h : contraOf config t = .ok contra) :
    isValuationAccount contra.account = false := by
  unfold contraOf at h
  split_ifs at h
  · obtain ⟨account, haccount, h⟩ := bind_eq_ok.mp h
    obtain rfl := Except.ok.inj h
    exact not_valuation_of_normalize haccount (by decide) (by decide)
  · obtain ⟨account, haccount, h⟩ := bind_eq_ok.mp h
    obtain rfl := Except.ok.inj h
    unfold contraAccount at haccount
    dsimp only at haccount
    cases hmapped : config.categoryMappings.lookup (categorySlug t.category) with
    | some raw =>
      rw [hmapped] at haccount
      exact hnames.categories _ raw hmapped _ (overrideName_eq_ok haccount)
    | none =>
      rw [hmapped] at haccount
      exact not_valuation_of_defaultContra haccount

/-- **Only the portfolios' entries are on valuation accounts** where the operator has named none. -/
theorem valuedByPortfolios_of_names (h : project config books = .ok report)
    (hnames : OperatorKeepsValuations config) : ValuedByPortfolios report := by
  obtain ⟨accounts, batch, portfolios, hparts⟩ := exists_partsOf h
  have hids := nodup_transactionsInScope config books report.cutover
  have hown : ∀ a ∈ accounts, isValuationAccount a.name = false := by
    intro a ha
    obtain ⟨account, -, hresolve⟩ := exists_left hparts.resolved ha
    exact not_valuation_of_resolve hnames hresolve
  constructor
  · intro ob hob
    rw [hparts.openings] at hob
    obtain ⟨a, ha, hopening⟩ := List.mem_filterMap.mp hob
    have hname : ob.accountName = a.name := by
      unfold openingForAccount at hopening
      cases hsnapshot : latestSnapshot books a.accountId report.cutover with
      | some s =>
        rw [hsnapshot] at hopening
        rw [← Option.some.inj hopening]
      | none =>
        rw [hsnapshot] at hopening
        obtain ⟨t, -, hopening⟩ := Option.bind_eq_some_iff.mp hopening
        obtain ⟨balance, -, hopening⟩ := Option.bind_eq_some_iff.mp hopening
        rw [← Option.some.inj hopening]
    rw [hname]
    exact hown a ((List.mem_insertionSort _).mp ha)
  · intro e he hkind
    rcases List.mem_append.mp (hparts.entries.mem_iff.mp he) with he | he
    · obtain ⟨emission, hposted, rfl⟩ := List.mem_map.mp he
      have hposts : PostsOn (isValuationAccount · = false) emission.entry := by
        rcases posted_origin hids hparts.projected hposted with ⟨group, -, hpair⟩ |
          ⟨u, -, b, hrow, hb⟩
        · exact postsOn_of_pair hown hpair
        · obtain ⟨account, haccount, hcases⟩ := ownEntry_cases hrow hb
          rcases hcases with ⟨-, hentry⟩ | ⟨-, hentry⟩
          · exact postsOn_of_cardPayment (fun _ => not_valuation_of_clearing hnames) hown
              (mem_of_accountOf haccount) hentry
          · obtain ⟨contra, hcontra, hbuilt⟩ := bind_eq_ok.mp hentry
            obtain rfl := Except.ok.inj hbuilt
            exact postsOn_pair rfl (hown _ (mem_of_accountOf haccount))
              (not_valuation_of_contra hnames hcontra)
      exact hposts
    · exact absurd (hparts.ofPortfolios e he).kind hkind

end

/-! ### Two portfolios -/

def casStatement (id : Nat) (portfolioKey : Option String) (asOfDate : Int) (value : Rat)
    (currency : String) : BalanceSnapshot where
  id
  accountId := none
  casUploadId := some id
  manualItemId := none
  portfolioKey
  kind := .asset
  category := .investment
  asOfDate
  value
  currency
  oneSource := BalanceSnapshot.oneSource_cas id
  keyOfCas _ := rfl
  investmentOfCas := BalanceSnapshot.investmentOfCas_cas id
  assetOfCas _ := rfl

/-- One portfolio known before the cutover; one without a key, from after it, that a
statement in dollars ends.  A thousand went from the bank into investments. -/
def twoPortfolios : Books :=
  { billAndTransfer with
    transactions := ⟨[{ bankRow 1 1 "debit" "investment" none with amount := 1000 }], by decide⟩
    networth := ⟨⟨[casStatement 1 (some "ABCDE1234F") 736900 5000 "INR",
      casStatement 2 none 737020 300 "INR", casStatement 3 (some "ABCDE1234F") 737140 5600 "INR",
      casStatement 4 none 737140 300 "USD"], by decide⟩, [], [], []⟩
    secret := some "secret"
    digest := fun _ _ => "MZXW6YTB" }

def investing : PaisaProjectionConfig := { allAccounts with projectInvestments := true }

/-- The operator has mapped the category of investments to the valuation account. -/
def investingOnValuation : PaisaProjectionConfig :=
  { investing with
    categoryMappings := (∅ : Mappings).insert "investment" "Assets:Investments:Valuation" }

/-- **The thousand is counted beside the portfolios.** -/
theorem mapped_investment_counted : ∃ report,
    @project asciiTables asciiTitles investingOnValuation twoPortfolios = .ok report ∧
      valuationTotal (journalUpTo .ledger report 738000) = 6600 ∧
      investmentComponent (@currentNetworth asciiTables twoPortfolios.networth 738000) = 5600 := by
  have hrun : (@project asciiTables asciiTitles investingOnValuation twoPortfolios).toOption.map
      (fun report => (valuationTotal (journalUpTo .ledger report 738000),
        valuationTotal (postedBeside report 738000), report.cutover)) =
      some (6600, 1000, 737000) := by
    decide +kernel
  cases h : @project asciiTables asciiTitles investingOnValuation twoPortfolios with
  | error e =>
    rw [h] at hrun
    cases hrun
  | ok report =>
    rw [h] at hrun
    obtain ⟨htotal, hrest⟩ := Prod.mk.inj (Option.some.inj hrun)
    obtain ⟨hbeside, hcutover⟩ := Prod.mk.inj hrest
    refine ⟨report, rfl, htotal, ?_⟩
    have hjournal := @valuationTotal_journal asciiTables asciiTitles investingOnValuation
      twoPortfolios 738000 report h rfl (by rw [hcutover]; decide) .ledger
    rw [htotal, hbeside] at hjournal
    linarith

theorem operatorKeepsValuations_investing : @OperatorKeepsValuations asciiTables investing := by
  have haccounts : investing.accountMappings = ∅ := rfl
  have hcategories : investing.categoryMappings = ∅ := rfl
  refine @OperatorKeepsValuations.mk asciiTables _ (fun id raw hmapped => ?_)
    fun slug raw hmapped => ?_
  · rw [haccounts, AList.lookup_empty] at hmapped
    cases hmapped
  · rw [hcategories, AList.lookup_empty] at hmapped
    cases hmapped

theorem valuation_parity_twoPortfolios : ∃ report,
    @project asciiTables asciiTitles investing twoPortfolios = .ok report ∧
      valuationTotal (journalUpTo .ledger report 738000) =
        investmentComponent (@currentNetworth asciiTables twoPortfolios.networth 738000) := by
  have hok : (@project asciiTables asciiTitles investing twoPortfolios).isOk = true := by
    decide +kernel
  cases h : @project asciiTables asciiTitles investing twoPortfolios with
  | error e =>
    rw [h] at hok
    cases hok
  | ok report =>
    exact ⟨report, rfl, @valuation_parity asciiTables asciiTitles investing twoPortfolios 737000
      738000 report rfl rfl (by decide) h
      (@valuedByPortfolios_of_names asciiTables asciiTitles investing twoPortfolios report h
        operatorKeepsValuations_investing)⟩

end FinancialDashboard.Paisa
