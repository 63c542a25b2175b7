import FinancialDashboard.Paisa.Balance

/-!
# The projected balance

What `build_reconciliation` (`services/paisa/reconciliation.py`) reports as the projected
balance of an account, against the journal that is rendered from the same report.

The reconciliation takes the opening of the account itself and the postings on its ledger
name, in rupees, of whatever date, and shows what is owed on a card as a positive amount.

* `sum_openings`: the openings on a ledger name that no other account opens.
* `projectedBalance_eq`: the balance is that of the journal on the name.
* `unlike_journal`: that of a card has the other sign, and that of a savings account counts
  what is dated later.

The cells of the native snapshots and of Paisa, the notes and the suggestions are left out.
-/

namespace FinancialDashboard.Paisa

open PyText PyTime Posting

section

variable [UnicodeTables]

/-! ### What is reported -/

/-- The commodity of a posting, as the reconciliation reads it. -/
def postingCommodity (raw : String) : String := if strip raw = "" then "INR" else strip raw

def inRupees (posting : LedgerPosting) : Bool := postingCommodity posting.commodity = "INR"

/-- `_ProjectedDelta`. -/
structure ProjectedDelta where
  amount : Rat
  foreignPostingCounts : List (String × Nat)
  deriving DecidableEq

/-- The postings on a ledger name. -/
def postingsOn (name : String) (postings : List LedgerPosting) : List LedgerPosting :=
  postings.filter (·.account.name = name)

/-- What the postings on a name add up to in rupees. -/
def rupeeBalance (name : String) (postings : List LedgerPosting) : Rat :=
  (((postingsOn name postings).filter inRupees).map (·.amount)).sum

def foreignCounts (postings : List LedgerPosting) : List (String × Nat) :=
  let foreign := (postings.map fun posting => postingCommodity posting.commodity).filter (· ≠ "INR")
  (foreign.dedup.insertionSort (· ≤ ·)).map fun commodity => (commodity, foreign.count commodity)

/-- `_balance_by_posting_account`, at one name. -/
def balanceByPostingAccount (report : Projection) (name : String) : Option ProjectedDelta :=
  let postings := report.entries.flatMap (·.postings)
  if postingsOn name postings = [] then none
  else some ⟨rupeeBalance name postings, foreignCounts (postingsOn name postings)⟩

/-- `opening_by_id.get(account_id)`. -/
def openingById (report : Projection) (accountId : Nat) : Option OpeningBalance :=
  (report.openings.filter (·.accountId = accountId)).getLast?

/-- `_to_decimal_str`. -/
def toDecimalStr (value : Rat) : Option String := (quantizeCents value).toOption.map amountText

/-- The projected cell of a `PaisaReconcileAccountRow`. -/
structure ReconcileRow where
  accountId : Nat
  mappedTo : AccountName
  kind : AccountKind
  projectedBalance : Option String
  openingSource : Option OpeningSource
  openingAsOf : Option Int
  foreignPostingCounts : List (String × Nat)
  deriving DecidableEq

/-- An amount owed is shown without its sign. -/
def shown (kind : AccountKind) (ending : Rat) : Rat := if kind = .liability then -ending else ending

/-- The row of an account; without a report it has no balance. -/
def reconcileRow (report : Option Projection) (account : LedgerAccount) : ReconcileRow :=
  match report with
  | none => ⟨account.accountId, account.name, account.kind, none, none, none, []⟩
  | some report =>
    let opening := openingById report account.accountId
    let base := (opening.map (·.amount)).getD 0
    let info := balanceByPostingAccount report account.name.name
    let deltaAmount := (info.map (·.amount)).getD 0
    { accountId := account.accountId
      mappedTo := account.name
      kind := account.kind
      projectedBalance := toDecimalStr (shown account.kind (base + deltaAmount))
      openingSource := opening.map (·.source)
      openingAsOf := opening.map (·.asOf)
      foreignPostingCounts := (info.map (·.foreignPostingCounts)).getD [] }

/-- `build_reconciliation`: the rows of the selected accounts by id. -/
def buildReconciliation [TitleTables] (config : PaisaProjectionConfig) (books : Books)
    (report : Option Projection) : Except NameError (List ReconcileRow) :=
  ((selectedAccounts config books).insertionSort (·.id ≤ ·.id)).mapM fun account => do
    let ledger ← resolveAccount account config.accountMappings config.ledgerCli
    return reconcileRow report ledger

/-! ### The journal -/

omit [UnicodeTables] in
/-- The opening entry of the journal; without an opening there is none. -/
def openingEntry (backend : Backend) (openings : List OpeningBalance) : List LedgerPosting :=
  if nonzeroOpenings openings = [] then [] else openingPostings backend openings

omit [UnicodeTables] in
/-- The postings of the journal up to a day, as the renderer goes through them. -/
def journalUpTo (backend : Backend) (report : Projection) (today : Int) : List LedgerPosting :=
  (if report.cutover ≤ today then openingEntry backend report.openings else []) ++
    (report.entries.filter (·.date ≤ today)).flatMap (·.postings)

omit [UnicodeTables] in
def journalPostings (backend : Backend) (report : Projection) : List LedgerPosting :=
  openingEntry backend report.openings ++ report.entries.flatMap (·.postings)

/-- The projected balance as that of the journal up to a day. -/
def AsJournal (backend : Backend) (report : Projection) (today : Int) (row : ReconcileRow) : Prop :=
  row.projectedBalance = toDecimalStr
    (rupeeBalance row.mappedTo.name (journalUpTo backend report today))

/-- No account but that of the row has an opening on the name, nor has the equity that offsets
the openings. -/
structure OnlyOwnOpening (backend : Backend) (report : Projection) (row : ReconcileRow) :
    Prop where
  own : ∀ ob ∈ report.openings, ob.accountName.name = row.mappedTo.name →
    ob.accountId = row.accountId ∨ ob.amount = 0
  not_equity : (equityOpening backend).name ≠ row.mappedTo.name

instance (backend : Backend) (report : Projection) (row : ReconcileRow) :
    Decidable (OnlyOwnOpening backend report row) :=
  decidable_of_iff ((∀ ob ∈ report.openings, ob.accountName.name = row.mappedTo.name →
      ob.accountId = row.accountId ∨ ob.amount = 0) ∧
    (equityOpening backend).name ≠ row.mappedTo.name)
    ⟨fun h => ⟨h.1, h.2⟩, fun h => ⟨h.own, h.not_equity⟩⟩

/-- A number of cents. -/
def WholeCents (amount : Rat) : Prop := ∃ n : Int, amount = n / 100

/-- The projected balance is that of the journal, which is printed in cents. -/
structure FollowsJournal (backend : Backend) (report : Projection) (row : ReconcileRow) :
    Prop where
  balance : row.projectedBalance = toDecimalStr
    (shown row.kind (rupeeBalance row.mappedTo.name (journalPostings backend report)))
  as_printed : (∀ posting ∈ postingsOn row.mappedTo.name (journalPostings backend report),
      inRupees posting = true → WholeCents posting.amount) →
    rupeeBalance row.mappedTo.name (journalPostings backend report) =
      (((postingsOn row.mappedTo.name (journalPostings backend report)).filter inRupees).map
        fun posting => printedAmount posting.commodity posting.amount).sum

/-! ### Sums -/

variable {name : String} {postings more : List LedgerPosting}

theorem rupeeBalance_append :
    rupeeBalance name (postings ++ more) = rupeeBalance name postings + rupeeBalance name more := by
  simp [rupeeBalance, postingsOn]

theorem rupeeBalance_of_none (h : postingsOn name postings = []) :
    rupeeBalance name postings = 0 := by
  rw [rupeeBalance, h]
  rfl

omit [UnicodeTables] in
theorem sum_map_filter {α : Type} (p : α → Bool) (f : α → Rat) (l : List α) :
    ((l.filter p).map f).sum = (l.map fun a => if p a = true then f a else 0).sum := by
  rw [List.sum_map_ite, List.map_const', List.sum_replicate, nsmul_zero, add_zero]
  simp

/-- The amounts of the entries on a name. -/
theorem balanceByPostingAccount_eq (report : Projection) (name : String) :
    ((balanceByPostingAccount report name).map (·.amount)).getD 0 =
      rupeeBalance name (report.entries.flatMap (·.postings)) := by
  unfold balanceByPostingAccount
  dsimp only
  by_cases h : postingsOn name (report.entries.flatMap (·.postings)) = []
  · rw [if_pos h, rupeeBalance_of_none h]
    rfl
  · rw [if_neg h]
    rfl

omit [UnicodeTables] in
theorem printedAmount_of_wholeCents {amount : Rat} (commodity : String) (h : WholeCents amount) :
    printedAmount commodity amount = amount := by
  obtain ⟨n, rfl⟩ := h
  rw [printedAmount_eq, cents, div_mul_cancel₀ _ (by norm_num : (100 : Rat) ≠ 0),
    Rounding.roundEven_intCast]

/-! ### The openings on a name -/

theorem inRupees_opening (account : AccountName) (amount : Rat) :
    inRupees ⟨account, amount, "INR"⟩ = true := by
  have hletters : ∀ c ∈ ['I', 'N', 'R'], c.isAlpha = true := by simp
  have hspace : ∀ c ∈ ['I', 'N', 'R'], UnicodeTables.isSpace c = false := fun c hc =>
    UnicodeTables.isSpace_letter c (hletters c hc)
  have hstrip : strip "INR" = "INR" := by
    simp [strip, hspace 'I' (by decide), hspace 'R' (by decide)]
  simp [inRupees, postingCommodity, hstrip]

/-- What the openings on a name add up to. -/
def openingsBalance (name : String) (openings : List OpeningBalance) : Rat :=
  ((openings.filter (·.accountName.name = name)).map (·.amount)).sum

theorem rupeeBalance_openingEntry {backend : Backend} {openings : List OpeningBalance}
    (h : (equityOpening backend).name ≠ name) :
    rupeeBalance name (openingEntry backend openings) = openingsBalance name openings := by
  have hnonzero : rupeeBalance name ((nonzeroOpenings openings).map fun ob =>
      ⟨ob.accountName, ob.amount, "INR"⟩) = openingsBalance name openings := by
    unfold rupeeBalance postingsOn openingsBalance nonzeroOpenings
    induction openings with
    | nil => rfl
    | cons ob rest ih =>
      by_cases hzero : ob.amount = 0
      · rw [List.filter_cons_of_neg (by simp [hzero]), ih]
        by_cases hname : ob.accountName.name = name
        · rw [List.filter_cons_of_pos (by simp [hname]), List.map_cons, List.sum_cons, hzero,
            zero_add]
        · rw [List.filter_cons_of_neg (by simp [hname])]
      · rw [List.filter_cons_of_pos (by simp [hzero]), List.map_cons]
        by_cases hname : ob.accountName.name = name
        · rw [List.filter_cons_of_pos (by simp [hname]), List.filter_cons_of_pos
            (inRupees_opening _ _), List.map_cons, List.sum_cons, ih,
            List.filter_cons_of_pos (by simp [hname]), List.map_cons, List.sum_cons]
        · rw [List.filter_cons_of_neg (by simp [hname]), ih,
            List.filter_cons_of_neg (by simp [hname])]
  have hequity : rupeeBalance name [⟨equityOpening backend, equityAmount openings, "INR"⟩] = 0 :=
    rupeeBalance_of_none (List.filter_eq_nil_iff.mpr fun posting hmem => by
      rw [List.mem_singleton.mp hmem]
      simpa using h)
  unfold openingEntry
  by_cases hnone : nonzeroOpenings openings = []
  · rw [if_pos hnone, ← hnonzero, hnone]
    rfl
  · rw [if_neg hnone, openingPostings, rupeeBalance_append, hnonzero, hequity, add_zero]

omit [UnicodeTables] in
theorem sum_of_nodup {accountId : Nat} {openings : List OpeningBalance}
    (h : (openings.map (·.accountId)).Nodup) :
    ((openings.filter (·.accountId = accountId)).map (·.amount)).sum =
      (((openings.filter (·.accountId = accountId)).getLast?).map (·.amount)).getD 0 := by
  have hlength : (openings.filter (·.accountId = accountId)).length ≤ 1 := by
    have hcount := List.nodup_iff_count_le_one.mp h accountId
    rw [List.count, List.countP_map, List.countP_eq_length_filter] at hcount
    refine hcount.trans' (le_of_eq (congrArg List.length (List.filter_congr fun ob _ => ?_)))
    rw [Bool.eq_iff_iff]
    simp
  generalize openings.filter (·.accountId = accountId) = found at hlength
  match found with
  | [] => rfl
  | [ob] => exact List.sum_singleton
  | _ :: _ :: rest => simp at hlength

omit [UnicodeTables] in
/-- **The openings on a name are that of its account** if no other opens it. -/
theorem sum_openings {backend : Backend} {report : Projection} {row : ReconcileRow}
    (hids : (report.openings.map (·.accountId)).Nodup)
    (hname : ∀ ob ∈ report.openings, ob.accountId = row.accountId → ob.accountName = row.mappedTo)
    (hown : OnlyOwnOpening backend report row) :
    openingsBalance row.mappedTo.name report.openings =
      ((openingById report row.accountId).map (·.amount)).getD 0 := by
  unfold openingsBalance openingById
  rw [← sum_of_nodup hids, sum_map_filter, sum_map_filter]
  refine congrArg List.sum (List.map_congr_left fun ob hob => ?_)
  by_cases hid : ob.accountId = row.accountId
  · rw [if_pos (by simp [hname ob hob hid]), if_pos (by simp [hid])]
  · rw [if_neg (c := decide (ob.accountId = row.accountId) = true) (by simp [hid])]
    by_cases hon : ob.accountName.name = row.mappedTo.name
    · rw [if_pos (by simp [hon])]
      exact (hown.own ob hob hon).resolve_left hid
    · rw [if_neg (by simp [hon])]

/-! ### What is reported against the journal -/

variable [TitleTables] {config : PaisaProjectionConfig} {books : Books} {report : Projection}
  {rows : List ReconcileRow} {row : ReconcileRow}

omit [UnicodeTables] [TitleTables] in
theorem openingForAccount_spec {account : LedgerAccount} {cutover : Int} {ob : OpeningBalance}
    (h : openingForAccount books account cutover = some ob) :
    ob.accountId = account.accountId ∧ ob.accountName = account.name := by
  unfold openingForAccount at h
  split at h
  · obtain rfl := Option.some.inj h
    exact ⟨rfl, rfl⟩
  · obtain ⟨t, -, h⟩ := Option.bind_eq_some_iff.mp h
    obtain ⟨balance, -, h⟩ := Option.bind_eq_some_iff.mp h
    obtain rfl := Option.some.inj h
    exact ⟨rfl, rfl⟩

theorem ids_of_resolved {accounts : List Account} {ledgers : List LedgerAccount}
    (h : List.Forall₂ (fun account ledger =>
      resolveAccount account config.accountMappings config.ledgerCli = .ok ledger)
      accounts ledgers) : ledgers.map (·.accountId) = accounts.map (·.id) := by
  induction h with
  | nil => rfl
  | cons hone _ ih => rw [List.map_cons, List.map_cons, ih, (resolveAccount_eq_ok hone).1]

/-- The openings of a report are those of the selected accounts, on their names. -/
theorem openings_of_project (h : project config books = .ok report) :
    (report.openings.map (·.accountId)).Nodup ∧
      ∀ ob ∈ report.openings, ∃ account ∈ selectedAccounts config books, ∃ ledger,
        resolveAccount account config.accountMappings config.ledgerCli = .ok ledger ∧
          account.id = ob.accountId ∧ ledger.name = ob.accountName := by
  unfold project at h
  split at h
  · cases h
  rename_i cutover hcutover
  cases hfrom : projectFrom config books cutover with
  | error e =>
    rw [hfrom] at h
    cases h
  | ok made =>
    rw [hfrom] at h
    obtain rfl := Except.ok.inj h
    unfold projectFrom at hfrom
    obtain ⟨accounts, haccounts, hfrom⟩ := bind_eq_ok.mp hfrom
    obtain ⟨batch, -, hfrom⟩ := bind_eq_ok.mp hfrom
    obtain ⟨entries, -, hfrom⟩ := bind_eq_ok.mp hfrom
    obtain rfl := Except.ok.inj hfrom
    have hresolved := forall₂_of_mapM haccounts
    have hids := ids_of_resolved hresolved
    have hnodup : (accounts.map (·.accountId)).Nodup :=
      hids ▸ books.nodup_accounts.sublist (List.filter_sublist.map _)
    refine ⟨?_, fun ob hob => ?_⟩
    · have hsorted :
          ((accounts.insertionSort (·.accountId ≤ ·.accountId)).map (·.accountId)).Nodup :=
          ((List.perm_insertionSort _ _).map _).nodup_iff.mpr hnodup
      refine hsorted.sublist ?_
      dsimp only
      generalize accounts.insertionSort (·.accountId ≤ ·.accountId) = sorted
      clear hsorted
      induction sorted with
      | nil => exact List.Sublist.refl _
      | cons account rest ih =>
        cases hopening : openingForAccount books account cutover with
        | none =>
          simp only [List.filterMap_cons, hopening]
          exact ih.cons _
        | some ob =>
          simp only [List.filterMap_cons, hopening]
          rw [List.map_cons, List.map_cons, (openingForAccount_spec hopening).1]
          exact ih.cons_cons _
    · obtain ⟨ledger, hmem, hopening⟩ := List.mem_filterMap.mp hob
      obtain ⟨account, haccount, hone⟩ := exists_left hresolved ((List.mem_insertionSort _).mp hmem)
      obtain ⟨hid, hname⟩ := openingForAccount_spec hopening
      exact ⟨account, haccount, ledger, hone, by rw [hid, (resolveAccount_eq_ok hone).1],
        hname.symm⟩

/-- **The projected balance of an account is that of the journal on its ledger name**, whatever
its dates, if no other account opens that name; a card's is shown as what is owed. -/
theorem projectedBalance_eq (hproject : project config books = .ok report)
    (hrows : buildReconciliation config books (some report) = .ok rows) (hrow : row ∈ rows)
    (hown : OnlyOwnOpening config.ledgerCli report row) :
    FollowsJournal config.ledgerCli report row := by
  obtain ⟨account, haccount, hone⟩ := exists_left (forall₂_of_mapM hrows) hrow
  obtain ⟨ledger, hresolve, hone⟩ := bind_eq_ok.mp hone
  obtain rfl := Except.ok.inj hone
  have hselected : account ∈ selectedAccounts config books := (List.mem_insertionSort _).mp haccount
  obtain ⟨hids, hopenings⟩ := openings_of_project hproject
  have hname : ∀ ob ∈ report.openings,
      ob.accountId = ledger.accountId → ob.accountName = ledger.name := by
    intro ob hob hid
    obtain ⟨account', haccount', ledger', hresolve', hid', hname'⟩ := hopenings ob hob
    have heq : account' = account := by
      refine List.inj_on_of_nodup_map books.nodup_accounts (List.mem_of_mem_filter haccount')
        (List.mem_of_mem_filter hselected) ?_
      rw [hid', hid, (resolveAccount_eq_ok hresolve).1]
    rw [heq, hresolve] at hresolve'
    rw [← hname', Except.ok.inj hresolve']
  have hbase : openingsBalance ledger.name.name report.openings =
      ((openingById report ledger.accountId).map (·.amount)).getD 0 := sum_openings hids hname hown
  have hequity : (equityOpening config.ledgerCli).name ≠ ledger.name.name := hown.not_equity
  refine ⟨?_, fun hcents => ?_⟩
  · change toDecimalStr (shown ledger.kind _) =
      toDecimalStr (shown ledger.kind (rupeeBalance ledger.name.name _))
    rw [balanceByPostingAccount_eq, ← hbase, journalPostings, rupeeBalance_append,
      rupeeBalance_openingEntry hequity]
  · refine congrArg List.sum (List.map_congr_left fun posting hposting => ?_)
    obtain ⟨hon, hinr⟩ := List.mem_filter.mp hposting
    exact (printedAmount_of_wholeCents _ (hcents posting hon hinr)).symm

end

theorem ok_of_toOption {ε α : Type} {r : Except ε α} {a : α} (h : r.toOption = some a) :
    r = .ok a := by
  cases r with
  | error e => cases h
  | ok b => exact congrArg _ (Option.some.inj h)

/-- A card on which 500 is owed, and a savings account that pays 500 later. -/
def cardAndSavings : Books where
  accounts := [⟨1, "hdfc", "Salary", "bank_account", some true⟩,
    ⟨2, "hdfc", "Regalia", "credit_card", some true⟩]
  nodup_accounts := by decide
  cards := []
  transactions := ⟨[bankRow 1 1 "debit" "groceries" none], by decide⟩
  networth := ⟨⟨[⟨1, some 2, none, none, none, .liability, .ccOutstanding, 736999, 500, "INR",
    by decide, by decide, by decide, by decide⟩], by decide⟩, [], [], []⟩
  secret := none
  digest := fun _ _ => ""

/-- The balances reported and those of the journal up to a day. -/
def balancesAt (report : Projection) (rows : List ReconcileRow) (today : Int) :
    List (Nat × Option String × Option String) :=
  let _ := asciiTables
  rows.map fun row => (row.accountId, row.projectedBalance,
    toDecimalStr (rupeeBalance row.mappedTo.name (journalUpTo .ledger report today)))

/-- What is owed on the card has the other sign, and the payment is counted before its day. -/
theorem unlike_journal :
    ∃ report rows, @project asciiTables asciiTitles allAccounts cardAndSavings = .ok report ∧
      @buildReconciliation asciiTables asciiTitles allAccounts cardAndSavings (some report) =
        .ok rows ∧
      balancesAt report rows 737500 =
        [(1, some "-500.00", some "0.00"), (2, some "500.00", some "-500.00")] ∧
      ∀ row ∈ rows, ¬ @AsJournal asciiTables .ledger report 737500 row := by
  have hrun : ((@project asciiTables asciiTitles allAccounts cardAndSavings).toOption.bind
      fun report => (@buildReconciliation asciiTables asciiTitles allAccounts cardAndSavings
        (some report)).toOption.map fun rows => balancesAt report rows 737500) =
      some [(1, some "-500.00", some "0.00"), (2, some "500.00", some "-500.00")] := by
    decide +kernel
  obtain ⟨report, hproject, hrun⟩ := Option.bind_eq_some_iff.mp hrun
  obtain ⟨rows, hrows, hbalances⟩ := Option.map_eq_some_iff.mp hrun
  refine ⟨report, rows, ok_of_toOption hproject, ok_of_toOption hrows, hbalances,
    fun row hrow hjournal => ?_⟩
  have hmem : (row.accountId, row.projectedBalance, row.projectedBalance) ∈
      balancesAt report rows 737500 := List.mem_map.mpr ⟨row, hrow, by rw [hjournal]⟩
  rw [hbalances] at hmem
  have hdiffer : ∀ cell ∈ [(1, some "-500.00", some "0.00"), (2, some "500.00", some "-500.00")],
      cell.2.1 ≠ cell.2.2 := by decide
  exact hdiffer _ hmem rfl

/-- Two accounts on one ledger name; the first has an opening of 500. -/
def jointAccounts : Books where
  accounts := [⟨1, "hdfc", "Salary", "bank_account", some true⟩,
    ⟨3, "axis", "Savings", "bank_account", some true⟩]
  nodup_accounts := by decide
  cards := []
  transactions := ⟨[bankRow 1 1 "debit" "groceries" none, bankRow 2 3 "credit" "salary" none],
    by decide⟩
  networth := ⟨⟨[⟨1, some 1, none, none, none, .asset, .bankBalance, 736999, 500, "INR", by decide,
    by decide, by decide, by decide⟩], by decide⟩, [], [], []⟩
  secret := none
  digest := fun _ _ => ""

def jointMapping : PaisaProjectionConfig :=
  { allAccounts with
    accountMappings :=
      AList.insert "3" "Assets:Bank:Joint" (AList.insert "1" "Assets:Bank:Joint" ∅) }

theorem projectedBalance_joint :
    ∃ report row, @project asciiTables asciiTitles jointMapping jointAccounts = .ok report ∧
      row.accountId = 1 ∧ row.projectedBalance = some "500.00" ∧
      @FollowsJournal asciiTables .ledger report row := by
  have hrun : ((@project asciiTables asciiTitles jointMapping jointAccounts).toOption.bind
      fun report => (@buildReconciliation asciiTables asciiTitles jointMapping jointAccounts
        (some report)).toOption.bind fun rows => rows.head?.map fun row =>
          (row.accountId, row.projectedBalance, decide (OnlyOwnOpening .ledger report row))) =
      some (1, some "500.00", true) := by
    decide +kernel
  obtain ⟨report, hproject, hrun⟩ := Option.bind_eq_some_iff.mp hrun
  obtain ⟨rows, hrows, hrun⟩ := Option.bind_eq_some_iff.mp hrun
  obtain ⟨row, hrow, hread⟩ := Option.map_eq_some_iff.mp hrun
  simp only [Prod.mk.injEq, decide_eq_true_eq] at hread
  have hproject' := ok_of_toOption hproject
  exact ⟨report, row, hproject', hread.1, hread.2.1, @projectedBalance_eq asciiTables asciiTitles
    jointMapping jointAccounts report rows row hproject' (ok_of_toOption hrows)
    (List.mem_of_head? hrow) hread.2.2⟩

end FinancialDashboard.Paisa
