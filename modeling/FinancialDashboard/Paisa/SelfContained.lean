import FinancialDashboard.Paisa.Document
import FinancialDashboard.Paisa.InternalMovements

/-!
# The Beancount journal is self-contained

What `render_document` of `beancount.py` declares, against what it posts: `posted` lists
the postings of a document with their dates, and `SelfContained` is what Beancount asks of
the directives for them.

* `undeclaring_of_renderBody`: the body has no such directive, so those of the text are the
  `Declarations`, `Declarations.shownIn`.
* `self_contained_iff`: they serve the postings, but for the account of the openings, which is
  opened for rupees whatever is posted to it, and for a price of what is not posted.
* `pricesPosted_of_project`: no projection of debits and credits has such a price.
-/

namespace FinancialDashboard.Paisa

open Posting PyJson PyText PyTime Transactions

/-! ### What is posted -/

structure Posted where
  date : Int
  account : String
  commodity : String
  deriving DecidableEq

/-- The account and the commodity, as they are declared. -/
def Posted.holding (p : Posted) : String × String := (p.account, p.commodity)

def openingsPosted (cutover : Int) (openings : List OpeningBalance) : List Posted :=
  (nonzeroOpenings openings).map fun ob => ⟨cutover, ob.accountName.name, "INR"⟩

def entriesPosted (entries : List ProjectedEntry) : List Posted :=
  entries.flatMap fun entry => entry.postings.map fun p => ⟨entry.date, p.account.name, p.commodity⟩

/-- The account of the openings. -/
def openingEquity : String := (equityOpening .beancount).name

/-- What balances the openings. -/
def equityPosted (cutover : Int) (openings : List OpeningBalance) : List Posted :=
  if (nonzeroOpenings openings).isEmpty then [] else [⟨cutover, openingEquity, "INR"⟩]

section

variable [UnicodeTables] [AlphaTables]

def lotPosted (lot : InvestmentLotEntry) : List Posted :=
  ((placeLot .beancount lot).toOption.map fun placed =>
    [⟨lot.acquiredOn, placed.account, placed.commodity⟩,
      ⟨lot.acquiredOn, (investmentEquity .beancount).name, lot.currency⟩]).getD []

/-- All postings of a document. -/
def posted (doc : LedgerDocument) (cutover : Int) : List Posted :=
  openingsPosted cutover doc.openings ++ entriesPosted doc.entries ++
    doc.lotPostings.flatMap lotPosted ++ equityPosted cutover doc.openings

/-- Every account posted to is opened once, in time and for what is posted to it, and every
commodity is declared. -/
structure Declarations.SelfContained (d : Declarations) (doc : LedgerDocument) (cutover : Int) :
    Prop where
  once : (d.opens.map (·.account)).Nodup
  opened : ∀ p ∈ posted doc cutover, ∃ o ∈ d.opens, o.account = p.account ∧ o.date ≤ p.date
  constrained : ∀ o ∈ d.opens, ∀ commodity,
    commodity ∈ o.currencies ↔ (o.account, commodity) ∈ (posted doc cutover).map Posted.holding
  declared : ∀ p ∈ posted doc cutover, p.commodity ∈ d.commodities.map (·.symbol)
  priced : ∀ price ∈ doc.priceDirectives, ∀ commodity ∈ [price.currency, "INR"],
    commodity ∈ d.commodities.map (·.symbol)

end

/-! ### The directives of the text -/

/-- The word behind the first blank of a line. -/
def keyword (line : String) : String :=
  String.ofList (((line.toList.dropWhile (· ≠ ' ')).drop 1).takeWhile (· ≠ ' '))

/-- The directives are those lines of the text that begin as such. -/
structure Declarations.ShownIn (d : Declarations) (lines : List String) : Prop where
  opens : lines.filter (keyword · = "open") = d.opens.map (·.line)
  commodities : lines.filter (keyword · = "commodity") = d.commodities.map (·.line)

/-- Behind a date is the first word of the rest. -/
theorem keyword_dated (date : Int) (rest : String) : keyword (isoformat date ++ (" " ++ rest)) =
    String.ofList (rest.toList.takeWhile (· ≠ ' ')) := by
  have hdate : ∀ c ∈ (isoformat date).toList, (decide (c ≠ ' ')) = true := by
    intro c hc
    refine decide_eq_true ?_
    rintro rfl
    exact absurd (mem_isoformat hc) (by decide)
  have hblank : (" " : String).toList = [' '] := rfl
  rw [keyword, String.toList_append, String.toList_append, List.dropWhile_append_of_pos hdate,
    hblank, List.singleton_append, List.dropWhile_cons_of_neg (by decide)]
  rfl

theorem keyword_indent (level : Nat) (rest : String) : keyword (indent (level + 1) ++ rest) = "" := by
  have hindent : (indent (level + 1)).toList = ' ' :: ' ' :: List.replicate (4 * level + 2) ' ' := by
    rw [indent, String.toList_ofList]
    rfl
  rw [keyword, String.toList_append, hindent, List.cons_append, List.cons_append,
    List.dropWhile_cons_of_neg (by decide), List.drop_one, List.tail_cons,
    List.takeWhile_cons_of_neg (by decide)]

theorem keyword_open (o : OpenDirective) : keyword o.line = "open" := by
  have hword : (" open " : String) = " " ++ "open " := rfl
  rw [OpenDirective.line, hword]
  simp only [String.append_assoc]
  rw [keyword_dated, String.toList_append]
  rfl

theorem keyword_commodity (c : CommodityDirective) : keyword c.line = "commodity" := by
  have hword : (" commodity " : String) = " " ++ "commodity " := rfl
  rw [CommodityDirective.line, hword]
  simp only [String.append_assoc]
  rw [keyword_dated, String.toList_append]
  rfl

/-- The line is no directive that declares. -/
def Undeclaring (line : String) : Prop := keyword line ≠ "open" ∧ keyword line ≠ "commodity"

theorem undeclaring_empty : Undeclaring "" := ⟨by decide, by decide⟩

theorem undeclaring_indent {level : Nat} {rest : String} :
    Undeclaring (indent (level + 1) ++ rest) := by
  rw [Undeclaring, keyword_indent]
  decide

/-- The word of a directive is told by its first letter. -/
theorem undeclaring_dated {date : Int} {c : Char} {rest : String} (hc : c ∈ ['*', 'p']) :
    Undeclaring (isoformat date ++ (" " ++ (String.singleton c ++ rest))) := by
  have hblank : c ≠ ' ' := by
    rintro rfl
    exact absurd hc (by decide)
  have hword : keyword (isoformat date ++ (" " ++ (String.singleton c ++ rest))) =
      String.ofList (c :: rest.toList.takeWhile (· ≠ ' ')) := by
    rw [keyword_dated, String.toList_append, String.toList_singleton, List.singleton_append,
      List.takeWhile_cons_of_pos (by simpa using hblank)]
  have hne : ∀ word : String, c ∉ word.toList.head? → keyword (isoformat date ++
      (" " ++ (String.singleton c ++ rest))) ≠ word := by
    rintro word hhead rfl
    rw [hword, String.toList_ofList] at hhead
    exact hhead rfl
  refine ⟨hne _ ?_, hne _ ?_⟩
  · rintro h
    obtain rfl : 'o' = c := by simpa using h
    exact absurd hc (by decide)
  · rintro h
    obtain rfl : 'c' = c := by simpa using h
    exact absurd hc (by decide)

/-! ### The lines of the body -/

section

variable [UnicodeTables] [AlphaTables]

theorem undeclaring_of_formatPosting {account : AccountName} {amount : Rat}
    {commodity line : String} (h : formatPosting .beancount account amount commodity = .ok line) :
    Undeclaring line := by
  unfold formatPosting at h
  obtain ⟨token, -, h⟩ := bind_eq_ok.mp h
  obtain ⟨name, -, h⟩ := bind_eq_ok.mp h
  obtain ⟨text, -, h⟩ := bind_eq_ok.mp h
  obtain rfl := Except.ok.inj h
  rw [String.append_assoc, String.append_assoc]
  exact undeclaring_indent

omit [UnicodeTables] [AlphaTables] in
theorem undeclaring_of_mem_metaLines {level : Nat} {details : List (String × MetaValue)} :
    ∀ line ∈ metaLines .beancount (level + 1) details, Undeclaring line := by
  intro line hline
  obtain ⟨⟨key, value⟩, -, rfl⟩ := List.mem_map.mp hline
  dsimp only
  rw [String.append_assoc, String.append_assoc]
  exact undeclaring_indent

omit [UnicodeTables] [AlphaTables] in
/-- The header of an entry, of the openings or of a lot. -/
theorem undeclaring_starred (date : Int) (rest : String) :
    Undeclaring (isoformat date ++ (" *" ++ rest)) := by
  have hstar : (" *" : String) = " " ++ String.singleton '*' := rfl
  rw [hstar, String.append_assoc]
  exact undeclaring_dated (by simp)

omit [AlphaTables] in
theorem undeclaring_of_mem_entryHeader {entry : ProjectedEntry} :
    ∀ line ∈ entryHeader .beancount entry, Undeclaring line := by
  intro line hline
  unfold entryHeader at hline
  dsimp only at hline
  rcases List.mem_cons.mp hline with rfl | hline
  · rw [String.append_assoc, String.append_assoc]
    exact undeclaring_starred _ _
  · split_ifs at hline
    · cases hline
    · obtain rfl := List.mem_singleton.mp hline
      rw [String.append_assoc]
      exact undeclaring_indent

theorem undeclaring_of_renderEntry {entry : ProjectedEntry} {lines : List String}
    (h : renderEntry .beancount entry = .ok lines) : ∀ line ∈ lines, Undeclaring line := by
  unfold renderEntry at h
  obtain ⟨u, -, h⟩ := bind_eq_ok.mp h
  obtain ⟨postings, hpostings, h⟩ := bind_eq_ok.mp h
  obtain rfl := Except.ok.inj h
  intro line hline
  simp only [noteLines, List.append_nil, List.mem_append, List.mem_singleton] at hline
  rcases hline with ((hline | hline) | hline) | rfl
  · exact undeclaring_of_mem_entryHeader line hline
  · exact undeclaring_of_mem_metaLines line hline
  · obtain ⟨posting, -, hformat⟩ := exists_left (forall₂_of_mapM hpostings) hline
    exact undeclaring_of_formatPosting hformat
  · exact undeclaring_empty

theorem undeclaring_of_renderOpenings {cutover : Option Int} {openings : List OpeningBalance}
    {lines : List String} (h : renderOpenings .beancount cutover openings = .ok lines) :
    ∀ line ∈ lines, Undeclaring line := by
  unfold renderOpenings at h
  split at h
  next =>
    obtain rfl := Except.ok.inj h
    exact fun line hline => absurd hline List.not_mem_nil
  next =>
    obtain rfl := Except.ok.inj h
    exact fun line hline => absurd hline List.not_mem_nil
  next date _ =>
    obtain ⟨formatted, hformatted, h⟩ := bind_eq_ok.mp h
    obtain ⟨equity, hequity, h⟩ := bind_eq_ok.mp h
    obtain rfl := Except.ok.inj h
    intro line hline
    simp only [List.mem_append, List.mem_cons, List.not_mem_nil, or_false] at hline
    rcases hline with ((rfl | hline) | hline) | rfl | rfl
    · have hword : (" * " : String) = " *" ++ " " := rfl
      simp only [hword, String.append_assoc]
      exact undeclaring_starred _ _
    · exact undeclaring_of_mem_metaLines line hline
    · obtain ⟨block, hblock, hline⟩ := List.mem_flatten.mp hline
      obtain ⟨ob, -, hformat⟩ := exists_left (forall₂_of_mapM hformatted) hblock
      obtain ⟨first, hfirst, hformat⟩ := bind_eq_ok.mp hformat
      obtain rfl := Except.ok.inj hformat
      rcases List.mem_cons.mp hline with rfl | hline
      · exact undeclaring_of_formatPosting hfirst
      · exact undeclaring_of_mem_metaLines line hline
    · exact undeclaring_of_formatPosting hequity
    · exact undeclaring_empty

theorem undeclaring_of_renderLot [DecimalText] {lot : InvestmentLotEntry} {lines : List String}
    (h : renderLot .beancount lot = .ok lines) : ∀ line ∈ lines, Undeclaring line := by
  unfold renderLot at h
  obtain ⟨u, -, h⟩ := bind_eq_ok.mp h
  obtain ⟨placed, -, h⟩ := bind_eq_ok.mp h
  obtain ⟨token, -, h⟩ := bind_eq_ok.mp h
  obtain ⟨equity, hequity, h⟩ := bind_eq_ok.mp h
  obtain rfl := Except.ok.inj h
  intro line hline
  simp only [List.cons_append, List.mem_cons, List.mem_append, List.not_mem_nil, or_false] at hline
  rcases hline with rfl | hline | rfl | rfl | rfl
  · have hword : (" * " : String) = " *" ++ " " := rfl
    simp only [lotHeader, hword, String.append_assoc]
    exact undeclaring_starred _ _
  · exact undeclaring_of_mem_metaLines line hline
  · simp only [assetLine, String.append_assoc]
    exact undeclaring_indent
  · unfold formatLotPosting at hequity
    obtain ⟨symbol, -, hequity⟩ := bind_eq_ok.mp hequity
    obtain ⟨name, -, hequity⟩ := bind_eq_ok.mp hequity
    obtain rfl := Except.ok.inj hequity
    simp only [String.append_assoc]
    exact undeclaring_indent
  · exact undeclaring_empty

theorem undeclaring_of_renderPrices {prices : List PriceDirective} {lines : List String}
    (h : renderPrices .beancount prices = .ok lines) : ∀ line ∈ lines, Undeclaring line := by
  intro line hline
  obtain ⟨price, -, hprice⟩ := exists_left (forall₂_of_mapM h) hline
  unfold priceLine at hprice
  obtain ⟨rate, -, hprice⟩ := bind_eq_ok.mp hprice
  obtain ⟨token, -, hprice⟩ := bind_eq_ok.mp hprice
  obtain rfl := Except.ok.inj hprice
  have hword : (" price " : String) = " " ++ (String.singleton 'p' ++ "rice ") := rfl
  simp only [hword, String.append_assoc]
  exact undeclaring_dated (by simp)

/-- **The body declares nothing.** -/
theorem undeclaring_of_renderBody [DecimalText] {doc : LedgerDocument} {body : List String}
    (h : renderBody .beancount doc = .ok body) : ∀ line ∈ body, Undeclaring line := by
  unfold renderBody at h
  obtain ⟨openings, hopenings, h⟩ := bind_eq_ok.mp h
  obtain ⟨entries, hentries, h⟩ := bind_eq_ok.mp h
  obtain ⟨lots, hlots, h⟩ := bind_eq_ok.mp h
  obtain ⟨prices, hprices, h⟩ := bind_eq_ok.mp h
  obtain rfl := Except.ok.inj h
  intro line hline
  simp only [List.mem_append, List.mem_flatten] at hline
  rcases hline with ((hline | ⟨block, hblock, hline⟩) | ⟨block, hblock, hline⟩) | hline
  · exact undeclaring_of_renderOpenings hopenings line hline
  · obtain ⟨entry, -, hentry⟩ := exists_left (forall₂_of_mapM hentries) hblock
    exact undeclaring_of_renderEntry hentry line hline
  · obtain ⟨lot, -, hlot⟩ := exists_left (forall₂_of_mapM hlots) hblock
    exact undeclaring_of_renderLot hlot line hline
  · exact undeclaring_of_renderPrices hprices line hline

end

/-! ### The lines of the declarations -/

theorem filter_block {word : String} (hword : word ≠ "") (lines : List String) :
    (block lines).filter (keyword · = word) = lines.filter (keyword · = word) := by
  unfold block
  split_ifs with hnone
  · rw [List.isEmpty_iff.mp hnone]
  · have hkeyword : keyword "" = "" := by decide
    have hempty : [""].filter (keyword · = word) = [] :=
      List.filter_cons_of_neg (by simpa [hkeyword] using hword.symm)
    rw [List.filter_append, hempty, List.append_nil]

theorem filter_keyword_eq_self {α : Type} {word : String} {line : α → String}
    (h : ∀ a, keyword (line a) = word) (l : List α) :
    (l.map line).filter (keyword · = word) = l.map line := by
  rw [List.filter_eq_self]
  intro text htext
  obtain ⟨a, -, rfl⟩ := List.mem_map.mp htext
  exact decide_eq_true (h a)

theorem filter_keyword_eq_nil {α : Type} {word other : String} {line : α → String}
    (h : ∀ a, keyword (line a) = other) (hne : other ≠ word) (l : List α) :
    (l.map line).filter (keyword · = word) = [] := by
  rw [List.filter_eq_nil_iff]
  intro text htext
  obtain ⟨a, -, rfl⟩ := List.mem_map.mp htext
  simpa [h a] using hne

theorem Declarations.filter_lines (d : Declarations) {body : List String} {word : String}
    (hword : word ≠ "") (h : ∀ line ∈ body, keyword line ≠ word) :
    (d.lines ++ body).filter (keyword · = word) =
      (d.commodities.map (·.line)).filter (keyword · = word) ++
        (d.opens.map (·.line)).filter (keyword · = word) := by
  have hbody : body.filter (keyword · = word) = [] := by
    rw [List.filter_eq_nil_iff]
    intro line hline
    simpa using h line hline
  rw [Declarations.lines, List.filter_append, List.filter_append, filter_block hword,
    filter_block hword, hbody, List.append_nil]

/-- **The directives of the text are those of the declarations.** -/
theorem Declarations.shownIn (d : Declarations) {body : List String}
    (h : ∀ line ∈ body, Undeclaring line) : d.ShownIn (d.lines ++ body) := by
  have hopens := filter_keyword_eq_self keyword_open d.opens
  have hopens' : (d.opens.map (·.line)).filter (keyword · = "commodity") = [] :=
    filter_keyword_eq_nil keyword_open (by decide) d.opens
  have hcommodities := filter_keyword_eq_self keyword_commodity d.commodities
  have hcommodities' : (d.commodities.map (·.line)).filter (keyword · = "open") = [] :=
    filter_keyword_eq_nil keyword_commodity (by decide) d.commodities
  constructor
  · rw [d.filter_lines (by decide) fun line hline => (h line hline).1, hcommodities',
      List.nil_append]
    exact hopens
  · rw [d.filter_lines (by decide) fun line hline => (h line hline).2, hopens', List.append_nil]
    exact hcommodities

/-! ### What is declared -/

section

variable {doc : LedgerDocument} {cutover : Int} {placed : List PlacedLot}

theorem mem_commoditiesUsed {commodity : String} :
    commodity ∈ commoditiesUsed (accountCurrencies doc placed) ↔
      commodity = "INR" ∨ ∃ account, (account, commodity) ∈ holdings doc placed := by
  have hitem := OrderedDict.exists_item_collect (holdings doc placed) (P := fun _ => True)
    (a := commodity)
  simp only [and_true] at hitem
  rw [commoditiesUsed, List.mem_insertionSort, List.mem_dedup, List.mem_cons, List.mem_flatMap,
    accountCurrencies, hitem]

theorem mem_currencies {dates : OrderedDict String Int} {account commodity : String} :
    commodity ∈ (openFor (accountCurrencies doc placed) dates cutover account).currencies ↔
      (account, commodity) ∈ holdings doc placed ∨ account = openingEquity ∧ commodity = "INR" := by
  rw [openFor, List.mem_insertionSort, List.mem_dedup, List.mem_append, accountCurrencies,
    OrderedDict.getD_collect]
  refine or_congr ?_ ?_
  · simp [List.mem_map, List.mem_filter]
  · by_cases haccount : account = openingEquity
    · simp [haccount, openingEquity]
    · have hne : account ≠ (equityOpening .beancount).name := haccount
      simp [haccount, hne]

theorem openDate_le_cutover (dates : OrderedDict String Int) (account : String) :
    openDate dates cutover account ≤ cutover := by
  unfold openDate
  cases dates.get? account with
  | none => exact le_rfl
  | some d => exact min_le_right d cutover

/-- The accounts of a lot are opened before it. -/
theorem openDate_le_lot {p : PlacedLot} (hp : p ∈ placed) {account : String}
    (ha : account ∈ [p.account, (investmentEquity .beancount).name]) :
    openDate (lotOpenDates placed) cutover account ≤ p.lot.acquiredOn := by
  have hpair : (account, p.lot.acquiredOn) ∈ placed.flatMap fun p =>
      [(p.account, p.lot.acquiredOn),
        ((investmentEquity .beancount).name, p.lot.acquiredOn)] := by
    refine List.mem_flatMap.mpr ⟨p, hp, ?_⟩
    simpa using ha
  obtain ⟨d, hd, hle⟩ := OrderedDict.exists_get?_foldl_setLeast hpair
  have hdates : (lotOpenDates placed).get? account = some d := hd
  rw [openDate, hdates]
  exact (min_le_left d cutover).trans hle

/-- **No account is opened twice.** -/
theorem nodup_openDirectives (doc : LedgerDocument) (cutover : Int) (placed : List PlacedLot) :
    ((openDirectives doc cutover placed).map (·.account)).Nodup := by
  unfold openDirectives
  dsimp only
  rw [List.map_map]
  show (List.map id _).Nodup
  rw [List.map_id]
  exact (List.perm_insertionSort _ _).nodup_iff.mpr (List.nodup_dedup _)

variable [UnicodeTables] [AlphaTables]

theorem lot_of_placeLot {backend : Backend} {lot : InvestmentLotEntry} {p : PlacedLot}
    (h : placeLot backend lot = .ok p) : p.lot = lot := by
  unfold placeLot at h
  obtain ⟨commodity, -, h⟩ := bind_eq_ok.mp h
  obtain ⟨account, -, h⟩ := bind_eq_ok.mp h
  rw [← Except.ok.inj h]

theorem flatMap_lotPosted {lots : List InvestmentLotEntry}
    (h : lots.mapM (placeLot .beancount) = .ok placed) :
    lots.flatMap lotPosted = placed.flatMap fun p => [⟨p.lot.acquiredOn, p.account, p.commodity⟩,
      ⟨p.lot.acquiredOn, (investmentEquity .beancount).name, p.lot.currency⟩] := by
  have hplaced := forall₂_of_mapM h
  clear h
  induction hplaced with
  | nil => rfl
  | @cons lot p lots placed hlot _ ih =>
    rw [List.flatMap_cons, List.flatMap_cons, ih, lotPosted, hlot, lot_of_placeLot hlot]
    rfl

/-- **What is posted is what the accounts hold, and the equity of the openings.** -/
theorem map_holding_posted (h : doc.lotPostings.mapM (placeLot .beancount) = .ok placed) :
    (posted doc cutover).map Posted.holding = holdings doc placed ++
      if (nonzeroOpenings doc.openings).isEmpty then [] else [(openingEquity, "INR")] := by
  have hequity : (equityPosted cutover doc.openings).map Posted.holding =
      if (nonzeroOpenings doc.openings).isEmpty then [] else [(openingEquity, "INR")] := by
    unfold equityPosted
    split_ifs <;> rfl
  rw [posted, flatMap_lotPosted h, List.map_append, hequity, holdings]
  simp only [List.map_append, openingsPosted, entriesPosted, List.map_map, List.map_flatMap]
  rfl

theorem mem_openedAccounts (h : doc.lotPostings.mapM (placeLot .beancount) = .ok placed)
    {account : String} : account ∈ openedAccounts doc.openings (accountCurrencies doc placed) ↔
      ∃ p ∈ posted doc cutover, p.account = account := by
  have hposted : (∃ p ∈ posted doc cutover, p.account = account) ↔
      ∃ commodity, (account, commodity) ∈ (posted doc cutover).map Posted.holding := by
    simp [Posted.holding]
  rw [hposted, map_holding_posted h, openedAccounts, List.mem_dedup, List.mem_append,
    accountCurrencies, OrderedDict.mem_keys_collect]
  simp only [List.mem_append, exists_or]
  refine or_congr Iff.rfl ?_
  by_cases hnone : (nonzeroOpenings doc.openings).isEmpty
  · simp [hnone]
  · simp [hnone, openingEquity]

/-- **Every account is opened in time**, where the entries are not before the cutover. -/
theorem openDate_le_posted (h : doc.lotPostings.mapM (placeLot .beancount) = .ok placed)
    (hdated : ∀ entry ∈ doc.entries, cutover ≤ entry.date) {p : Posted}
    (hp : p ∈ posted doc cutover) :
    openDate (lotOpenDates placed) cutover p.account ≤ p.date := by
  have hcutover (account : String) : openDate (lotOpenDates placed) cutover account ≤ cutover :=
    openDate_le_cutover _ account
  rw [posted, flatMap_lotPosted h] at hp
  rcases List.mem_append.mp hp with hp | hp
  · rcases List.mem_append.mp hp with hp | hp
    · rcases List.mem_append.mp hp with hp | hp
      · obtain ⟨ob, -, rfl⟩ := List.mem_map.mp hp
        exact hcutover _
      · obtain ⟨entry, hentry, hp⟩ := List.mem_flatMap.mp hp
        obtain ⟨posting, -, rfl⟩ := List.mem_map.mp hp
        exact (hcutover _).trans (hdated entry hentry)
    · obtain ⟨lot, hlot, hp⟩ := List.mem_flatMap.mp hp
      simp only [List.mem_cons, List.not_mem_nil, or_false] at hp
      rcases hp with rfl | rfl
      · exact openDate_le_lot hlot (by simp)
      · exact openDate_le_lot hlot (by simp)
  · unfold equityPosted at hp
    split_ifs at hp
    · cases hp
    · obtain rfl := List.mem_singleton.mp hp
      exact hcutover _

/-! ### When the journal is self-contained -/

/-- If anything is posted to the account of the openings, rupees are. -/
def RupeesInEquity (doc : LedgerDocument) (cutover : Int) : Prop :=
  (∃ p ∈ posted doc cutover, p.account = openingEquity) →
    ∃ p ∈ posted doc cutover, p.account = openingEquity ∧ p.commodity = "INR"

/-- What has a price is posted, or it is the rupee. -/
def PricesPosted (doc : LedgerDocument) (cutover : Int) : Prop :=
  ∀ price ∈ doc.priceDirectives, posted doc cutover ≠ [] ∧
    (price.currency = "INR" ∨ ∃ p ∈ posted doc cutover, p.commodity = price.currency)

theorem posted_eq_nil (h : doc.lotPostings.mapM (placeLot .beancount) = .ok placed)
    (hnone : (accountCurrencies doc placed).keys = []) : posted doc cutover = [] := by
  have hholdings : holdings doc placed = [] := by
    refine List.eq_nil_iff_forall_not_mem.mpr fun p hp => ?_
    have hkey : p.1 ∈ (accountCurrencies doc placed).keys :=
      OrderedDict.mem_keys_collect.mpr ⟨p.2, hp⟩
    rw [hnone] at hkey
    cases hkey
  have hopenings : nonzeroOpenings doc.openings = [] := by
    unfold holdings at hholdings
    simpa using (List.append_eq_nil_iff.mp (List.append_eq_nil_iff.mp hholdings).1).1
  have hmap : (posted doc cutover).map Posted.holding = _ := map_holding_posted h
  rw [hholdings, hopenings] at hmap
  exact List.map_eq_nil_iff.mp hmap

/-- Something is posted, so the rupee is declared with all that is posted. -/
theorem mem_symbols (h : doc.lotPostings.mapM (placeLot .beancount) = .ok placed)
    {commodity : String} : commodity ∈ commoditiesUsed (accountCurrencies doc placed) ↔
      commodity = "INR" ∨ ∃ p ∈ posted doc cutover, p.commodity = commodity := by
  have hposted : (∃ p ∈ posted doc cutover, p.commodity = commodity) ↔
      ∃ account, (account, commodity) ∈ (posted doc cutover).map Posted.holding := by
    simp [Posted.holding]
  rw [mem_commoditiesUsed, hposted, map_holding_posted h]
  simp only [List.mem_append, exists_or]
  by_cases hnone : (nonzeroOpenings doc.openings).isEmpty
  · simp [hnone]
  · simp only [hnone, Bool.false_eq_true, if_false, List.mem_singleton, Prod.mk.injEq]
    tauto

theorem mem_openDirectives_iff (h : doc.lotPostings.mapM (placeLot .beancount) = .ok placed)
    {o : OpenDirective} : o ∈ openDirectives doc cutover placed ↔ ∃ p ∈ posted doc cutover,
      openFor (accountCurrencies doc placed) (lotOpenDates placed) cutover p.account = o := by
  have hopened (account : String) :
      account ∈ openedAccounts doc.openings (accountCurrencies doc placed) ↔
        ∃ p ∈ posted doc cutover, p.account = account := mem_openedAccounts h
  simp only [openDirectives, List.mem_map, List.mem_insertionSort, hopened]
  constructor
  · rintro ⟨_, ⟨p, hp, rfl⟩, ho⟩
    exact ⟨p, hp, ho⟩
  · rintro ⟨p, hp, ho⟩
    exact ⟨p.account, ⟨p, hp, rfl⟩, ho⟩

theorem mem_openDirectives (h : doc.lotPostings.mapM (placeLot .beancount) = .ok placed)
    {p : Posted} (hp : p ∈ posted doc cutover) :
    openFor (accountCurrencies doc placed) (lotOpenDates placed) cutover p.account ∈
      openDirectives doc cutover placed := (mem_openDirectives_iff h).mpr ⟨p, hp, rfl⟩

/-- An account is opened for what is posted to it. -/
theorem constrained_openDirectives (h : doc.lotPostings.mapM (placeLot .beancount) = .ok placed)
    (hrupees : RupeesInEquity doc cutover) : ∀ o ∈ openDirectives doc cutover placed,
      ∀ commodity, commodity ∈ o.currencies ↔
        (o.account, commodity) ∈ (posted doc cutover).map Posted.holding := by
  intro o ho commodity
  obtain ⟨p, hp, rfl⟩ := (mem_openDirectives_iff h).mp ho
  rw [mem_currencies]
  constructor
  · rintro (hholding | ⟨hequity, rfl⟩)
    · rw [map_holding_posted h]
      exact List.mem_append_left _ hholding
    · obtain ⟨q, hq, haccount, hcommodity⟩ := hrupees ⟨p, hp, hequity⟩
      refine List.mem_map.mpr ⟨q, hq, ?_⟩
      rw [Posted.holding, haccount, hcommodity, ← hequity]
      rfl
  · intro hposted
    rw [map_holding_posted h] at hposted
    rcases List.mem_append.mp hposted with hholding | hequity
    · exact .inl hholding
    · split_ifs at hequity
      · cases hequity
      · exact .inr (Prod.mk.inj (List.mem_singleton.mp hequity))

/-- **When the declarations serve the document.** -/
theorem selfContained_declarationsAt_iff
    (h : doc.lotPostings.mapM (placeLot .beancount) = .ok placed)
    (hdated : ∀ entry ∈ doc.entries, cutover ≤ entry.date) :
    (declarationsAt doc cutover placed).SelfContained doc cutover ↔
      RupeesInEquity doc cutover ∧ PricesPosted doc cutover := by
  unfold declarationsAt
  dsimp only
  split_ifs with hkeys
  · have hnil : posted doc cutover = [] := posted_eq_nil h (List.isEmpty_iff.mp hkeys)
    constructor
    · intro hself
      refine ⟨fun ⟨p, hp, _⟩ => absurd (hnil ▸ hp) List.not_mem_nil, fun price hprice => ?_⟩
      exact absurd (hself.priced price hprice "INR" (by simp)) List.not_mem_nil
    · rintro ⟨-, hprices⟩
      exact {
        once := List.nodup_nil
        opened := fun p hp => absurd (hnil ▸ hp) List.not_mem_nil
        constrained := fun o ho => absurd ho List.not_mem_nil
        declared := fun p hp => absurd (hnil ▸ hp) List.not_mem_nil
        priced := fun price hprice => absurd hnil (hprices price hprice).1 }
  · have hsome : posted doc cutover ≠ [] := by
      intro hnil
      have hmap : (posted doc cutover).map Posted.holding = _ := map_holding_posted h
      rw [hnil, List.map_nil] at hmap
      have hholdings := (List.append_eq_nil_iff.mp hmap.symm).1
      rw [accountCurrencies, hholdings] at hkeys
      exact hkeys rfl
    have hsymbols : ∀ commodity, commodity ∈ ((commoditiesUsed (accountCurrencies doc placed)).map
        (CommodityDirective.mk cutover)).map (·.symbol) ↔
          commodity = "INR" ∨ ∃ p ∈ posted doc cutover, p.commodity = commodity := by
      intro commodity
      rw [List.map_map]
      show commodity ∈ (commoditiesUsed (accountCurrencies doc placed)).map id ↔ _
      rw [List.map_id, mem_symbols h]
    constructor
    · intro hself
      refine ⟨?_, fun price hprice => ⟨hsome, ?_⟩⟩
      · rintro ⟨p, hp, hequity⟩
        have ho := mem_openDirectives h hp
        have hcurrency := (hself.constrained _ ho "INR").mp
          (mem_currencies.mpr (.inr ⟨hequity, rfl⟩))
        obtain ⟨q, hq, heq⟩ := List.mem_map.mp hcurrency
        obtain ⟨haccount, hcommodity⟩ := Prod.mk.inj heq
        exact ⟨q, hq, haccount.trans hequity, hcommodity⟩
      · exact (hsymbols _).mp (hself.priced price hprice _ (by simp))
    · rintro ⟨hrupees, hprices⟩
      exact {
        once := nodup_openDirectives doc cutover placed
        opened := fun p hp =>
          ⟨_, mem_openDirectives h hp, rfl, openDate_le_posted h hdated hp⟩
        constrained := constrained_openDirectives h hrupees
        declared := fun p hp => (hsymbols _).mpr (.inr ⟨p, hp, rfl⟩)
        priced := by
          intro price hprice commodity hcommodity
          simp only [List.mem_cons, List.not_mem_nil, or_false] at hcommodity
          rcases hcommodity with rfl | rfl
          · exact (hsymbols _).mpr (hprices price hprice).2
          · exact (hsymbols _).mpr (.inl rfl) }

/-- **When the journal is self-contained**: all documents with a cutover and no entry before it
are, unless something is posted to the account of the openings and never rupees, or a price is
of what is not posted. -/
theorem self_contained_iff [DecimalText] {text : String}
    (hcutover : doc.cutoverDate = some cutover)
    (hdated : ∀ entry ∈ doc.entries, cutover ≤ entry.date)
    (h : renderDocument .beancount doc = .ok text) :
    ∃ d lines, beancountDeclarations doc = .ok d ∧ text = journalText lines ∧ d.ShownIn lines ∧
      (d.SelfContained doc cutover ↔ RupeesInEquity doc cutover ∧ PricesPosted doc cutover) := by
  unfold renderDocument at h
  obtain ⟨lines, hlines, h⟩ := bind_eq_ok.mp h
  unfold renderLines declarationLines at hlines
  obtain ⟨head, hhead, hlines⟩ := bind_eq_ok.mp hlines
  obtain ⟨body, hbody, hlines⟩ := bind_eq_ok.mp hlines
  obtain ⟨d, hd, hhead⟩ := bind_eq_ok.mp hhead
  obtain rfl := Except.ok.inj hhead
  obtain rfl := Except.ok.inj hlines
  refine ⟨d, _, hd, (Except.ok.inj h).symm, d.shownIn (undeclaring_of_renderBody hbody), ?_⟩
  unfold beancountDeclarations at hd
  obtain ⟨placed, hplaced, hd⟩ := bind_eq_ok.mp hd
  rw [hcutover] at hd
  obtain rfl := Except.ok.inj hd
  exact selfContained_declarationsAt_iff hplaced hdated

end

/-! ### The prices of a projection -/

section

variable [UnicodeTables] {config : PaisaProjectionConfig} {t : BookedTransaction}
  {emission : Emission} {price : PriceDirective}

omit [UnicodeTables] in
theorem mem_of_mem_dedupePrices {prices : List PriceDirective} (h : price ∈ dedupePrices prices) :
    price ∈ prices := by
  unfold dedupePrices at h
  rw [List.mem_insertionSort] at h
  induction prices using List.reverseRecOn with
  | nil => exact h
  | append_singleton prices last ih =>
    rw [List.foldl_concat] at h
    split_ifs at h
    · exact List.mem_append_left _ (ih h)
    · rcases List.mem_append.mp h with h | h
      · exact List.mem_append_left _ (ih h)
      · exact List.mem_append_right _ h

theorem currency_of_mem_pricesOf (h : price ∈ pricesOf config t) :
    price.currency = (decideFx config t).currency := by
  have hdirective : priceDirectiveFor t (decideFx config t) = some price := Option.mem_toList.mp h
  unfold priceDirectiveFor at hdirective
  split_ifs at hdirective
  split at hdirective
  next => rw [← Option.some.inj hdirective]
  next => cases hdirective

theorem priced_of_cardPayment {account : LedgerAccount} {commodity : String}
    {resolution : CardResolution}
    (h : cardPaymentEntry config t account commodity resolution = .ok emission) :
    emission.prices = pricesOf config t ∧
      ∃ p ∈ emission.entry.postings, p.commodity = commodity := by
  unfold cardPaymentEntry at h
  obtain ⟨target, -, h⟩ := bind_eq_ok.mp h
  obtain rfl := Except.ok.inj h
  dsimp only
  exact ⟨rfl, _, List.mem_cons_self, rfl⟩

theorem priced_of_standard [TitleTables] {account : LedgerAccount} {commodity : String}
    (h : standardEntry config t account commodity = .ok emission) :
    emission.prices = pricesOf config t ∧
      ∃ p ∈ emission.entry.postings, p.commodity = commodity := by
  unfold standardEntry at h
  obtain ⟨contra, -, h⟩ := bind_eq_ok.mp h
  obtain rfl := Except.ok.inj h
  dsimp only
  exact ⟨rfl, _, List.mem_cons_self, rfl⟩

/-- An entry posts in the currency of each of its prices, where the rows of its group are debits
and credits. -/
theorem posted_of_mem_prices [TitleTables] {accounts : List LedgerAccount} {cards : List Card}
    {txns : List BookedTransaction} {batch : Batch Emission SkippedRow}
    (hids : (txns.map (·.id)).Nodup) (hlegs : ∀ t ∈ txns, isLeg t = true)
    (h : projectTransactions config accounts cards txns = .ok batch) (he : emission ∈ batch.posted)
    (hprice : price ∈ emission.prices) :
    ∃ p ∈ emission.entry.postings, p.commodity = price.currency := by
  rcases posted_origin hids h he with ⟨group, hg, hpair⟩ | ⟨t, -, b, hrow, hb⟩
  · obtain ⟨debit, credit, hdebits, hcredits, -, hcurrency, hentry⟩ :=
      exists_selfTransferEntry hpair
    unfold selfTransferEntry at hentry
    split at hentry
    next debitAcct creditAcct hdebit hcredit =>
      obtain rfl := Option.some.inj hentry
      refine ⟨_, List.mem_cons_self, ?_⟩
      obtain ⟨row, hrow, hprice⟩ := List.mem_flatMap.mp hprice
      rw [currency_of_mem_pricesOf hprice]
      have hleg := hlegs row (List.mem_of_mem_filter (mem_selfTransferGroups hg hrow).1)
      rcases (Bool.or_eq_true _ _).mp hleg with hdirection | hdirection
      · have hmem : row ∈ group.2.filter (·.direction = "debit") :=
          List.mem_filter.mpr ⟨hrow, hdirection⟩
        rw [hdebits, List.mem_singleton] at hmem
        rw [hmem]
      · have hmem : row ∈ group.2.filter (·.direction = "credit") :=
          List.mem_filter.mpr ⟨hrow, hdirection⟩
        rw [hcredits, List.mem_singleton] at hmem
        rw [hmem, hcurrency]
    next => cases hentry
  · obtain ⟨account, -, hcases⟩ := ownEntry_cases hrow hb
    have hown : emission.prices = pricesOf config t ∧
        ∃ p ∈ emission.entry.postings, p.commodity = (decideFx config t).currency := by
      rcases hcases with ⟨-, hentry⟩ | ⟨-, hentry⟩
      · exact priced_of_cardPayment hentry
      · exact priced_of_standard hentry
    obtain ⟨hprices, p, hp, hcommodity⟩ := hown
    rw [hprices] at hprice
    exact ⟨p, hp, hcommodity.trans (currency_of_mem_pricesOf hprice).symm⟩

/-- **A projection prices what it posts**, where its rows are debits and credits. -/
theorem pricesPosted_of_project [TitleTables] [AlphaTables] {books : Books} {report : Projection}
    (hlegs : ∀ t ∈ books.transactions.rows, isLeg t = true)
    (h : project config books = .ok report) : PricesPosted report.document report.cutover := by
  intro price hprice
  obtain ⟨accounts, batch, portfolios, hparts⟩ := exists_partsOf h
  have hdirective : price ∈ batch.posted.flatMap (·.prices) :=
    mem_of_mem_dedupePrices (hparts.prices ▸ hprice)
  obtain ⟨emission, hposted, hmem⟩ := List.mem_flatMap.mp hdirective
  have hrows : ∀ t ∈ transactionsInScope config books report.cutover, isLeg t = true :=
    fun t ht => hlegs t (mem_transactionsInScope.mp ht).1
  obtain ⟨p, hp, hcommodity⟩ := posted_of_mem_prices
    (nodup_transactionsInScope config books report.cutover) hrows hparts.projected hposted hmem
  have hentry : emission.entry ∈ report.entries :=
    hparts.entries.mem_iff.mpr (List.mem_append_left _ (List.mem_map_of_mem hposted))
  have hline : (⟨emission.entry.date, p.account.name, p.commodity⟩ : Posted) ∈
      posted report.document report.cutover := by
    refine List.mem_append_left _ (List.mem_append_left _ (List.mem_append_right _ ?_))
    exact List.mem_flatMap.mpr ⟨emission.entry, hentry, List.mem_map_of_mem hp⟩
  exact ⟨List.ne_nil_of_mem hline, .inr ⟨_, hline, hcommodity⟩⟩

end

/-! ### A gift into the openings -/

/-- The operator books gifts against the account of the openings. -/
def giftConfig : PaisaProjectionConfig :=
  { allAccounts with
    categoryMappings := (∅ : Mappings).insert "gift" "Equity:OpeningBalances"
    nonInrPolicy := .priced
    ledgerCli := .beancount
    fxRates := (∅ : AList fun _ : String => List FxRate).insert "USD" [⟨737500, 83⟩] }

def oneGift (currency : Option String) : Books :=
  { billAndTransfer with
    transactions := ⟨[{ bankRow 1 1 "debit" "gift" none with currency }], by simp⟩ }

/-- What is tested of the document of a report. -/
def giftOf [UnicodeTables] [AlphaTables] [DecimalText] (report : Projection) :
    Bool × Bool × List (List String) × List (String × String) :=
  (report.entries.all fun entry => report.cutover ≤ entry.date,
    (renderDocument .beancount report.document).isOk,
    ((beancountDeclarations report.document).toOption.map fun d =>
      d.opens.map fun o => o.account :: o.currencies).getD [],
    (posted report.document report.cutover).map Posted.holding)

/-- **A gift in dollars opens the account for rupees too.** -/
theorem gift_opens_rupees : let _ := asciiTables; let _ := asciiTitles; let _ := asciiAlpha
    let _ := plainDecimals
    ∃ report text d, project giftConfig (oneGift (some "USD")) = .ok report ∧
      (∀ entry ∈ report.entries, report.cutover ≤ entry.date) ∧
      renderDocument .beancount report.document = .ok text ∧
      beancountDeclarations report.document = .ok d ∧
      (∃ o ∈ d.opens, o.account = "Equity:OpeningBalances" ∧ o.currencies = ["INR", "USD"]) ∧
      ¬ d.SelfContained report.document report.cutover := by
  intro _ _ _ _
  have hrun : (project giftConfig (oneGift (some "USD"))).toOption.map giftOf =
      some (true, true,
        [["Assets:Bank:Hdfc:Salary", "USD"], ["Equity:OpeningBalances", "INR", "USD"]],
        [("Assets:Bank:Hdfc:Salary", "USD"), ("Equity:OpeningBalances", "USD")]) := by
    decide +kernel
  cases hproject : project giftConfig (oneGift (some "USD")) with
  | error e =>
    rw [hproject] at hrun
    cases hrun
  | ok report =>
    rw [hproject] at hrun
    obtain ⟨hdated, hrest⟩ := Prod.mk.inj (Option.some.inj hrun)
    obtain ⟨htext, hrest⟩ := Prod.mk.inj hrest
    obtain ⟨hopens, hposted⟩ := Prod.mk.inj hrest
    cases hrender : renderDocument .beancount report.document with
    | error e =>
      rw [hrender] at htext
      cases htext
    | ok text =>
      cases hd : beancountDeclarations report.document with
      | error e =>
        rw [hd] at hopens
        cases hopens
      | ok d =>
        rw [hd] at hopens
        have hopened : ["Equity:OpeningBalances", "INR", "USD"] ∈
            d.opens.map fun o => o.account :: o.currencies := by
          have hopens : (d.opens.map fun o => o.account :: o.currencies) = _ := hopens
          rw [hopens]
          exact List.mem_cons_of_mem _ List.mem_cons_self
        obtain ⟨o, ho, heq⟩ := List.mem_map.mp hopened
        obtain ⟨haccount, hcurrencies⟩ := List.cons.inj heq
        refine ⟨report, text, d, rfl, ?_, hrender, hd, ⟨o, ho, haccount, hcurrencies⟩, ?_⟩
        · intro entry hentry
          exact of_decide_eq_true (List.all_eq_true.mp hdated entry hentry)
        · intro hself
          have hmem := (hself.constrained o ho "INR").mp (by simp [hcurrencies])
          rw [haccount, hposted] at hmem
          exact absurd hmem (by decide)

/-- A gift in rupees. -/
theorem self_contained_rupees : let _ := asciiTables; let _ := asciiTitles; let _ := asciiAlpha
    let _ := plainDecimals
    ∃ report text, ∃ d : Declarations, ∃ lines, project giftConfig (oneGift none) = .ok report ∧
      renderDocument .beancount report.document = .ok text ∧ text = journalText lines ∧
      d.ShownIn lines ∧ d.SelfContained report.document report.cutover := by
  intro _ _ _ _
  have hrun : (project giftConfig (oneGift none)).toOption.map giftOf =
      some (true, true,
        [["Assets:Bank:Hdfc:Salary", "INR"], ["Equity:OpeningBalances", "INR"]],
        [("Assets:Bank:Hdfc:Salary", "INR"), ("Equity:OpeningBalances", "INR")]) := by
    decide +kernel
  cases hproject : project giftConfig (oneGift none) with
  | error e =>
    rw [hproject] at hrun
    cases hrun
  | ok report =>
    rw [hproject] at hrun
    obtain ⟨hdated, hrest⟩ := Prod.mk.inj (Option.some.inj hrun)
    obtain ⟨htext, hrest⟩ := Prod.mk.inj hrest
    obtain ⟨-, hposted⟩ := Prod.mk.inj hrest
    cases hrender : renderDocument .beancount report.document with
    | error e =>
      rw [hrender] at htext
      cases htext
    | ok text =>
      obtain ⟨d, lines, -, hlines, hshown, hself⟩ := self_contained_iff rfl
        (fun entry hentry => of_decide_eq_true (List.all_eq_true.mp hdated entry hentry)) hrender
      refine ⟨report, text, d, lines, rfl, hrender, hlines, hshown, hself.mpr ⟨?_, ?_⟩⟩
      · intro _
        have hmem : (openingEquity, "INR") ∈
            (posted report.document report.cutover).map Posted.holding := by
          rw [hposted]
          decide
        obtain ⟨p, hp, heq⟩ := List.mem_map.mp hmem
        obtain ⟨haccount, hcommodity⟩ := Prod.mk.inj heq
        exact ⟨p, hp, haccount, hcommodity⟩
      · exact pricesPosted_of_project (by decide) hproject

end FinancialDashboard.Paisa
