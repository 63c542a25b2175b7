import FinancialDashboard.Lib.OrderedDict
import FinancialDashboard.Lib.PyJson
import FinancialDashboard.Paisa.Rendering

/-!
# The document

`render_document` of the renderers: the declarations of a document, its openings, its
entries, its lots and its prices (`services/paisa/renderers/base.py`, `ledger_family.py`,
`beancount.py`).

The ledger family declares the accounts that the projection lists.  Beancount derives the
declarations from what is posted: `accountCurrencies` are the accounts with what they hold,
and `beancountDeclarations` the directives for them.

The numbers of a lot are printed by `DecimalText`, with all their digits.
-/

namespace FinancialDashboard.Paisa

open PyJson PyText PyTime Rounding

structure InvestmentLotEntry where
  instrument : String
  instrumentName : String
  quantity : Rat
  unitCost : Rat
  costBasis : Rat
  currency : String
  acquiredOn : Int
  details : List (String × MetaValue)
  deriving DecidableEq

structure LedgerDocument where
  cutoverDate : Option Int
  openings : List OpeningBalance
  entries : List ProjectedEntry
  accountsDeclared : List AccountName
  priceDirectives : List PriceDirective
  lotPostings : List InvestmentLotEntry
  deriving DecidableEq

/-- The document of a projection, which has no lots. -/
def Projection.document (report : Projection) : LedgerDocument where
  cutoverDate := some report.cutover
  openings := report.openings
  entries := report.entries
  accountsDeclared := report.accountsDeclared
  priceDirectives := report.priceDirectives
  lotPostings := []

/-! ### Prices -/

/-- `fmt_price_rate`; the unit is always INR. -/
def fmtPriceRate (rate : Rat) : Except RenderError String :=
  (quantizeTo 10000 rate).elim (.error .invalidOperation) fun q =>
    .ok ((if q < 0 then "-" else "") ++ toString (q.natAbs / 10000) ++ "." ++
      zeroPad 4 (q.natAbs % 10000) ++ " INR")

variable [UnicodeTables] [AlphaTables]

/-- A line of `_render_prices`. -/
def priceLine (backend : Backend) (price : PriceDirective) : Except RenderError String := do
  let rate ← fmtPriceRate price.rate
  let token ← commodityToken backend price.currency
  return match backend with
    | .beancount => isoformat price.date ++ " price " ++ token ++ " " ++ rate
    | .ledger | .hledger => "P " ++ isoformat price.date ++ " " ++ token ++ " " ++ rate

/-- `_render_prices`. -/
def renderPrices (backend : Backend) (prices : List PriceDirective) :
    Except RenderError (List String) :=
  (prices.insertionSort fun a b =>
    (toLex (a.date, a.currency) : Int ×ₗ String) ≤ toLex (b.date, b.currency)).mapM
      (priceLine backend)

/-! ### Lots -/

/-- `INVESTMENT_EQUITY_OPENING` for a backend. -/
def investmentEquity (backend : Backend) : AccountName :=
  match backend with
  | .beancount => ⟨.equity, ["OpeningBalances", "Investment"]⟩
  | .ledger | .hledger => ⟨.equity, ["Opening Balances", "Investment"]⟩

/-- A lot with its commodity and the asset account it is held in. -/
structure PlacedLot where
  lot : InvestmentLotEntry
  commodity : String
  account : String
  deriving DecidableEq

def placeLot (backend : Backend) (lot : InvestmentLotEntry) : Except RenderError PlacedLot := do
  let commodity ← sanitizeCommodity lot.instrument
  let account ← validName backend ⟨.assets, ["Investments", commodity]⟩
  return ⟨lot, commodity, account⟩

/-- `quantity * unit_cost`. -/
def InvestmentLotEntry.product (lot : InvestmentLotEntry) : Rat :=
  inContext (lot.quantity * lot.unitCost)

/-- `check_lot_consistent`: the product and the basis are a cent apart at most. -/
def checkLotConsistent (lot : InvestmentLotEntry) : Except RenderError Unit := do
  let product ← quantizeCents lot.product
  let basis ← quantizeCents lot.costBasis
  if 1 < (product - basis).natAbs then .error (.unbalanced lot.instrument lot.product) else .ok ()

/-- `_format_posting` with `fmt_lot_money`. -/
def formatLotPosting [DecimalText] (backend : Backend) (account : AccountName) (amount : Rat)
    (commodity : String) : Except RenderError String := do
  let token ← commodityToken backend commodity
  let name ← validName backend account
  return indent 1 ++ name ++ alignmentGap name ++ DecimalText.text amount ++ " " ++ token

def lotPayee (lot : InvestmentLotEntry) : String :=
  let payee := noteText (some ("Investment Lot - " ++ lot.instrumentName))
  if payee = "" then "Investment Lot" else payee

def lotHeader (backend : Backend) (lot : InvestmentLotEntry) : String :=
  match backend with
  | .beancount => isoformat lot.acquiredOn ++ " * " ++ quoteString (lotPayee lot)
  | .ledger | .hledger => isoformat lot.acquiredOn ++ " * " ++ lotPayee lot

/-- The asset leg: quantity, cost of a unit, and date. -/
def assetLine [DecimalText] (backend : Backend) (placed : PlacedLot) (token : String) : String :=
  let lot := placed.lot
  let posting := indent 1 ++ placed.account ++ "  " ++ DecimalText.text lot.quantity ++ " " ++
    token ++ " \x7b" ++ DecimalText.text lot.unitCost ++ " " ++ lot.currency
  match backend with
  | .beancount => posting ++ ", " ++ isoformat lot.acquiredOn ++ "\x7d"
  | .ledger | .hledger => posting ++ "\x7d [" ++ isoformat lot.acquiredOn ++ "]"

/-- `_render_lot`. -/
def renderLot [DecimalText] (backend : Backend) (lot : InvestmentLotEntry) :
    Except RenderError (List String) := do
  checkLotConsistent lot
  let placed ← placeLot backend lot
  let token ← commodityToken backend placed.commodity
  let equity ← formatLotPosting backend (investmentEquity backend) (-lot.product) lot.currency
  return lotHeader backend lot :: metaLines backend 1 lot.details ++
    [assetLine backend placed token, equity, ""]

/-! ### Declarations of the ledger family -/

/-- Lines with an empty one behind them, unless there are none. -/
def block (lines : List String) : List String := if lines.isEmpty then [] else lines ++ [""]

def ledgerDeclarations (backend : Backend) (doc : LedgerDocument) :
    Except RenderError (List String) := do
  let commodities ← doc.lotPostings.mapM (sanitizeCommodity ·.instrument)
  let accounts ← doc.accountsDeclared.mapM fun account => do
    let name ← validName backend account
    return "account " ++ name
  let symbols ← (commodities.dedup.insertionSort (· ≤ ·)).mapM fun symbol => do
    let token ← commodityToken backend symbol
    return "commodity " ++ token
  return block accounts ++ block symbols

/-! ### Declarations of Beancount -/

/-- The account and the commodity of each posting but the equity's of the openings. -/
def holdings (doc : LedgerDocument) (placed : List PlacedLot) : List (String × String) :=
  (nonzeroOpenings doc.openings).map (fun ob => (ob.accountName.name, "INR")) ++
    doc.entries.flatMap (fun entry => entry.postings.map fun p => (p.account.name, p.commodity)) ++
    placed.flatMap fun p =>
      [(p.account, p.commodity), ((investmentEquity .beancount).name, p.lot.currency)]

/-- `_account_currencies`, with repetitions. -/
def accountCurrencies (doc : LedgerDocument) (placed : List PlacedLot) :
    OrderedDict String (List String) := OrderedDict.collect (holdings doc placed)

/-- `_commodities_used`. -/
def commoditiesUsed (held : OrderedDict String (List String)) : List String :=
  ("INR" :: held.items.flatMap (·.2)).dedup.insertionSort (· ≤ ·)

/-- `_lot_open_dates`, before the cutover is taken into account. -/
def lotOpenDates (placed : List PlacedLot) : OrderedDict String Int :=
  (placed.flatMap fun p =>
    [(p.account, p.lot.acquiredOn), ((investmentEquity .beancount).name, p.lot.acquiredOn)]).foldl
      OrderedDict.setLeast ∅

def openDate (dates : OrderedDict String Int) (cutover : Int) (account : String) : Int :=
  ((dates.get? account).map (min · cutover)).getD cutover

structure OpenDirective where
  date : Int
  account : String
  currencies : List String
  deriving DecidableEq

def OpenDirective.line (o : OpenDirective) : String :=
  isoformat o.date ++ " open " ++ o.account ++
    if o.currencies.isEmpty then "" else " " ++ String.intercalate "," o.currencies

structure CommodityDirective where
  date : Int
  symbol : String
  deriving DecidableEq

def CommodityDirective.line (c : CommodityDirective) : String :=
  isoformat c.date ++ " commodity " ++ c.symbol

/-- The accounts that are opened, with that of the openings if one is printed. -/
def openedAccounts (openings : List OpeningBalance) (held : OrderedDict String (List String)) :
    List String :=
  (held.keys ++ if (nonzeroOpenings openings).isEmpty then []
    else [(equityOpening .beancount).name]).dedup

/-- The `open` directive of an account. -/
def openFor (held : OrderedDict String (List String)) (dates : OrderedDict String Int)
    (cutover : Int) (account : String) : OpenDirective where
  date := openDate dates cutover account
  account
  currencies := (((held.get? account).getD [] ++
    if account = (equityOpening .beancount).name then ["INR"] else []).dedup).insertionSort (· ≤ ·)

/-- The `open` directives, by date and account. -/
def openDirectives (doc : LedgerDocument) (cutover : Int) (placed : List PlacedLot) :
    List OpenDirective :=
  let held := accountCurrencies doc placed
  let dates := lotOpenDates placed
  ((openedAccounts doc.openings held).insertionSort fun a b =>
    (toLex (openDate dates cutover a, a) : Int ×ₗ String) ≤ toLex (openDate dates cutover b, b)).map
      (openFor held dates cutover)

/-- What the text declares at its head. -/
structure Declarations where
  commodities : List CommodityDirective
  opens : List OpenDirective

/-- The directives of a document with a cutover; without postings it has none. -/
def declarationsAt (doc : LedgerDocument) (cutover : Int) (placed : List PlacedLot) :
    Declarations :=
  let held := accountCurrencies doc placed
  if held.keys.isEmpty then ⟨[], []⟩
  else ⟨(commoditiesUsed held).map (CommodityDirective.mk cutover),
    openDirectives doc cutover placed⟩

def beancountDeclarations (doc : LedgerDocument) : Except RenderError Declarations := do
  let placed ← doc.lotPostings.mapM (placeLot .beancount)
  return match doc.cutoverDate with
    | none => ⟨[], []⟩
    | some cutover => declarationsAt doc cutover placed

omit [UnicodeTables] [AlphaTables] in
def Declarations.lines (d : Declarations) : List String :=
  block (d.commodities.map (·.line)) ++ block (d.opens.map (·.line))

/-! ### The text -/

/-- The lines in front of the openings. -/
def declarationLines (backend : Backend) (doc : LedgerDocument) :
    Except RenderError (List String) :=
  match backend with
  | .beancount => do
    let declarations ← beancountDeclarations doc
    return declarations.lines
  | .ledger | .hledger => ledgerDeclarations backend doc

/-- The lines of the openings, entries, lots and prices. -/
def renderBody [DecimalText] (backend : Backend) (doc : LedgerDocument) :
    Except RenderError (List String) := do
  let openings ← renderOpenings backend doc.cutoverDate doc.openings
  let entries ← doc.entries.mapM (renderEntry backend)
  let lots ← doc.lotPostings.mapM (renderLot backend)
  let prices ← renderPrices backend doc.priceDirectives
  return openings ++ entries.flatten ++ lots.flatten ++ prices

/-- The lines of `render_document`. -/
def renderLines [DecimalText] (backend : Backend) (doc : LedgerDocument) :
    Except RenderError (List String) := do
  let declarations ← declarationLines backend doc
  let body ← renderBody backend doc
  return declarations ++ body

/-- The text of some lines, each ended, unless it is empty. -/
def journalText (lines : List String) : String :=
  let text := String.intercalate "\n" lines
  if text = "" then "" else text ++ "\n"

/-- `render_document`. -/
def renderDocument [DecimalText] (backend : Backend) (doc : LedgerDocument) :
    Except RenderError String := do
  let lines ← renderLines backend doc
  return journalText lines

end FinancialDashboard.Paisa
