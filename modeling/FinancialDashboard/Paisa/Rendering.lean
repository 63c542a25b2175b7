import FinancialDashboard.Lib.Rounding
import FinancialDashboard.Paisa.Projection

/-!
# The renderers

How the openings and the entries become lines of the journal
(`services/paisa/renderers/base.py`, `ledger_family.py`, `beancount.py`).  An amount is
printed with two decimals, each on its own; `checkBalanced` tests the totals.

Amounts are rationals, and arithmetic rounds them to the 28 digits of the default
decimal context.  The declarations, prices and lots of a document are left out.
-/

namespace FinancialDashboard.Paisa

open PyText PyTime Rounding

/-! ### Amounts -/

/-- What a renderer raises. -/
inductive RenderError
  | noPostings
  | unbalanced (commodity : String) (sum : Rat)
  | invalidOperation
  | invalidAccountName (name : String)
  deriving DecidableEq

/-- An amount in cents, as it is printed. -/
def cents (value : Rat) : Int := roundEven (value * 100)

/-- `value.quantize(Decimal("0.01"))` in cents. -/
def quantizeCents (value : Rat) : Except RenderError Int :=
  (quantizeTo 100 value).elim (.error .invalidOperation) .ok

/-- `sum` of the amounts, from `Decimal("0.00")` on. -/
def decimalTotal (amounts : List Rat) : Rat := runningTotal inContext 0 amounts

def amountsIn (commodity : String) (postings : List LedgerPosting) : List Rat :=
  (postings.filter (·.commodity = commodity)).map (·.amount)

def checkTotal (postings : List LedgerPosting) (commodity : String) : Except RenderError Unit := do
  let total := decimalTotal (amountsIn commodity postings)
  let q ← quantizeCents total
  if q = 0 then .ok () else .error (.unbalanced commodity total)

/-- `check_balanced`. -/
def checkBalanced (entry : ProjectedEntry) : Except RenderError Unit := do
  if entry.postings.isEmpty then .error .noPostings
  else
    let _ ← (entry.postings.map (·.commodity)).eraseDups.mapM (checkTotal entry.postings)
    .ok ()

/-- The digits of `f"{sign}{abs(q):.2f}"`. -/
def amountText (q : Int) : String :=
  (if q < 0 then "-" else "") ++ toString (q.natAbs / 100) ++ "." ++ zeroPad 2 (q.natAbs % 100)

/-- `fmt_amount`. -/
def fmtAmount (value : Rat) (commodity : String) : Except RenderError String := do
  let q ← quantizeCents value
  return amountText q ++ " " ++ commodity

/-! ### Texts -/

/-- What the renderers read from the Unicode database beside the rest. -/
class AlphaTables where
  isAlpha : Char → Bool

@[reducible] def asciiAlpha : AlphaTables := ⟨Char.isAlpha⟩

variable [UnicodeTables]

/-- `sanitize_text`. -/
def sanitizeText (raw : String) : String :=
  joinWords (words (raw.toList.map fun c => if isUnsafeText c then ' ' else c))

/-- The first 160 characters of a note. -/
def noteText (note : Option String) : String :=
  String.ofList ((sanitizeText (note.getD "")).toList.take 160)

/-- `quote_string`. -/
def quoteString (text : String) : String :=
  "\"" ++ String.ofList (text.toList.flatMap fun c =>
    if c = '\\' || c = '"' then ['\\', c] else [c]) ++ "\""

/-- `sanitize_commodity`. -/
def sanitizeCommodity [AlphaTables] (raw : String) : Except RenderError String :=
  let symbol := upper (String.ofList (raw.toList.filter UnicodeTables.isAlnum))
  if symbol.toList.head?.any AlphaTables.isAlpha then .ok symbol
  else .error (.invalidAccountName raw)

/-- `commodity_token`; Beancount prints the commodity as it is. -/
def commodityToken [AlphaTables] (backend : Backend) (raw : String) : Except RenderError String :=
  match backend with
  | .beancount => .ok raw
  | .ledger | .hledger => do
    let symbol ← sanitizeCommodity raw
    return if symbol.toList.all Char.isAlpha then symbol else "\"" ++ symbol ++ "\""

def MetaValue.render : MetaValue → String
  | text value => value
  | date value => isoformat value

/-! ### Lines -/

def indent (level : Nat) : String := String.ofList (List.replicate (4 * level) ' ')

/-- The amount starts at column 52, and after two blanks at least. -/
def alignmentGap (name : String) : String :=
  String.ofList (List.replicate (max (52 - 4 - name.length) 2) ' ')

/-- The name of an account as `validate` returns it. -/
def validName (backend : Backend) (account : AccountName) : Except RenderError String :=
  match validateAccountName backend account.name with
  | some valid => .ok valid.name
  | none => .error (.invalidAccountName account.name)

/-- `format_posting_line` as the renderers call it. -/
def formatPosting [AlphaTables] (backend : Backend) (account : AccountName) (amount : Rat)
    (commodity : String) : Except RenderError String := do
  let token ← commodityToken backend commodity
  let name ← validName backend account
  let text ← fmtAmount amount token
  return indent 1 ++ name ++ alignmentGap name ++ text

/-- `_meta_tag_lines` and `_meta_lines`. -/
def metaLines (backend : Backend) (level : Nat) (details : List (String × MetaValue)) :
    List String :=
  details.map fun (key, value) =>
    match backend with
    | .beancount => indent level ++ key ++ ": " ++ quoteString value.render
    | .ledger | .hledger => indent level ++ "; " ++ key ++ ": " ++ value.render

/-- The first lines of an entry, up to its metadata. -/
def entryHeader (backend : Backend) (entry : ProjectedEntry) : List String :=
  let date := isoformat entry.date
  let payee := sanitizeText entry.payee
  let ids := String.intercalate ", " (entry.txnIds.map toString)
  match backend with
  | .beancount =>
    let note := noteText entry.note
    let header := date ++ " *" ++ (if payee = "" then "" else " " ++ quoteString payee) ++
      if note = "" then "" else " " ++ quoteString note
    header :: if ids = "" then [] else [indent 1 ++ "txn: " ++ quoteString ids]
  | .ledger | .hledger =>
    let header := date ++ " *" ++ if payee = "" then "" else " " ++ payee
    [header ++ if ids = "" then "" else "    ; txn:" ++ ids]

/-- The note of an entry, where it is a line of its own. -/
def noteLines (backend : Backend) (entry : ProjectedEntry) : List String :=
  match backend with
  | .beancount => []
  | .ledger | .hledger =>
    let note := noteText entry.note
    if note = "" then [] else [indent 1 ++ "; note: " ++ note]

/-- `_render_entry`. -/
def renderEntry [AlphaTables] (backend : Backend) (entry : ProjectedEntry) :
    Except RenderError (List String) := do
  checkBalanced entry
  let lines ← entry.postings.mapM fun posting =>
    formatPosting backend posting.account posting.amount posting.commodity
  return entryHeader backend entry ++ metaLines backend 1 entry.details ++ lines ++
    noteLines backend entry ++ [""]

/-! ### Openings -/

/-- `EQUITY_OPENING` for a backend. -/
def equityOpening (backend : Backend) : AccountName :=
  match backend with
  | .beancount => ⟨.equity, ["OpeningBalances"]⟩
  | .ledger | .hledger => ⟨.equity, ["Opening Balances"]⟩

/-- The openings that are printed. -/
def nonzeroOpenings (openings : List OpeningBalance) : List OpeningBalance :=
  openings.filter (·.amount ≠ 0)

def equityAmount (openings : List OpeningBalance) : Rat :=
  -decimalTotal ((nonzeroOpenings openings).map (·.amount))

/-- `_render_openings`. -/
def renderOpenings [AlphaTables] (backend : Backend) (cutover : Option Int)
    (openings : List OpeningBalance) : Except RenderError (List String) :=
  match nonzeroOpenings openings, cutover with
  | [], _ | _, none => .ok []
  | nonzero, some date => do
    let header := match backend with
      | .beancount => [isoformat date ++ " * " ++ quoteString "Opening Balances"]
      | .ledger | .hledger => [isoformat date ++ " * Opening Balances"]
    let lines ← nonzero.mapM fun ob => do
      let line ← formatPosting backend ob.accountName ob.amount "INR"
      return line :: metaLines backend 2 ob.details
    let equity ← formatPosting backend (equityOpening backend) (equityAmount openings) "INR"
    return header ++ metaLines backend 1 [("dashboard_kind", .text "opening")] ++ lines.flatten ++
      [equity, ""]

end FinancialDashboard.Paisa
