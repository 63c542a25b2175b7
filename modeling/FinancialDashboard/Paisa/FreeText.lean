import FinancialDashboard.Paisa.InternalMovements
import FinancialDashboard.Paisa.JournalSkeleton

/-!
# Free text and the structure of the journal

Counterparties, notes, metadata values and instrument names come from outside, and the
renderers and the projection sanitize them in different places.  `blank` takes them out of a
document.

* `map_renderDocument_blank`: no free text has a part in the skeleton, where the metadata has no
  line break.
* `plainDetails_of_project`: the projection's has none, unless a category has.
* `skeleton_of_blank`: two projections that differ in free text alone have the same skeleton.
-/

namespace FinancialDashboard.Paisa

open Posting PyJson PyText PyTime Skeleton Transactions

/-! ### Openings and lots without free text -/

def OpeningBalance.blank (ob : OpeningBalance) : OpeningBalance :=
  { ob with accountId := 0, source := .snapshot, asOf := 0 }

def InvestmentLotEntry.blank (lot : InvestmentLotEntry) : InvestmentLotEntry :=
  { lot with instrumentName := "", details := blankDetails lot.details }

/-- The values of an opening's metadata are ids, names and dates. -/
theorem plainDetails_opening (ob : OpeningBalance) : PlainDetails ob.details := by
  have hsource : ∀ source : OpeningSource, OneLine source.value := by
    rintro (_ | _)
    · decide
    · decide
  refine .cons (by decide) (by decide) (oneLine_toString _) ?_
  refine .cons (by decide) (by decide) (hsource _) ?_
  exact .cons (by decide) (by decide) (oneLine_isoformat _) .nil

/-- Openings differ in their values alone. -/
theorem map_openingDetails_blank (backend : Backend) (ob : OpeningBalance) :
    (metaLines backend 2 ob.details).map (textSkeleton backend) =
      (metaLines backend 2 ob.blank.details).map (textSkeleton backend) := by
  have hkeys : blankDetails ob.details = blankDetails ob.blank.details := rfl
  rw [map_metaLines_blank (plainDetails_opening ob) backend 1, hkeys,
    ← map_metaLines_blank (plainDetails_opening ob.blank) backend 1]

theorem nonzeroOpenings_blank (openings : List OpeningBalance) :
    nonzeroOpenings (openings.map OpeningBalance.blank) =
      (nonzeroOpenings openings).map OpeningBalance.blank := by
  unfold nonzeroOpenings
  rw [List.filter_map]
  rfl

theorem equityAmount_blank (openings : List OpeningBalance) :
    equityAmount (openings.map OpeningBalance.blank) = equityAmount openings := by
  rw [equityAmount, nonzeroOpenings_blank, List.map_map]
  rfl

theorem InvestmentLotEntry.blank_blank (lot : InvestmentLotEntry) :
    lot.blank.blank = lot.blank := by
  simp [InvestmentLotEntry.blank, blankDetails]

def PlacedLot.blank (p : PlacedLot) : PlacedLot := { p with lot := p.lot.blank }

/-! ### Ids and kinds -/

theorem oneLine_txnIdsText (ids : List Nat) : OneLine (txnIdsText ids) := by
  have hbar : OneLine "|" := by decide
  have hstart : OneLine "txn-" := by decide
  refine oneLine_intercalate hbar fun text htext => ?_
  obtain ⟨id, -, rfl⟩ := List.mem_map.mp htext
  exact hstart.append (oneLine_toString id)

theorem oneLine_pipeIds (ids : List Nat) : OneLine (pipeIds ids) := by
  have hbar : OneLine "|" := by decide
  unfold pipeIds
  split_ifs
  · decide
  · refine oneLine_intercalate hbar fun text htext => ?_
    obtain ⟨id, -, rfl⟩ := List.mem_map.mp htext
    exact oneLine_toString id

theorem oneLine_kind (kind : EntryKind) : OneLine kind.value := by
  cases kind <;> decide

/-! ### Entries without free text -/

variable [UnicodeTables]

/-- The entry without payee, note and metadata values; whether they are empty is kept where the
backend writes no string, or no line, for an empty one. -/
def ProjectedEntry.blank (backend : Backend) (entry : ProjectedEntry) : ProjectedEntry :=
  { entry with
    payee := match backend with
      | .beancount => if sanitizeText entry.payee = "" then "" else "x"
      | .ledger | .hledger => ""
    note := if noteText entry.note = "" then none else some "x"
    details := blankDetails entry.details }

@[simp] theorem ProjectedEntry.blank_date (backend : Backend) (entry : ProjectedEntry) :
    (entry.blank backend).date = entry.date := by
  simp only [ProjectedEntry.blank]

@[simp] theorem ProjectedEntry.blank_txnIds (backend : Backend) (entry : ProjectedEntry) :
    (entry.blank backend).txnIds = entry.txnIds := by
  simp only [ProjectedEntry.blank]

def LedgerDocument.blank (backend : Backend) (doc : LedgerDocument) : LedgerDocument :=
  { doc with
    openings := doc.openings.map OpeningBalance.blank
    entries := doc.entries.map (ProjectedEntry.blank backend)
    lotPostings := doc.lotPostings.map InvestmentLotEntry.blank }

/-- A sanitized text has no comment and no line break in it. -/
theorem mem_sanitizeText {raw : String} {c : Char} (h : c ∈ (sanitizeText raw).toList) :
    isUnsafeText c = false := by
  rcases mem_joinWords h with rfl | hc
  · decide
  · obtain ⟨d, -, rfl⟩ := List.mem_map.mp hc
    split_ifs with hd
    · decide
    · simpa using hd

theorem mem_noteText {note : Option String} {c : Char} (h : c ∈ (noteText note).toList) :
    isUnsafeText c = false := by
  rw [noteText, String.toList_ofList] at h
  exact mem_sanitizeText (List.mem_of_mem_take h)

theorem oneLine_sanitizeText (raw : String) : OneLine (sanitizeText raw) :=
  oneLine_of_safe fun _ => mem_sanitizeText

theorem oneLine_noteText (note : Option String) : OneLine (noteText note) :=
  oneLine_of_safe fun _ => mem_noteText

theorem sanitizeText_empty : sanitizeText "" = "" := by
  simp [sanitizeText, words, joinWords]

/-- A letter is its own sanitized text. -/
theorem sanitizeText_x : sanitizeText "x" = "x" := by
  have hletter : UnicodeTables.isSpace 'x' = false := UnicodeTables.isSpace_letter 'x' (by decide)
  have hsafe : (("x" : String).toList.map fun c => if isUnsafeText c then ' ' else c) = ['x'] := by
    decide
  have hwords : words ['x'] = [['x']] := by
    rw [words, List.splitOnP_eq_singleton (by simpa using hletter)]
    rfl
  rw [sanitizeText, hsafe, hwords]
  rfl

theorem noteText_none : noteText none = "" := by
  rw [noteText, Option.getD_none, sanitizeText_empty]
  rfl

theorem noteText_x : noteText (some "x") = "x" := by
  rw [noteText, Option.getD_some, sanitizeText_x]
  rfl

variable {backend : Backend} {entry : ProjectedEntry}

/-- Blanking keeps whether the note is empty. -/
theorem noteText_blank : noteText (entry.blank backend).note = "" ↔ noteText entry.note = "" := by
  unfold ProjectedEntry.blank
  dsimp only
  split_ifs with hempty
  · simp [noteText_none, hempty]
  · simp [noteText_x, hempty]

/-- Blanking keeps whether the payee is empty. -/
theorem sanitizeText_payee_blank : sanitizeText (entry.blank .beancount).payee = "" ↔
    sanitizeText entry.payee = "" := by
  unfold ProjectedEntry.blank
  dsimp only
  split_ifs with hempty
  · simp [sanitizeText_empty, hempty]
  · simp [sanitizeText_x, hempty]

/-- **Payee and note are no part of the skeleton**, but for whether Beancount writes them. -/
theorem map_entryHeader_blank (backend : Backend) (entry : ProjectedEntry) :
    (entryHeader backend entry).map (textSkeleton backend) =
      (entryHeader backend (entry.blank backend)).map (textSkeleton backend) := by
  have hledger : backend ≠ .beancount →
      textSkeleton backend (isoformat entry.date ++ " *" ++
        (if sanitizeText entry.payee = "" then "" else " " ++ sanitizeText entry.payee) ++
          if String.intercalate ", " (entry.txnIds.map toString) = "" then ""
            else "    ; txn:" ++ String.intercalate ", " (entry.txnIds.map toString)) =
      textSkeleton backend (isoformat entry.date ++ " *" ++
        (if sanitizeText (entry.blank backend).payee = "" then ""
          else " " ++ sanitizeText (entry.blank backend).payee) ++
          if String.intercalate ", " (entry.txnIds.map toString) = "" then ""
            else "    ; txn:" ++ String.intercalate ", " (entry.txnIds.map toString)) := by
    intro hbackend
    have hids := oneLine_ids entry.txnIds
    have htxn : OneLine "    ; txn:" := by decide
    refine textSkeleton_ledgerHeader hbackend (safe_optional fun c => mem_sanitizeText)
      (safe_optional fun c => mem_sanitizeText) ?_
    split_ifs
    · decide
    · exact htxn.append hids
  cases backend with
  | beancount =>
    have hbeancount : ∀ e : ProjectedEntry, entryHeader .beancount e =
        (isoformat e.date ++ " *" ++
          (if sanitizeText e.payee = "" then "" else " " ++ quoteString (sanitizeText e.payee)) ++
            if noteText e.note = "" then "" else " " ++ quoteString (noteText e.note)) ::
        if String.intercalate ", " (e.txnIds.map toString) = "" then []
          else [indent 1 ++ "txn: " ++
            quoteString (String.intercalate ", " (e.txnIds.map toString))] := fun _ => rfl
    have hheader := @textSkeleton_header entry.date (sanitizeText entry.payee)
      (sanitizeText (entry.blank .beancount).payee) (noteText entry.note)
      (noteText (entry.blank .beancount).note) (oneLine_sanitizeText _) (oneLine_sanitizeText _)
      (oneLine_noteText _) (oneLine_noteText _) sanitizeText_payee_blank noteText_blank
    rw [hbeancount, hbeancount, ProjectedEntry.blank_date, ProjectedEntry.blank_txnIds,
      List.map_cons, List.map_cons, hheader]
  | ledger => exact congrArg (· :: []) (hledger nofun)
  | hledger => exact congrArg (· :: []) (hledger nofun)

theorem map_noteLines_blank (backend : Backend) (entry : ProjectedEntry) :
    (noteLines backend entry).map (textSkeleton backend) =
      (noteLines backend (entry.blank backend)).map (textSkeleton backend) := by
  have hledger : backend ≠ .beancount →
      (if noteText entry.note = "" then []
        else [indent 1 ++ "; note: " ++ noteText entry.note]).map (textSkeleton backend) =
      (if noteText (entry.blank backend).note = "" then []
        else [indent 1 ++ "; note: " ++ noteText (entry.blank backend).note]).map
          (textSkeleton backend) := by
    intro hbackend
    by_cases hempty : noteText entry.note = ""
    · rw [if_pos hempty, if_pos (noteText_blank.mpr hempty)]
    · rw [if_neg hempty, if_neg (mt noteText_blank.mp hempty)]
      have hkey : ("; note: " : String) = "; " ++ "note" ++ ": " := rfl
      have hnote : OneLine "note" := by decide
      simp only [List.map_singleton, hkey, ← String.append_assoc]
      exact congrArg (· :: []) (textSkeleton_tag hbackend hnote (oneLine_noteText _)
        (oneLine_noteText _))
  have hbeancount : ∀ e : ProjectedEntry, noteLines .beancount e = [] := fun _ => rfl
  cases backend with
  | beancount => rw [hbeancount, hbeancount]
  | ledger => exact hledger nofun
  | hledger => exact hledger nofun

theorem safe_lotPayee (lot : InvestmentLotEntry) :
    ∀ c ∈ (lotPayee lot).toList, isUnsafeText c = false := by
  have hdefault : (("Investment Lot" : String).toList.all fun c => !isUnsafeText c) = true := by
    decide
  unfold lotPayee
  dsimp only
  split_ifs
  · exact fun c hc => by simpa using List.all_eq_true.mp hdefault c hc
  · exact fun c => mem_noteText

/-- **The name of an instrument is no part of the skeleton.** -/
theorem textSkeleton_lotHeader (backend : Backend) (lot : InvestmentLotEntry) :
    textSkeleton backend (lotHeader backend lot) =
      textSkeleton backend (lotHeader backend lot.blank) := by
  have hstar : (" * " : String) = " *" ++ " " := rfl
  have hline : ∀ lot, OneLine (lotPayee lot) := fun lot => oneLine_of_safe (safe_lotPayee lot)
  have hsafe : ∀ lot, ∀ c ∈ (" " ++ lotPayee lot).toList, isUnsafeText c = false := by
    intro lot c hc
    rw [String.toList_append] at hc
    rcases List.mem_append.mp hc with hc | hc
    · rw [show c = ' ' by simpa using hc]
      decide
    · exact safe_lotPayee lot c hc
  have hledger : backend ≠ .beancount → textSkeleton backend
      (isoformat lot.acquiredOn ++ " * " ++ lotPayee lot) =
        textSkeleton backend (isoformat lot.acquiredOn ++ " * " ++ lotPayee lot.blank) := by
    intro hbackend
    have hnone : OneLine "" := by decide
    have hheader : textSkeleton backend
        (isoformat lot.acquiredOn ++ " *" ++ (" " ++ lotPayee lot) ++ "") = textSkeleton backend
          (isoformat lot.acquiredOn ++ " *" ++ (" " ++ lotPayee lot.blank) ++ "") :=
      textSkeleton_ledgerHeader hbackend (hsafe lot) (hsafe lot.blank) hnone
    simp only [String.append_empty, ← String.append_assoc] at hheader
    simp only [hstar, ← String.append_assoc]
    exact hheader
  cases backend with
  | beancount =>
    have hmark : OneLine " * " := by decide
    refine textSkeleton_quoted ((oneLine_isoformat _).append hmark) ?_ (hline lot) (hline lot.blank)
    rw [String.toList_append, List.mem_append, not_or]
    exact ⟨fun h => absurd (mem_isoformat h) (by decide), by decide⟩
  | ledger => exact hledger nofun
  | hledger => exact hledger nofun

theorem holdings_blank (backend : Backend) (doc : LedgerDocument)
    {placed placed' : List PlacedLot}
    (h : placed.map PlacedLot.blank = placed'.map PlacedLot.blank) :
    holdings doc placed = holdings (doc.blank backend) placed' := by
  have hlots : ∀ placed : List PlacedLot, placed.flatMap (fun p => [(p.account, p.commodity),
      ((investmentEquity .beancount).name, p.lot.currency)]) =
      (placed.map PlacedLot.blank).flatMap fun p => [(p.account, p.commodity),
        ((investmentEquity .beancount).name, p.lot.currency)] := by
    intro placed
    rw [List.flatMap_map]
    rfl
  have hentries : (doc.blank backend).entries.flatMap (fun entry => entry.postings.map
      fun p => (p.account.name, p.commodity)) = doc.entries.flatMap fun entry =>
        entry.postings.map fun p => (p.account.name, p.commodity) := List.flatMap_map _ _ _
  have hopenings : nonzeroOpenings (doc.blank backend).openings =
      (nonzeroOpenings doc.openings).map OpeningBalance.blank := nonzeroOpenings_blank _
  unfold holdings
  rw [hlots placed, hlots placed', h, hentries, hopenings, List.map_map]
  rfl

theorem declarationsAt_blank (backend : Backend) (doc : LedgerDocument) (cutover : Int)
    {placed placed' : List PlacedLot}
    (h : placed.map PlacedLot.blank = placed'.map PlacedLot.blank) :
    declarationsAt doc cutover placed = declarationsAt (doc.blank backend) cutover placed' := by
  have hdates : ∀ placed : List PlacedLot,
      lotOpenDates placed = lotOpenDates (placed.map PlacedLot.blank) := by
    intro placed
    unfold lotOpenDates
    rw [List.flatMap_map]
    rfl
  have hopenings : nonzeroOpenings (doc.blank backend).openings =
      (nonzeroOpenings doc.openings).map OpeningBalance.blank := nonzeroOpenings_blank _
  have haccounts : ∀ held, openedAccounts (doc.blank backend).openings held =
      openedAccounts doc.openings held := by
    intro held
    rw [openedAccounts, hopenings, List.isEmpty_map]
    rfl
  unfold declarationsAt openDirectives accountCurrencies
  dsimp only
  rw [holdings_blank backend doc h, hdates placed, hdates placed', h, haccounts]

/-! ### What is rendered -/

section

variable [AlphaTables]

/-- **An entry and the blank one have the same skeleton, or fail alike.** -/
theorem map_renderEntry_blank (h : PlainDetails entry.details) (backend : Backend) :
    (renderEntry backend entry).map (List.map (textSkeleton backend)) =
      (renderEntry backend (entry.blank backend)).map (List.map (textSkeleton backend)) := by
  have hguard : checkBalanced (entry.blank backend) = checkBalanced entry := rfl
  have hpostings : (entry.blank backend).postings = entry.postings := rfl
  unfold renderEntry
  rw [hguard, hpostings]
  refine map_bind_congr (k := id) rfl fun _ _ _ => ?_
  refine map_bind_congr (k := id) rfl fun lines lines' hlines => ?_
  obtain rfl : lines = lines' := hlines
  refine congrArg Except.ok ?_
  simp only [List.map_append, map_entryHeader_blank backend entry,
    map_noteLines_blank backend entry, map_metaLines_blank h backend 0]
  rfl

theorem map_renderOpenings_blank (backend : Backend) (cutover : Option Int)
    (openings : List OpeningBalance) :
    (renderOpenings backend cutover openings).map (List.map (textSkeleton backend)) =
      (renderOpenings backend cutover (openings.map OpeningBalance.blank)).map
        (List.map (textSkeleton backend)) := by
  unfold renderOpenings
  rw [nonzeroOpenings_blank, equityAmount_blank]
  cases nonzeroOpenings openings with
  | nil => rfl
  | cons first rest =>
    cases cutover with
    | none => rfl
    | some date =>
      simp only [List.map_cons]
      refine map_bind_congr (k := List.map (List.map (textSkeleton backend)))
        (map_mapM_congr (b := OpeningBalance.blank) fun ob _ => ?_) fun lines lines' hlines => ?_
      · refine map_bind_congr (k := id) rfl fun line line' hline => ?_
        obtain rfl : line = line' := hline
        refine congrArg Except.ok ?_
        rw [List.map_cons, List.map_cons, map_openingDetails_blank]
      · refine map_bind_congr (k := id) rfl fun equity equity' hequity => ?_
        obtain rfl : equity = equity' := hequity
        refine congrArg Except.ok ?_
        simp only [List.map_append, List.map_flatten, hlines]

/-- A lot is placed by its instrument, not by the instrument's name. -/
theorem map_placeLot_blank (backend : Backend) (lot : InvestmentLotEntry) :
    (placeLot backend lot).map PlacedLot.blank =
      (placeLot backend lot.blank).map PlacedLot.blank := by
  unfold placeLot
  refine map_bind_congr (k := id) rfl fun commodity commodity' h => ?_
  obtain rfl : commodity = commodity' := h
  refine map_bind_congr (k := id) rfl fun account account' h => ?_
  obtain rfl : account = account' := h
  show Except.ok (PlacedLot.mk lot.blank commodity account) =
    Except.ok (PlacedLot.mk lot.blank.blank commodity account)
  rw [InvestmentLotEntry.blank_blank]

theorem map_renderLot_blank [DecimalText] {lot : InvestmentLotEntry} (h : PlainDetails lot.details)
    (backend : Backend) : (renderLot backend lot).map (List.map (textSkeleton backend)) =
      (renderLot backend lot.blank).map (List.map (textSkeleton backend)) := by
  unfold renderLot
  refine map_bind_congr (k := id) rfl fun _ _ _ => ?_
  refine map_bind_congr (map_placeLot_blank backend lot) fun placed placed' hplaced => ?_
  have hblank : placed.blank.commodity = placed'.blank.commodity := congrArg _ hplaced
  have hcommodity : placed.commodity = placed'.commodity := hblank
  rw [hcommodity]
  refine map_bind_congr (k := id) rfl fun token token' htoken => ?_
  obtain rfl : token = token' := htoken
  refine map_bind_congr (k := id) rfl fun equity equity' hequity => ?_
  obtain rfl : equity = equity' := hequity
  have hlines : assetLine backend placed.blank token = assetLine backend placed'.blank token :=
    congrArg (assetLine backend · token) hplaced
  have hasset : assetLine backend placed token = assetLine backend placed' token := hlines
  refine congrArg Except.ok ?_
  rw [List.map_append, List.map_append, List.map_cons, List.map_cons, hasset,
    textSkeleton_lotHeader, map_metaLines_blank h backend 0]
  rfl

theorem ledgerDeclarations_blank (backend : Backend) (doc : LedgerDocument) :
    ledgerDeclarations backend (doc.blank backend) = ledgerDeclarations backend doc := by
  have hlots : (doc.blank backend).lotPostings = doc.lotPostings.map InvestmentLotEntry.blank := rfl
  have hinstrument : ∀ lot : InvestmentLotEntry, lot.blank.instrument = lot.instrument :=
    fun _ => rfl
  have haccounts : (doc.blank backend).accountsDeclared = doc.accountsDeclared := rfl
  unfold ledgerDeclarations
  rw [hlots, haccounts, List.mapM_map]
  simp only [Function.comp_def, hinstrument]

theorem map_beancountDeclarations_blank (backend : Backend) (doc : LedgerDocument) :
    (beancountDeclarations doc).map Declarations.lines =
      (beancountDeclarations (doc.blank backend)).map Declarations.lines := by
  have hplaced : (doc.lotPostings.mapM (placeLot .beancount)).map (List.map PlacedLot.blank) =
      ((doc.lotPostings.map InvestmentLotEntry.blank).mapM (placeLot .beancount)).map
        (List.map PlacedLot.blank) := map_mapM_congr fun lot _ => map_placeLot_blank .beancount lot
  have hlots : (doc.blank backend).lotPostings = doc.lotPostings.map InvestmentLotEntry.blank := rfl
  have hcutover : (doc.blank backend).cutoverDate = doc.cutoverDate := rfl
  unfold beancountDeclarations
  rw [hlots, hcutover]
  refine map_bind_congr hplaced fun placed placed' h => congrArg Except.ok ?_
  cases doc.cutoverDate with
  | none => rfl
  | some cutover => exact congrArg Declarations.lines (declarationsAt_blank backend doc cutover h)

/-- The declarations are made of no free text at all. -/
theorem map_declarationLines_blank (backend : Backend) (doc : LedgerDocument) :
    (declarationLines backend doc).map (List.map (textSkeleton backend)) =
      (declarationLines backend (doc.blank backend)).map (List.map (textSkeleton backend)) := by
  have hledger : (ledgerDeclarations backend doc).map (List.map (textSkeleton backend)) =
      (ledgerDeclarations backend (doc.blank backend)).map (List.map (textSkeleton backend)) := by
    rw [ledgerDeclarations_blank]
  cases backend with
  | beancount =>
    refine map_bind_congr (map_beancountDeclarations_blank .beancount doc) fun d d' h => ?_
    exact congrArg (fun lines => Except.ok (lines.map (textSkeleton .beancount))) h
  | ledger => exact hledger
  | hledger => exact hledger

variable [DecimalText] {doc : LedgerDocument}

theorem map_renderBody_blank (hentries : ∀ entry ∈ doc.entries, PlainDetails entry.details)
    (hlots : ∀ lot ∈ doc.lotPostings, PlainDetails lot.details) (backend : Backend) :
    (renderBody backend doc).map (List.map (textSkeleton backend)) =
      (renderBody backend (doc.blank backend)).map (List.map (textSkeleton backend)) := by
  unfold renderBody
  refine map_bind_congr (map_renderOpenings_blank backend doc.cutoverDate doc.openings)
    fun openings openings' hopenings => ?_
  refine map_bind_congr (k := List.map (List.map (textSkeleton backend)))
    (map_mapM_congr (b := ProjectedEntry.blank backend) fun entry hentry =>
      map_renderEntry_blank (hentries entry hentry) backend) fun entries entries' hrendered => ?_
  refine map_bind_congr (k := List.map (List.map (textSkeleton backend)))
    (map_mapM_congr (b := InvestmentLotEntry.blank) fun lot hlot =>
      map_renderLot_blank (hlots lot hlot) backend) fun lots lots' hplaced => ?_
  refine map_bind_congr (k := id) rfl fun prices prices' hprices => ?_
  obtain rfl : prices = prices' := hprices
  refine congrArg Except.ok ?_
  simp only [List.map_append, List.map_flatten, hopenings, hrendered, hplaced]

/-- **A document and the blank one have the same skeleton, or fail alike.** -/
theorem map_renderDocument_blank (hentries : ∀ entry ∈ doc.entries, PlainDetails entry.details)
    (hlots : ∀ lot ∈ doc.lotPostings, PlainDetails lot.details) (backend : Backend) :
    (renderDocument backend doc).map (textSkeleton backend) =
      (renderDocument backend (doc.blank backend)).map (textSkeleton backend) := by
  have hlines : (renderLines backend doc).map (List.map (textSkeleton backend)) =
      (renderLines backend (doc.blank backend)).map (List.map (textSkeleton backend)) := by
    unfold renderLines
    refine map_bind_congr (map_declarationLines_blank backend doc) fun head head' hhead => ?_
    refine map_bind_congr (map_renderBody_blank hentries hlots backend) fun body body' hbody => ?_
    refine congrArg Except.ok ?_
    rw [List.map_append, List.map_append, hhead, hbody]
  unfold renderDocument
  exact map_bind_congr hlines fun lines lines' h =>
    congrArg Except.ok (textSkeleton_journalText h)

end

/-! ### The metadata of a projection -/

/-- What is left of a value has no line break. -/
theorem oneLine_sanitizeMetaValue (raw : String) : OneLine (sanitizeMetaValue raw) := by
  refine oneLine_of_forall fun c hc => ?_
  rw [sanitizeMetaValue, String.toList_ofList] at hc
  rcases Words.mem_join (List.mem_of_mem_take hc) with rfl | ⟨word, hword, hc⟩
  · decide
  · have hcleaned := (Words.mem_splitOnP (List.mem_of_mem_filter hword) c hc).2
    obtain ⟨d, -, rfl⟩ := List.mem_map.mp hcleaned
    split_ifs with hd
    · decide
    · rintro rfl
      exact hd (by decide)

theorem oneLine_metaOrUnknown (raw : Option String) : OneLine (metaOrUnknown raw) := by
  unfold metaOrUnknown Networth.orElse
  split_ifs
  · decide
  · exact oneLine_sanitizeMetaValue _

/-- **The metadata of a transaction has no line break but one of its category.** -/
theorem plainDetails_txnMeta {t : BookedTransaction} {ids accountIds cardIds : List Nat}
    {kind : EntryKind} {extra : List (String × MetaValue)}
    (hslug : OneLine (categorySlug t.category)) (hextra : PlainDetails extra) :
    PlainDetails (txnMeta t ids kind accountIds cardIds extra) := by
  refine .append (.append ?_ ?_) hextra
  · refine .cons (by decide) (by decide) (oneLine_txnIdsText ids) ?_
    refine .cons (by decide) (by decide) (oneLine_kind kind) ?_
    refine .cons (by decide) (by decide) hslug ?_
    refine .cons (by decide) (by decide) (oneLine_metaOrUnknown _) ?_
    refine .cons (by decide) (by decide) (oneLine_metaOrUnknown _) ?_
    refine .cons (by decide) (by decide) (oneLine_metaOrUnknown _) ?_
    refine .cons (by decide) (by decide) (oneLine_pipeIds accountIds) ?_
    exact .cons (by decide) (by decide) (oneLine_pipeIds cardIds) .nil
  · split_ifs
    · exact .nil
    · exact .cons (by decide) (by decide) (oneLine_sanitizeMetaValue _) .nil

theorem plainDetails_valuationEntry {account equityAccount : AccountName}
    {reason payee valuationKind : String} {date asOfDate : Int} {amount : Rat}
    (hkind : valuationKind ∈ ["opening", "revaluation"]) :
    PlainDetails (valuationEntry account equityAccount reason payee valuationKind date asOfDate
      amount).details := by
  have hvaluation : OneLine valuationKind := by
    simp only [List.mem_cons, List.not_mem_nil, or_false] at hkind
    rcases hkind with rfl | rfl
    · decide
    · decide
  refine .cons (by decide) (by decide) (by decide) ?_
  refine .cons (by decide) (by decide) hvaluation ?_
  refine .cons (by decide) (by decide) (oneLine_sanitizeMetaValue _) ?_
  refine .cons (by decide) (by decide) (oneLine_isoformat asOfDate) ?_
  refine .cons (by decide) (by decide) (oneLine_metaOrUnknown (some reason)) ?_
  exact .cons (by decide) (by decide) (by decide) .nil

variable {config : PaisaProjectionConfig} {t : BookedTransaction} {emission : Emission}

theorem plainDetails_of_cardPayment {account : LedgerAccount} {commodity : String}
    {resolution : CardResolution} (hslug : OneLine (categorySlug t.category))
    (h : cardPaymentEntry config t account commodity resolution = .ok emission) :
    PlainDetails emission.entry.details := by
  have hresolved : OneLine "resolved" := by decide
  have hstatus : OneLine resolution.status := by
    cases resolution with
    | resolved card => exact hresolved
    | ambiguousMask => decide
    | unresolved => decide
  unfold cardPaymentEntry at h
  obtain ⟨target, -, h⟩ := bind_eq_ok.mp h
  obtain rfl := Except.ok.inj h
  exact plainDetails_txnMeta hslug (.cons (by decide) (by decide) hstatus .nil)

theorem plainDetails_of_standard [TitleTables] {account : LedgerAccount} {commodity : String}
    (hslug : OneLine (categorySlug t.category))
    (h : standardEntry config t account commodity = .ok emission) :
    PlainDetails emission.entry.details := by
  unfold standardEntry at h
  obtain ⟨contra, -, h⟩ := bind_eq_ok.mp h
  obtain rfl := Except.ok.inj h
  exact plainDetails_txnMeta hslug .nil

theorem plainDetails_of_selfTransfer {accounts : List LedgerAccount}
    {debit credit : BookedTransaction} {commodity : String} {prices : List PriceDirective}
    (hslug : OneLine (categorySlug debit.category))
    (h : selfTransferEntry accounts debit credit commodity prices = some emission) :
    PlainDetails emission.entry.details := by
  unfold selfTransferEntry at h
  split at h
  next =>
    obtain rfl := Option.some.inj h
    exact plainDetails_txnMeta hslug .nil
  next => cases h

variable [TitleTables]

theorem plainDetails_of_posted {accounts : List LedgerAccount} {cards : List Card}
    {txns : List BookedTransaction} {batch : Batch Emission SkippedRow}
    (hids : (txns.map (·.id)).Nodup) (hslugs : ∀ t ∈ txns, OneLine (categorySlug t.category))
    (h : projectTransactions config accounts cards txns = .ok batch)
    (he : emission ∈ batch.posted) : PlainDetails emission.entry.details := by
  rcases posted_origin hids h he with ⟨group, hg, hpair⟩ | ⟨t, ht, b, hrow, hb⟩
  · obtain ⟨debit, credit, hdebits, -, -, -, hentry⟩ := exists_selfTransferEntry hpair
    have hdebit : debit ∈ group.2.filter (·.direction = "debit") :=
      hdebits ▸ List.mem_singleton_self debit
    have hrow := (mem_selfTransferGroups hg (List.mem_of_mem_filter hdebit)).1
    exact plainDetails_of_selfTransfer (hslugs debit (List.mem_of_mem_filter hrow)) hentry
  · have hslug := hslugs t (List.mem_of_mem_filter ht)
    obtain ⟨account, -, ⟨-, hentry⟩ | ⟨-, hentry⟩⟩ := ownEntry_cases hrow hb
    · exact plainDetails_of_cardPayment hslug hentry
    · exact plainDetails_of_standard hslug hentry

variable {books : Books} {report : Projection}

/-- **The metadata of a projection has no line break but those of its categories.** -/
theorem plainDetails_of_project (h : project config books = .ok report)
    (hslugs : ∀ t ∈ books.transactions.rows, OneLine (categorySlug t.category)) :
    ∀ entry ∈ report.entries, PlainDetails entry.details := by
  obtain ⟨accounts, batch, portfolios, hparts⟩ := exists_partsOf h
  intro entry hentry
  rcases List.mem_append.mp (hparts.entries.mem_iff.mp hentry) with hentry | hentry
  · obtain ⟨emission, hposted, rfl⟩ := List.mem_map.mp hentry
    exact plainDetails_of_posted (nodup_transactionsInScope config books report.cutover)
      (fun t ht => hslugs t (mem_transactionsInScope.mp ht).1) hparts.projected hposted
  · have hplain : ∀ e ∈ portfolios, PlainDetails e.details :=
      forall_casEntries (fun _ hkind _ _ _ _ _ _ _ => plainDetails_valuationEntry hkind)
        hparts.valued
    exact hplain entry hentry

/-! ### Two projections -/

/-- The document of a projection with lots besides. -/
def Projection.documentWith (report : Projection) (lots : List InvestmentLotEntry) :
    LedgerDocument := { report.document with lotPostings := lots }

variable [AlphaTables] [DecimalText]

/-- **Free text does not change the structure of the journal**: two projections that are the
same without it, and whose categories have no line break, fail alike in every renderer or give
texts of the same lines. -/
theorem skeleton_of_blank {config' : PaisaProjectionConfig} {books' : Books} {report' : Projection}
    {lots lots' : List InvestmentLotEntry} (h : project config books = .ok report)
    (h' : project config' books' = .ok report')
    (hslugs : ∀ t ∈ books.transactions.rows, OneLine (categorySlug t.category))
    (hslugs' : ∀ t ∈ books'.transactions.rows, OneLine (categorySlug t.category))
    (hlots : ∀ lot ∈ lots, PlainDetails lot.details)
    (hlots' : ∀ lot ∈ lots', PlainDetails lot.details) (backend : Backend)
    (hblank : (report.documentWith lots).blank backend =
      (report'.documentWith lots').blank backend) :
    (renderDocument backend (report.documentWith lots)).map (textSkeleton backend) =
      (renderDocument backend (report'.documentWith lots')).map (textSkeleton backend) := by
  have hentries : ∀ entry ∈ (report.documentWith lots).entries, PlainDetails entry.details :=
    plainDetails_of_project h hslugs
  have hentries' : ∀ entry ∈ (report'.documentWith lots').entries, PlainDetails entry.details :=
    plainDetails_of_project h' hslugs'
  have hdocument := map_renderDocument_blank hentries hlots backend
  have hdocument' := map_renderDocument_blank hentries' hlots' backend
  rw [hdocument, hdocument', hblank]

/-! ### A meal -/

omit [UnicodeTables] [TitleTables] [AlphaTables] [DecimalText]

/-- Two sets of books that are both projected, and the projections pass a check. -/
def bothProjected (check : Projection → Projection → Bool) (books books' : Books) : Bool :=
  let _ := asciiTables
  let _ := asciiTitles
  let _ := asciiAlpha
  match project allAccounts books, project allAccounts books' with
  | .ok report, .ok report' => check report report'
  | _, _ => false

theorem exists_of_bothProjected {check : Projection → Projection → Bool} {books books' : Books}
    (h : bothProjected check books books' = true) : let _ := asciiTables; let _ := asciiTitles
    let _ := asciiAlpha
    ∃ report report', project allAccounts books = .ok report ∧
      project allAccounts books' = .ok report' ∧ check report report' = true := by
  intro _ _ _
  unfold bothProjected at h
  dsimp only at h
  split at h
  next report report' hbooks hbooks' => exact ⟨report, report', hbooks, hbooks', h⟩
  next => cases h

/-- A debit with a note. -/
def mealWith (note : String) : Books :=
  { billAndTransfer with
    accounts := [⟨1, "hdfc", "Salary", "bank_account", some true⟩]
    nodup_accounts := List.nodup_singleton _
    transactions := ⟨[{ bankRow 1 1 "debit" "food" none with note := some note }], by simp⟩ }

/-- The same document but for the notes. -/
def withNote (note : String) (doc : LedgerDocument) : LedgerDocument :=
  { doc with entries := doc.entries.map fun entry => { entry with note := some note } }

/-- The second document has one line more, and no line has a break. -/
def oneLineMore (doc doc' : LedgerDocument) : Bool :=
  let _ := asciiTables
  let _ := asciiAlpha
  let _ := plainDecimals
  match renderLines .ledger doc, renderLines .ledger doc' with
  | .ok lines, .ok lines' => decide (2 ≤ lines.length ∧ lines'.length = lines.length + 1 ∧
      ∀ line ∈ lines ++ lines', OneLine line)
  | _, _ => false

theorem exists_of_oneLineMore {doc doc' : LedgerDocument} (h : oneLineMore doc doc' = true) :
    let _ := asciiTables; let _ := asciiAlpha; let _ := plainDecimals
    ∃ lines lines', renderLines .ledger doc = .ok lines ∧ renderLines .ledger doc' = .ok lines' ∧
      (textSkeleton .ledger (journalText lines')).length =
        (textSkeleton .ledger (journalText lines)).length + 1 := by
  intro _ _ _
  unfold oneLineMore at h
  dsimp only at h
  split at h
  next lines lines' hlines hlines' =>
    obtain ⟨htwo, hmore, hone⟩ := of_decide_eq_true h
    refine ⟨lines, lines', hlines, hlines', ?_⟩
    rw [length_textSkeleton_journalText htwo fun line hline => hone line
        (List.mem_append_left _ hline),
      length_textSkeleton_journalText (by omega) fun line hline => hone line
        (List.mem_append_right _ hline), hmore]
  next => cases h

/-- **A note is a line of its own, and there is none for a note of comment marks.** -/
theorem note_adds_line : let _ := asciiTables; let _ := asciiTitles; let _ := asciiAlpha
    let _ := plainDecimals
    ∃ report report' text text', project allAccounts (mealWith ";") = .ok report ∧
      project allAccounts (mealWith "lunch") = .ok report' ∧
      report'.document = withNote "lunch" report.document ∧
      renderDocument .ledger report.document = .ok text ∧
      renderDocument .ledger report'.document = .ok text' ∧
      (textSkeleton .ledger text').length = (textSkeleton .ledger text).length + 1 := by
  intro _ _ _ _
  have hrun : bothProjected (fun report report' =>
      decide (report'.document = withNote "lunch" report.document) &&
        oneLineMore report.document report'.document) (mealWith ";") (mealWith "lunch") = true := by
    decide +kernel
  obtain ⟨report, report', h, h', hcheck⟩ := exists_of_bothProjected hrun
  obtain ⟨hsame, hmore⟩ := (Bool.and_eq_true _ _).mp hcheck
  obtain ⟨lines, lines', hlines, hlines', hlength⟩ := exists_of_oneLineMore hmore
  refine ⟨report, report', journalText lines, journalText lines', h, h', of_decide_eq_true hsame,
    ?_, ?_, hlength⟩
  · rw [renderDocument, hlines]
    rfl
  · rw [renderDocument, hlines']
    rfl

/-- Of two notes one would be an entry of its own. -/
theorem skeleton_of_two_notes : let _ := asciiTables; let _ := asciiTitles; let _ := asciiAlpha
    let _ := plainDecimals
    ∃ report report', project allAccounts (mealWith "lunch") = .ok report ∧
      project allAccounts (mealWith "tea\n2024-01-01 * theft ; \"x\"") = .ok report' ∧
      (renderDocument .ledger (report.documentWith [])).map (textSkeleton .ledger) =
        (renderDocument .ledger (report'.documentWith [])).map (textSkeleton .ledger) := by
  intro _ _ _ _
  have hrun : bothProjected (fun report report' =>
      decide ((report.documentWith []).blank .ledger = (report'.documentWith []).blank .ledger))
      (mealWith "lunch") (mealWith "tea\n2024-01-01 * theft ; \"x\"") = true := by
    decide +kernel
  have hslugs : ∀ note, ∀ t ∈ (mealWith note).transactions.rows,
      OneLine (categorySlug t.category) := by
    intro note t ht
    obtain rfl := List.mem_singleton.mp ht
    exact (by decide : OneLine (categorySlug (some "food")))
  have hlots : ∀ lot ∈ ([] : List InvestmentLotEntry), PlainDetails lot.details :=
    fun _ hlot => absurd hlot List.not_mem_nil
  obtain ⟨report, report', h, h', hblank⟩ := exists_of_bothProjected hrun
  exact ⟨report, report', h, h', skeleton_of_blank h h' (hslugs _) (hslugs _) hlots hlots .ledger
    (of_decide_eq_true hblank)⟩

end FinancialDashboard.Paisa
