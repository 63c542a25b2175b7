import FinancialDashboard.Investments.Consumption

/-!
# Stored lots

The lots of the uploads, as they are stored and filled in later (`create_investment_lots` and
`backfill_investment_lots` of `services/investments.py`, `InvestmentLot` of `db/models.py`).

A lot is inserted unless the upload already has a row with all its facts.  The facts of a lot
are those of the document, and those of a row what the numeric columns gave back.  A row that
has a reference is moreover the only one of its source identity and number.

* `createInvestmentLots_spec`: after a run, the lots of the document are stored.
* `of_backfill`: a backfill stores an upload's lots as a run on the upload alone does.
* `idempotent_iff`: when running again changes nothing.
-/

namespace FinancialDashboard.Investments

open PyText Rounding Numbering Posting

/-! ### The table -/

structure LotColumns where
  /-- `quantity` and `unit_cost`, `Numeric(20, 6)`. -/
  quantity : Column
  /-- `cost_basis`, `Numeric(18, 4)`. -/
  cost : Column

namespace LotColumns

variable (columns : LotColumns)

/-- The lot, as it is read back. -/
def stored (lot : CompleteLot) : CompleteLot :=
  { lot with
    quantity := columns.quantity.stored lot.quantity
    unitCost := columns.quantity.stored lot.unitCost
    costBasis := columns.cost.stored lot.costBasis }

/-- The columns hold all the lot's numbers. -/
def Holds (lot : CompleteLot) : Prop :=
  columns.quantity.Holds lot.quantity ∧ columns.quantity.Holds lot.unitCost ∧
    columns.cost.Holds lot.costBasis

instance : DecidablePred columns.Holds :=
  fun _ => inferInstanceAs (Decidable (_ ∧ _ ∧ _))

variable {columns} {lot : CompleteLot}

theorem stored_eq (h : columns.Holds lot) : columns.stored lot = lot := by
  obtain ⟨hquantity, hcost, hbasis⟩ := h
  rw [stored, hquantity, hcost, hbasis]

theorem holds_stored (lot : CompleteLot) : columns.Holds (columns.stored lot) :=
  ⟨columns.quantity.stored_stored _, columns.quantity.stored_stored _, columns.cost.stored_stored _⟩

end LotColumns

/-- A row; its facts are what the columns give back. -/
structure InvestmentLot extends CompleteLot where
  id : Nat
  casUploadId : Nat
  deriving DecidableEq, Repr

/-- The two rows may not both be there (`uq_investment_lot_natural`); a missing reference is
equal to none. -/
def InvestmentLot.Clashes (row other : InvestmentLot) : Prop :=
  row.casUploadId = other.casUploadId ∧ row.reference ≠ none ∧
    row.sourceIdentity = other.sourceIdentity ∧ row.sourceOccurrence = other.sourceOccurrence

instance : DecidableRel InvestmentLot.Clashes :=
  fun _ _ => inferInstanceAs (Decidable (_ ∧ _ ∧ _ ∧ _))

structure LotTable where
  rows : List InvestmentLot
  unique : rows.Pairwise fun row other => ¬ row.Clashes other

namespace LotTable

/-- No rows. -/
def empty : LotTable := ⟨[], .nil⟩

variable (table : LotTable)

/-- The rows of an upload. -/
def ofUpload (casUploadId : Nat) : List InvestmentLot :=
  table.rows.filter (·.casUploadId = casUploadId)

/-- `_persisted_lot_key` of the rows of an upload. -/
def keys (casUploadId : Nat) : List CompleteLot :=
  (table.ofUpload casUploadId).map (·.toCompleteLot)

def nextId : Nat := (table.rows.map (·.id)).foldr max 0 + 1

def insert (columns : LotColumns) (casUploadId : Nat) (lot : CompleteLot) :
    Except Raised LotTable :=
  let row : InvestmentLot := ⟨columns.stored lot, table.nextId, casUploadId⟩
  if h : ∀ other ∈ table.rows, ¬ other.Clashes row then
    .ok
      { rows := table.rows ++ [row]
        unique := List.pairwise_append.mpr ⟨table.unique, List.pairwise_singleton _ _,
          fun other hother _ hrow => List.mem_singleton.mp hrow ▸ h other hother⟩ }
  else .error .integrityError

variable {table} {columns : LotColumns} {casUploadId other : Nat} {lot : CompleteLot}
  {lots : List CompleteLot} {next : LotTable}

/-- What an insertion leaves. -/
theorem rows_of_insert (h : table.insert columns casUploadId lot = .ok next) :
    next.rows = table.rows ++ [⟨columns.stored lot, table.nextId, casUploadId⟩] := by
  unfold insert at h
  dsimp only at h
  split at h
  · rw [← Except.ok.inj h]
  · cases h

theorem keys_of_insert (h : table.insert columns casUploadId lot = .ok next) :
    next.keys casUploadId = table.keys casUploadId ++ [columns.stored lot] := by
  rw [keys, ofUpload, rows_of_insert h, List.filter_append, List.map_append,
    List.filter_singleton]
  simp [keys, ofUpload]

theorem ofUpload_of_insert (h : table.insert columns casUploadId lot = .ok next)
    (hne : other ≠ casUploadId) : next.ofUpload other = table.ofUpload other := by
  rw [ofUpload, rows_of_insert h, List.filter_append, List.filter_singleton]
  simp [ofUpload, hne.symm]

/-- The lots, one after the other. -/
def insertAll (columns : LotColumns) (casUploadId : Nat) (table : LotTable)
    (lots : List CompleteLot) : Except Raised LotTable :=
  lots.foldlM (fun table lot => table.insert columns casUploadId lot) table

theorem keys_of_insertAll (h : insertAll columns casUploadId table lots = .ok next) :
    next.keys casUploadId = table.keys casUploadId ++ lots.map columns.stored := by
  induction lots generalizing table with
  | nil =>
    rw [← Except.ok.inj h, List.map_nil, List.append_nil]
  | cons lot rest ih =>
    rw [insertAll, List.foldlM_cons] at h
    obtain ⟨mid, hmid, h⟩ := bind_eq_ok.mp h
    rw [ih h, keys_of_insert hmid, List.map_cons, List.append_assoc]
    rfl

theorem ofUpload_of_insertAll (h : insertAll columns casUploadId table lots = .ok next)
    (hne : other ≠ casUploadId) : next.ofUpload other = table.ofUpload other := by
  induction lots generalizing table with
  | nil => rw [← Except.ok.inj h]
  | cons lot rest ih =>
    rw [insertAll, List.foldlM_cons] at h
    obtain ⟨mid, hmid, h⟩ := bind_eq_ok.mp h
    rw [ih h, ofUpload_of_insert hmid hne]

theorem insert_error {raised : Raised}
    (h : table.insert columns casUploadId lot = .error raised) : raised = .integrityError := by
  unfold insert at h
  dsimp only at h
  split at h
  · cases h
  · exact (Except.error.inj h).symm

theorem insertAll_error {raised : Raised}
    (h : insertAll columns casUploadId table lots = .error raised) :
    raised = .integrityError := by
  induction lots generalizing table with
  | nil => cases h
  | cons lot rest ih =>
    rw [insertAll, List.foldlM_cons] at h
    rcases bind_eq_error.mp h with h | ⟨mid, -, h⟩
    · exact insert_error h
    · exact ih h

/-- An insertion takes place if no row of the upload has the lot's identity and number. -/
theorem exists_insert
    (h : ∀ key ∈ table.keys casUploadId, (key.sourceIdentity, key.sourceOccurrence) ≠
      (lot.sourceIdentity, lot.sourceOccurrence)) :
    ∃ next, table.insert columns casUploadId lot = .ok next := by
  refine ⟨_, dif_pos fun row hrow hclash => ?_⟩
  obtain ⟨hupload, -, hidentity, hnumber⟩ := hclash
  have hkey : row.toCompleteLot ∈ table.keys casUploadId :=
    List.mem_map_of_mem (List.mem_filter.mpr ⟨hrow, decide_eq_true hupload⟩)
  exact h _ hkey (Prod.ext hidentity hnumber)

theorem exists_insertAll
    (hnodup : (lots.map fun lot => (lot.sourceIdentity, lot.sourceOccurrence)).Nodup)
    (h : ∀ key ∈ table.keys casUploadId, ∀ lot ∈ lots, (key.sourceIdentity,
      key.sourceOccurrence) ≠ (lot.sourceIdentity, lot.sourceOccurrence)) :
    ∃ next, insertAll columns casUploadId table lots = .ok next := by
  induction lots generalizing table with
  | nil => exact ⟨table, rfl⟩
  | cons lot rest ih =>
    rw [List.map_cons, List.nodup_cons] at hnodup
    obtain ⟨mid, hmid⟩ : ∃ mid, table.insert columns casUploadId lot = .ok mid := exists_insert
      fun key hkey => h key hkey lot List.mem_cons_self
    have hrest : ∀ key ∈ mid.keys casUploadId, ∀ later ∈ rest, (key.sourceIdentity,
        key.sourceOccurrence) ≠ (later.sourceIdentity, later.sourceOccurrence) := by
      intro key hkey later hlater heq
      rw [keys_of_insert hmid] at hkey
      rcases List.mem_append.mp hkey with hkey | hkey
      · exact h key hkey later (List.mem_cons_of_mem _ hlater) heq
      · rw [List.mem_singleton.mp hkey] at heq
        exact hnodup.1 (List.mem_map.mpr ⟨later, hlater, heq.symm⟩)
    obtain ⟨next, hnext⟩ := ih hnodup.2 hrest
    refine ⟨next, ?_⟩
    rw [insertAll, List.foldlM_cons]
    exact bind_eq_ok.mpr ⟨mid, hmid, hnext⟩

end LotTable

/-! ### The lots of an upload -/

/-- The lots that are not there yet. -/
def absent (existing : List CompleteLot) : List CompleteLot → List CompleteLot
  | [] => []
  | lot :: rest =>
    if lot ∈ existing then absent existing rest else lot :: absent (lot :: existing) rest

/-- `CreateInvestmentLotsResult`, and the table. -/
structure Creation where
  table : LotTable
  created : Nat
  exclusions : List LotExclusion

/-- An upload; the payload is `none` where the document is not that of an object. -/
structure CasUpload where
  id : Nat
  portfolioKey : String
  statementDate : Int
  depositorySource : String
  payload : Option Payload
  deriving DecidableEq, Repr

/-- `LotBackfillResult`, and the table. -/
structure Backfill where
  table : LotTable
  uploadsScanned : Nat
  lotsCreated : Nat
  malformedUploadIds : List Nat

/-- The errors for which the backfill skips an upload. -/
def Raised.isMalformed : Raised → Bool
  | invalidOperation | valueError | typeError => true
  | overflowError | integrityError => false

section

variable [UnicodeTables] [CasReaders] (columns : LotColumns) (today : Int)

/-- `create_investment_lots`. -/
def createInvestmentLots (table : LotTable) (casUploadId : Nat) (payload : Payload) :
    Except Raised Creation := do
  let result ← extractLotsFromPayload today payload
  let new := absent (table.keys casUploadId) result.lots
  let table ← LotTable.insertAll columns casUploadId table new
  .ok { table := table, created := new.length, exclusions := result.exclusions }

def backfillUpload (state : Backfill) (upload : CasUpload) : Except Raised Backfill :=
  let skipped := { state with malformedUploadIds := state.malformedUploadIds ++ [upload.id] }
  match upload.payload with
  | none => .ok skipped
  | some payload =>
    match createInvestmentLots columns today state.table upload.id payload with
    | .ok creation =>
      .ok { state with
        table := creation.table
        lotsCreated := state.lotsCreated + creation.created }
    | .error raised => if raised.isMalformed then .ok skipped else .error raised

/-- `backfill_investment_lots`. -/
def backfillInvestmentLots (uploads : List CasUpload) (table : LotTable) :
    Except Raised Backfill :=
  (uploads.insertionSort (·.id ≤ ·.id)).foldlM (backfillUpload columns today)
    ⟨table, uploads.length, 0, []⟩

end

/-! ### What a run leaves -/

section

variable {existing lots : List CompleteLot} {lot : CompleteLot}

theorem absent_eq_nil (h : ∀ lot ∈ lots, lot ∈ existing) : absent existing lots = [] := by
  induction lots with
  | nil => rfl
  | cons lot rest ih =>
    rw [absent, if_pos (h lot List.mem_cons_self)]
    exact ih fun later hlater => h later (List.mem_cons_of_mem _ hlater)

theorem mem_of_absent_eq_nil (h : absent existing lots = []) (hlot : lot ∈ lots) :
    lot ∈ existing := by
  induction lots with
  | nil => cases hlot
  | cons first rest ih =>
    rw [absent] at h
    split_ifs at h with hmem
    rcases List.mem_cons.mp hlot with rfl | hlot
    · exact hmem
    · exact ih h hlot

theorem absent_of_disjoint (hnodup : lots.Nodup) (h : ∀ lot ∈ lots, lot ∉ existing) :
    absent existing lots = lots := by
  induction lots generalizing existing with
  | nil => rfl
  | cons lot rest ih =>
    obtain ⟨hlot, hrest⟩ := List.nodup_cons.mp hnodup
    rw [absent, if_neg (h lot List.mem_cons_self)]
    refine congrArg (lot :: ·) (ih hrest fun later hlater hmem => ?_)
    rcases List.mem_cons.mp hmem with rfl | hmem
    · exact hlot hlater
    · exact h later (List.mem_cons_of_mem _ hlater) hmem

/-- Each lot is there or absent. -/
theorem mem_or_mem_absent (hlot : lot ∈ lots) : lot ∈ existing ∨ lot ∈ absent existing lots := by
  induction lots generalizing existing with
  | nil => cases hlot
  | cons first rest ih =>
    rw [absent]
    by_cases hfirst : first ∈ existing
    · rw [if_pos hfirst]
      rcases List.mem_cons.mp hlot with rfl | hlot
      · exact .inl hfirst
      · exact ih hlot
    · rw [if_neg hfirst]
      rcases List.mem_cons.mp hlot with rfl | hlot
      · exact .inr List.mem_cons_self
      · rcases @ih (first :: existing) hlot with hmem | hmem
        · rcases List.mem_cons.mp hmem with rfl | hmem
          · exact .inr List.mem_cons_self
          · exact .inl hmem
        · exact .inr (List.mem_cons_of_mem _ hmem)

end

section

variable [UnicodeTables] [CasReaders] {columns : LotColumns} {today : Int} {table : LotTable}
  {casUploadId other : Nat} {payload : Payload} {creation : Creation}
  {result : LotExtractionResult}

/-- What is known of a run on an upload. -/
structure Created (columns : LotColumns) (table : LotTable) (casUploadId : Nat)
    (result : LotExtractionResult) (creation : Creation) : Prop where
  keys : creation.table.keys casUploadId = table.keys casUploadId ++
    (absent (table.keys casUploadId) result.lots).map columns.stored
  frame : ∀ other ≠ casUploadId, creation.table.ofUpload other = table.ofUpload other
  created : creation.created = (absent (table.keys casUploadId) result.lots).length

theorem createInvestmentLots_spec
    (h : createInvestmentLots columns today table casUploadId payload = .ok creation) :
    ∃ result, extractLotsFromPayload today payload = .ok result ∧
      Created columns table casUploadId result creation := by
  obtain ⟨result, hresult, h⟩ := bind_eq_ok.mp h
  obtain ⟨next, hnext, h⟩ := bind_eq_ok.mp h
  obtain rfl := Except.ok.inj h
  exact ⟨result, hresult, LotTable.keys_of_insertAll hnext,
    fun other hne => LotTable.ofUpload_of_insertAll hnext hne, rfl⟩

omit [UnicodeTables] [CasReaders] in
/-- **A lot of the document that the columns hold is stored.** -/
theorem Created.mem_keys (h : Created columns table casUploadId result creation)
    {lot : CompleteLot} (hlot : lot ∈ result.lots) (hholds : columns.Holds lot) :
    lot ∈ creation.table.keys casUploadId := by
  rw [h.keys, List.mem_append]
  have hcases : lot ∈ table.keys casUploadId ∨ lot ∈ absent (table.keys casUploadId) result.lots :=
    mem_or_mem_absent hlot
  rcases hcases with hmem | hmem
  · exact .inl hmem
  · exact .inr (List.mem_map.mpr ⟨lot, hmem, LotColumns.stored_eq hholds⟩)

/-- A run that finds all its lots inserts nothing. -/
theorem createInvestmentLots_of_subset (hresult : extractLotsFromPayload today payload = .ok result)
    (h : ∀ lot ∈ result.lots, lot ∈ table.keys casUploadId) :
    createInvestmentLots columns today table casUploadId payload =
      .ok ⟨table, 0, result.exclusions⟩ := by
  refine bind_eq_ok.mpr ⟨result, hresult, ?_⟩
  rw [absent_eq_nil h]
  rfl

/-- The first run on an empty table inserts all lots. -/
theorem createInvestmentLots_empty (hresult : extractLotsFromPayload today payload = .ok result) :
    ∃ creation, createInvestmentLots columns today .empty casUploadId payload = .ok creation ∧
      creation.table.keys casUploadId = result.lots.map columns.stored := by
  have hnodup := nodup_sourceKeys hresult
  have habsent : absent (LotTable.empty.keys casUploadId) result.lots = result.lots :=
    absent_of_disjoint hnodup.of_map fun _ _ => List.not_mem_nil
  obtain ⟨next, hnext⟩ : ∃ next, LotTable.insertAll columns casUploadId .empty result.lots =
      .ok next :=
    LotTable.exists_insertAll hnodup fun key hkey => absurd hkey List.not_mem_nil
  have hrun : createInvestmentLots columns today .empty casUploadId payload =
      .ok ⟨next, result.lots.length, result.exclusions⟩ := by
    refine bind_eq_ok.mpr ⟨result, hresult, ?_⟩
    rw [habsent]
    exact bind_eq_ok.mpr ⟨next, hnext, rfl⟩
  exact ⟨_, hrun, LotTable.keys_of_insertAll hnext⟩

/-- A document that can be read is refused by the table only. -/
theorem createInvestmentLots_error {raised : Raised}
    (hresult : extractLotsFromPayload today payload = .ok result)
    (h : createInvestmentLots columns today table casUploadId payload = .error raised) :
    raised = .integrityError := by
  rcases bind_eq_error.mp h with h | ⟨read, -, h⟩
  · rw [hresult] at h
    cases h
  · rcases bind_eq_error.mp h with h | ⟨next, -, h⟩
    · exact LotTable.insertAll_error h
    · cases h

end

/-! ### Running again -/

section

variable [UnicodeTables] [CasReaders] {columns : LotColumns} {today : Int}
  {casUploadId : Nat} {payload : Payload}

/-- A run on an upload: on its own, or in a backfill. -/
inductive Ran (columns : LotColumns) (today : Int) (casUploadId : Nat) (payload : Payload) :
    LotTable → LotTable → Prop
  | create {table : LotTable} {creation : Creation}
      (run : createInvestmentLots columns today table casUploadId payload = .ok creation) :
      Ran columns today casUploadId payload table creation.table
  | backfill {uploads : List CasUpload} {upload : CasUpload} {table : LotTable} {state : Backfill}
      (nodup_ids : (uploads.map (·.id)).Nodup) (mem : upload ∈ uploads)
      (id : upload.id = casUploadId) (decoded : upload.payload = some payload)
      (run : backfillInvestmentLots columns today uploads table = .ok state) :
      Ran columns today casUploadId payload table state.table

variable {table next : LotTable} {result : LotExtractionResult} {upload : CasUpload}
  {uploads : List CasUpload} {before after : Backfill}

/-- An upload in the backfill touches no rows but its own. -/
theorem ofUpload_of_backfillUpload (h : backfillUpload columns today before upload = .ok after)
    (hne : upload.id ≠ casUploadId) :
    after.table.ofUpload casUploadId = before.table.ofUpload casUploadId := by
  unfold backfillUpload at h
  dsimp only at h
  split at h
  · rw [← Except.ok.inj h]
  · split at h
    · rename_i creation hcreate
      obtain ⟨result, -, hcreated⟩ := createInvestmentLots_spec hcreate
      rw [← Except.ok.inj h]
      exact hcreated.frame casUploadId hne.symm
    · split_ifs at h
      rw [← Except.ok.inj h]

theorem ofUpload_of_foldlM (h : uploads.foldlM (backfillUpload columns today) before = .ok after)
    (hne : ∀ upload ∈ uploads, upload.id ≠ casUploadId) :
    after.table.ofUpload casUploadId = before.table.ofUpload casUploadId := by
  induction uploads generalizing before with
  | nil => rw [← Except.ok.inj h]
  | cons upload rest ih =>
    rw [List.foldlM_cons] at h
    obtain ⟨mid, hmid, h⟩ := bind_eq_ok.mp h
    rw [ih h fun later hlater => hne later (List.mem_cons_of_mem _ hlater),
      ofUpload_of_backfillUpload hmid (hne upload List.mem_cons_self)]

/-- The backfill runs on an upload that it can read. -/
theorem backfillUpload_run (h : backfillUpload columns today before upload = .ok after)
    (hdecoded : upload.payload = some payload)
    (hresult : extractLotsFromPayload today payload = .ok result) :
    ∃ creation, createInvestmentLots columns today before.table upload.id payload = .ok creation ∧
      after.table = creation.table := by
  unfold backfillUpload at h
  rw [hdecoded] at h
  dsimp only at h
  cases hcreate : createInvestmentLots columns today before.table upload.id payload with
  | ok creation =>
    rw [hcreate] at h
    exact ⟨creation, rfl, by rw [← Except.ok.inj h]⟩
  | error raised =>
    rw [hcreate, createInvestmentLots_error hresult hcreate] at h
    cases h

/-- **A backfill is for each upload a run on it alone.** -/
theorem Ran.exists_create (h : Ran columns today casUploadId payload table next)
    (hresult : extractLotsFromPayload today payload = .ok result) :
    ∃ mid creation, mid.ofUpload casUploadId = table.ofUpload casUploadId ∧
      createInvestmentLots columns today mid casUploadId payload = .ok creation ∧
      next.ofUpload casUploadId = creation.table.ofUpload casUploadId := by
  cases h with
  | @create _ creation run => exact ⟨table, creation, rfl, run, rfl⟩
  | @backfill uploads upload _ state nodup_ids mem id decoded run =>
    have hperm := List.perm_insertionSort (fun a b : CasUpload => a.id ≤ b.id) uploads
    obtain ⟨earlier, later, hsplit⟩ := List.append_of_mem (hperm.mem_iff.mpr mem)
    have hnodup : ((earlier ++ upload :: later).map (·.id)).Nodup :=
      hsplit ▸ (hperm.map _).nodup_iff.mpr nodup_ids
    have hothers : ∀ other ∈ earlier ++ later, other.id ≠ casUploadId := by
      rw [List.map_append, List.map_cons, List.nodup_middle, ← List.map_append] at hnodup
      intro other hother heq
      exact (List.nodup_cons.mp hnodup).1 (id.trans heq.symm ▸ List.mem_map_of_mem hother)
    rw [backfillInvestmentLots, hsplit, List.foldlM_append] at run
    obtain ⟨reached, hreached, run⟩ := bind_eq_ok.mp run
    rw [List.foldlM_cons] at run
    obtain ⟨left, hleft, run⟩ := bind_eq_ok.mp run
    obtain ⟨creation, hcreate, htable⟩ := backfillUpload_run hleft decoded hresult
    refine ⟨reached.table, creation, ?_, id ▸ hcreate, ?_⟩
    · exact ofUpload_of_foldlM hreached fun other hother =>
        hothers other (List.mem_append_left _ hother)
    · rw [← htable]
      exact ofUpload_of_foldlM run fun other hother =>
        hothers other (List.mem_append_right _ hother)

/-- A run that finds all its lots leaves the rows of the upload. -/
theorem Ran.ofUpload_eq (h : Ran columns today casUploadId payload table next)
    (hresult : extractLotsFromPayload today payload = .ok result)
    (hlots : ∀ lot ∈ result.lots, lot ∈ table.keys casUploadId) :
    next.ofUpload casUploadId = table.ofUpload casUploadId := by
  obtain ⟨mid, creation, hmid, hcreate, hnext⟩ := h.exists_create hresult
  have hkeys : mid.keys casUploadId = table.keys casUploadId := by
    rw [LotTable.keys, hmid, LotTable.keys]
  rw [createInvestmentLots_of_subset hresult (hkeys ▸ hlots)] at hcreate
  rw [hnext, ← Except.ok.inj hcreate, hmid]

/-- After a run, the lots that the columns hold are stored. -/
theorem Ran.mem_keys (h : Ran columns today casUploadId payload table next)
    (hresult : extractLotsFromPayload today payload = .ok result) {lot : CompleteLot}
    (hlot : lot ∈ result.lots) (hholds : columns.Holds lot) : lot ∈ next.keys casUploadId := by
  obtain ⟨mid, creation, -, hcreate, hnext⟩ := h.exists_create hresult
  obtain ⟨read, hread, hcreated⟩ := createInvestmentLots_spec hcreate
  obtain rfl := Except.ok.inj (hread.symm.trans hresult)
  rw [LotTable.keys, hnext]
  exact hcreated.mem_keys hlot hholds

variable (columns payload)

/-- Once a run has read the document, a run on the same or on a later day inserts nothing.  A
run on the upload alone moreover says so. -/
def Idempotent : Prop :=
  ∀ casUploadId today later result before table, today ≤ later →
    extractLotsFromPayload today payload = .ok result →
    Ran columns today casUploadId payload before table →
    (∃ creation, createInvestmentLots columns later table casUploadId payload = .ok creation ∧
      creation.created = 0 ∧ creation.table = table) ∧
    ∀ next, Ran columns later casUploadId payload table next →
      next.ofUpload casUploadId = table.ofUpload casUploadId

/-- The columns hold the lots of the document, and once it is read it is read on a later day
to lots it was read to. -/
structure Steady : Prop where
  held : ∀ today result, extractLotsFromPayload today payload = .ok result →
    ∀ lot ∈ result.lots, columns.Holds lot
  dated : ∀ today later result, today ≤ later →
    extractLotsFromPayload today payload = .ok result →
    ∃ again, extractLotsFromPayload later payload = .ok again ∧
      ∀ lot ∈ again.lots, lot ∈ result.lots

variable {columns payload}

theorem Steady.idempotent (h : Steady columns payload) : Idempotent columns payload := by
  intro casUploadId today later result before table hday hresult hran
  obtain ⟨again, hagain, hlots⟩ := h.dated today later result hday hresult
  have hstored : ∀ lot ∈ again.lots, lot ∈ table.keys casUploadId := fun lot hlot =>
    hran.mem_keys hresult (hlots lot hlot) (h.held today result hresult lot (hlots lot hlot))
  exact ⟨⟨_, createInvestmentLots_of_subset hagain hstored, rfl, rfl⟩,
    fun next hnext => hnext.ofUpload_eq hagain hstored⟩

/-- What a run on an empty table stores is what later runs may find. -/
theorem Idempotent.exists_again (h : Idempotent columns payload) {later : Int}
    (hday : today ≤ later) (hresult : extractLotsFromPayload today payload = .ok result) :
    ∃ again, extractLotsFromPayload later payload = .ok again ∧
      ∀ lot ∈ again.lots, lot ∈ result.lots.map columns.stored := by
  obtain ⟨first, hfirst, hkeys⟩ : ∃ first, createInvestmentLots columns today .empty 0 payload =
      .ok first ∧ first.table.keys 0 = result.lots.map columns.stored :=
    createInvestmentLots_empty hresult
  obtain ⟨⟨second, hsecond, hcreated, -⟩, -⟩ :=
    h 0 today later result .empty first.table hday hresult (.create hfirst)
  obtain ⟨again, hagain, hspec⟩ := createInvestmentLots_spec hsecond
  have hnone : absent (first.table.keys 0) again.lots = [] :=
    List.length_eq_zero_iff.mp (hspec.created.symm.trans hcreated)
  exact ⟨again, hagain, fun lot hlot => hkeys ▸ mem_of_absent_eq_nil hnone hlot⟩

theorem Idempotent.steady (h : Idempotent columns payload) : Steady columns payload := by
  have hheld : ∀ today result, extractLotsFromPayload today payload = .ok result →
      ∀ lot ∈ result.lots, columns.Holds lot := by
    intro today result hresult lot hlot
    obtain ⟨again, hagain, hlots⟩ := h.exists_again (le_refl today) hresult
    obtain rfl := Except.ok.inj (hagain.symm.trans hresult)
    obtain ⟨read, -, rfl⟩ := List.mem_map.mp (hlots lot hlot)
    exact LotColumns.holds_stored read
  refine ⟨hheld, fun today later result hday hresult => ?_⟩
  obtain ⟨again, hagain, hlots⟩ := h.exists_again hday hresult
  refine ⟨again, hagain, fun lot hlot => ?_⟩
  obtain ⟨read, hread, rfl⟩ := List.mem_map.mp (hlots lot hlot)
  rwa [LotColumns.stored_eq (hheld today result hresult read hread)]

end

/-- **Running again inserts nothing if and only if the columns hold the lots and the days read
the same ones.** -/
theorem idempotent_iff [UnicodeTables] [CasReaders] (columns : LotColumns) (payload : Payload) :
    Idempotent columns payload ↔ Steady columns payload :=
  ⟨Idempotent.steady, Steady.idempotent⟩

/-! ### Seven decimal places -/

/-- The columns, where all numbers are exact. -/
def roundedColumns : LotColumns := ⟨fixedPoint 6, fixedPoint 4⟩

/-- A purchase of seven decimal places that has no reference. -/
def finePurchase : RawTransaction :=
  { purchase "10.1234567" "10" "101.23" with reference := .null }

/-- The second run inserts the lot once more. -/
theorem not_idempotent :
    let _ := asciiTables
    let _ := plainCasReaders
    ∃ first second,
      createInvestmentLots roundedColumns 739726 .empty 1 (document [finePurchase]) = .ok first ∧
      createInvestmentLots roundedColumns 739726 first.table 1 (document [finePurchase]) =
        .ok second ∧
      second.created = 1 ∧ (second.table.ofUpload 1).length = 2 ∧
      ¬ Idempotent roundedColumns (document [finePurchase]) := by
  intro _ _
  have hview : (createInvestmentLots roundedColumns 739726 .empty 1 (document [finePurchase]) >>=
      fun first => (createInvestmentLots roundedColumns 739726 first.table 1
        (document [finePurchase])).map fun second =>
          (second.created, (second.table.ofUpload 1).length)) = .ok (1, 2) := by decide +kernel
  obtain ⟨first, hfirst, hview⟩ := bind_eq_ok.mp hview
  obtain ⟨second, hsecond, hview⟩ := map_eq_ok.mp hview
  obtain ⟨hcreated, hrows⟩ := Prod.mk.inj hview
  refine ⟨first, second, hfirst, hsecond, hcreated, hrows, fun h => ?_⟩
  obtain ⟨result, hresult, -⟩ := createInvestmentLots_spec hfirst
  obtain ⟨⟨again, hagain, hnone, -⟩, -⟩ :=
    h 1 739726 739726 result .empty first.table (le_refl _) hresult (.create hfirst)
  obtain rfl := Except.ok.inj (hagain.symm.trans hsecond)
  exact absurd (hnone.symm.trans hcreated) (by decide)

end FinancialDashboard.Investments
