import FinancialDashboard.Investments.Ingest
import FinancialDashboard.Lib.UnitOfWork

/-!
# What the ingests leave on record

The tables after any sequence of ingests, with the snapshots of accounts and manual items
written between them.

`Linked` says that the rows refer to rows that are there; `Recorded` moreover that the
uploads are those last accepted.  Each deletion of an upload keeps the tables linked, since
it takes with it everything that refers to the upload; an ingest puts one upload in its place.

* `linked_removeUpload`, `replace_spec`: the two halves of an ingest.
* `onRecord_iff`: `Recorded`, counted in rows.
* `ingests_onRecord`: after any sequence of ingests there is one upload and one snapshot for
  each portfolio and date, with the total accepted last; and a refusal writes nothing.
-/

namespace FinancialDashboard.Investments

open PyText Rounding Posting Networth

/-! ### Linked tables -/

/-- The rows refer to rows that are there. -/
structure Linked (t : IngestTables) : Prop where
  snapshotOf : ∀ u ∈ t.uploads, ∃ s ∈ t.snapshots, s.casUploadId = some u.id ∧
    s.portfolioKey = some u.portfolioKey ∧ s.asOfDate = u.statementDate ∧ s.value = u.grandTotal
  uploadOf : ∀ s ∈ t.snapshots, ∀ id, s.casUploadId = some id → ∃ u ∈ t.uploads, u.id = id ∧
    s.portfolioKey = some u.portfolioKey ∧ s.asOfDate = u.statementDate
  holding : ∀ h ∈ t.holdings, ∃ s ∈ t.snapshots, s.id = h.snapshotId ∧ s.isCas = true
  lot : ∀ l ∈ t.lots.rows, ∃ u ∈ t.uploads, u.id = l.casUploadId

/-- The tables are linked, and the uploads are those of the totals. -/
structure Recorded (total : String × Int → Option ℚ) (t : IngestTables) : Prop
    extends Linked t where
  total_iff : ∀ key x, total key = some x ↔ ∃ u ∈ t.uploads, u.key = key ∧ u.grandTotal = x

variable {t t' c : IngestTables} {total : String × Int → Option ℚ}

theorem recorded_empty : Recorded (fun _ => none) IngestTables.empty where
  snapshotOf := fun _ h => absurd h List.not_mem_nil
  uploadOf := fun _ h => absurd h List.not_mem_nil
  holding := fun _ h => absurd h List.not_mem_nil
  lot := fun _ h => absurd h List.not_mem_nil
  total_iff := fun _ _ => iff_of_false nofun fun ⟨_, h, _⟩ => absurd h List.not_mem_nil

/-! ### Deleting an upload -/

theorem mem_removeUpload_uploads {u v : UploadRow} :
    v ∈ (removeUpload t u).uploads ↔ v ∈ t.uploads ∧ v.id ≠ u.id := by
  show v ∈ t.uploads.delete _ ↔ _
  rw [Table.mem_delete, decide_eq_false_iff_not]

theorem mem_removeUpload_snapshots {u : UploadRow} {s : BalanceSnapshot} :
    s ∈ (removeUpload t u).snapshots ↔ s ∈ t.snapshots ∧ s.casUploadId ≠ some u.id := by
  show s ∈ t.snapshots.delete _ ↔ _
  rw [Table.mem_delete, decide_eq_false_iff_not]

/-- What is deleted with an upload is what refers to it. -/
theorem linked_removeUpload (h : Linked t) (u : UploadRow) : Linked (removeUpload t u) where
  snapshotOf v hv := by
    obtain ⟨hv, hne⟩ := mem_removeUpload_uploads.mp hv
    obtain ⟨s, hs, hcas, hrest⟩ := h.snapshotOf v hv
    refine ⟨s, mem_removeUpload_snapshots.mpr ⟨hs, ?_⟩, hcas, hrest⟩
    rw [hcas]
    exact fun heq => hne (Option.some.inj heq)
  uploadOf s hs id hcas := by
    obtain ⟨hs, hne⟩ := mem_removeUpload_snapshots.mp hs
    obtain ⟨v, hv, hid, hrest⟩ := h.uploadOf s hs id hcas
    refine ⟨v, mem_removeUpload_uploads.mpr ⟨hv, fun heq => hne ?_⟩, hid, hrest⟩
    rw [hcas, ← hid, heq]
  holding g hg := by
    obtain ⟨hg, hkept⟩ := Table.mem_delete.mp hg
    obtain ⟨s, hs, hid, hcas⟩ := h.holding g hg
    refine ⟨s, mem_removeUpload_snapshots.mpr ⟨hs, fun heq => ?_⟩, hid, hcas⟩
    refine of_decide_eq_false hkept (List.mem_map.mpr ⟨s, ?_, hid⟩)
    exact List.mem_filter.mpr ⟨hs, decide_eq_true heq⟩
  lot l hl := by
    obtain ⟨hl, hkept⟩ := List.mem_filter.mp hl
    obtain ⟨v, hv, hid⟩ := h.lot l hl
    refine ⟨v, mem_removeUpload_uploads.mpr ⟨hv, fun heq => ?_⟩, hid⟩
    exact of_decide_eq_true hkept (hid.symm.trans heq)

theorem linked_foldl_removeUpload (prior : List UploadRow) (h : Linked t) :
    Linked (prior.foldl removeUpload t) ∧
      ∀ v, v ∈ (prior.foldl removeUpload t).uploads ↔
        v ∈ t.uploads ∧ ∀ u ∈ prior, v.id ≠ u.id := by
  induction prior generalizing t with
  | nil => exact ⟨h, fun v => by simp⟩
  | cons u prior ih =>
    obtain ⟨hlinked, hmem⟩ := ih (linked_removeUpload h u)
    refine ⟨hlinked, fun v => (hmem v).trans ?_⟩
    rw [mem_removeUpload_uploads, List.forall_mem_cons, and_assoc]

/-- After the deletions no upload of the key is left, and all others are. -/
theorem mem_cleared {key : String × Int} (h : Linked t) (v : UploadRow) :
    v ∈ ((priorUploads t key).foldl removeUpload t).uploads ↔ v ∈ t.uploads ∧ v.key ≠ key := by
  rw [(linked_foldl_removeUpload _ h).2]
  refine and_congr_right fun hv => ?_
  constructor
  · intro hall heq
    exact hall v (List.mem_filter.mpr ⟨hv, decide_eq_true heq⟩) rfl
  · intro hne u hu heq
    obtain ⟨hu, hkey⟩ := List.mem_filter.mp hu
    exact hne (Table.eq_of_id_eq hv hu heq ▸ of_decide_eq_true hkey)

/-! ### Inserting one -/

theorem lift_eq_ok {α : Type} {x : Except Raised α} {b : α} (h : lift x t = .ok b t') :
    x = .ok b ∧ t' = t := by
  cases x with
  | ok b' =>
    obtain ⟨rfl, rfl⟩ := EStateM.Result.ok.inj h
    exact ⟨rfl, rfl⟩
  | error raised => cases h

theorem insertRow_eq_ok {α : Type} {schema : Schema α} {table : IngestTables → Table schema}
    {put : IngestTables → Table schema → IngestTables} {row : Table.NewRow schema} {inserted : α}
    (h : insertRow table put row t = .ok inserted t') :
    ∃ next, (table t).insert row = some next ∧ inserted = (table t).next row ∧ t' = put t next := by
  unfold insertRow at h
  split at h
  · rename_i next hinsert
    obtain ⟨rfl, rfl⟩ := EStateM.Result.ok.inj h
    exact ⟨next, hinsert, rfl, rfl⟩
  · cases h

theorem casUploadId_of_insertAll {columns : LotColumns} {lots : List CompleteLot}
    {table next : LotTable} {id : Nat}
    (h : LotTable.insertAll columns id table lots = .ok next) :
    ∀ l ∈ next.rows, l ∈ table.rows ∨ l.casUploadId = id := by
  induction lots generalizing table with
  | nil =>
    obtain rfl := Except.ok.inj h
    exact fun l hl => .inl hl
  | cons lot lots ih =>
    rw [LotTable.insertAll, List.foldlM_cons] at h
    obtain ⟨mid, hmid, h⟩ := bind_eq_ok.mp h
    intro l hl
    rcases ih h l hl with hl | hl
    · rw [LotTable.rows_of_insert hmid, List.mem_append, List.mem_singleton] at hl
      rcases hl with hl | rfl
      · exact .inl hl
      · exact .inr rfl
    · exact .inr hl

section

variable [UnicodeTables] [CasReaders] [StatementReaders] {columns : IngestColumns} {today : Int}
  {doc : CasDocument} {a : Admitted} {upload : UploadRow}

/-- The tables `t'` are `c` with the upload and its snapshot, and what refers to them. -/
structure Stored (c : IngestTables) (upload : UploadRow) (snapshot : BalanceSnapshot)
    (t' : IngestTables) : Prop where
  uploads : ∀ u, u ∈ t'.uploads ↔ u ∈ c.uploads ∨ u = upload
  snapshots : ∀ s, s ∈ t'.snapshots ↔ s ∈ c.snapshots ∨ s = snapshot
  holdings : ∀ h ∈ t'.holdings, h ∈ c.holdings ∨ h.snapshotId = snapshot.id
  lots : ∀ l ∈ t'.lots.rows, l ∈ c.lots.rows ∨ l.casUploadId = upload.id

omit [CasReaders] in
/-- The holdings of a snapshot are inserted; nothing else changes. -/
theorem insertHoldings_eq_ok {snapshotId : Nat} {items : List (String × ℚ)}
    (h : insertHoldings columns snapshotId items t = .ok () t') :
    ∃ holdings, t' = { t with holdings } ∧
      ∀ g ∈ holdings, g ∈ t.holdings ∨ g.snapshotId = snapshotId := by
  induction items generalizing t with
  | nil =>
    obtain ⟨-, rfl⟩ := EStateM.Result.ok.inj h
    exact ⟨t.holdings, rfl, fun _ hg => .inl hg⟩
  | cons item items ih =>
    obtain ⟨_, c, hitem, h⟩ := UnitOfWork.bind_eq_ok.mp h
    obtain ⟨_, hitem⟩ := UnitOfWork.discard_eq_ok.mp hitem
    obtain ⟨holdings, hinsert, rfl, rfl⟩ := insertRow_eq_ok hitem
    obtain ⟨holdings', rfl, hfrom⟩ := ih h
    refine ⟨holdings', rfl, fun g hg => ?_⟩
    rcases hfrom g hg with hg | hg
    · rcases (Table.mem_insert hinsert).mp hg with hg | rfl
      · exact .inl hg
      · exact .inr rfl
    · exact .inr hg

omit [StatementReaders] in
theorem insertLots_eq_ok {id : Nat} {payload : Payload}
    (h : insertLots columns today id payload t = .ok () t') :
    ∃ lots, t' = { t with lots } ∧ ∀ l ∈ lots.rows, l ∈ t.lots.rows ∨ l.casUploadId = id := by
  unfold insertLots at h
  split at h
  · rename_i creation hcreation
    obtain ⟨-, rfl⟩ := EStateM.Result.ok.inj h
    obtain ⟨result, -, hcreation⟩ := bind_eq_ok.mp hcreation
    obtain ⟨table, htable, hcreation⟩ := bind_eq_ok.mp hcreation
    obtain rfl := Except.ok.inj hcreation
    exact ⟨table, rfl, casUploadId_of_insertAll htable⟩
  · cases h

/-- **What an ingest leaves that is not refused**: the uploads before it are gone, and one of
its own is there. -/
theorem replace_spec (h : replaceUpload columns today doc a t = .ok upload t') :
    ∃ snapshot, Stored (a.prior.foldl removeUpload t) upload snapshot t' ∧
      upload.key = (doc.portfolioKey, a.statementDate) ∧
      upload.grandTotal = columns.money.stored a.grandTotal ∧
      snapshot.casUploadId = some upload.id ∧ snapshot.portfolioKey = some upload.portfolioKey ∧
      snapshot.asOfDate = upload.statementDate ∧ snapshot.value = upload.grandTotal := by
  obtain ⟨_, c, hc, h⟩ := UnitOfWork.bind_eq_ok.mp h
  obtain ⟨-, rfl⟩ := EStateM.Result.ok.inj hc
  obtain ⟨delta, _, hdelta, h⟩ := UnitOfWork.bind_eq_ok.mp h
  obtain ⟨-, rfl⟩ := lift_eq_ok hdelta
  obtain ⟨row, _, hrow, h⟩ := UnitOfWork.bind_eq_ok.mp h
  obtain ⟨uploads, huploads, rfl, rfl⟩ := insertRow_eq_ok hrow
  obtain ⟨snapshot, _, hsnapshot, h⟩ := UnitOfWork.bind_eq_ok.mp h
  obtain ⟨snapshots, hsnapshots, rfl, rfl⟩ := insertRow_eq_ok hsnapshot
  obtain ⟨classes, _, hclasses, h⟩ := UnitOfWork.bind_eq_ok.mp h
  obtain ⟨-, rfl⟩ := lift_eq_ok hclasses
  obtain ⟨_, _, hholdings, h⟩ := UnitOfWork.bind_eq_ok.mp h
  obtain ⟨holdings, rfl, hfromHoldings⟩ := insertHoldings_eq_ok hholdings
  obtain ⟨_, _, hlots, h⟩ := UnitOfWork.bind_eq_ok.mp h
  obtain ⟨lots, rfl, hfromLots⟩ := insertLots_eq_ok hlots
  obtain ⟨rfl, rfl⟩ := EStateM.Result.ok.inj h
  exact ⟨_,
    { uploads := fun u => Table.mem_insert huploads
      snapshots := fun s => Table.mem_insert hsnapshots
      holdings := hfromHoldings
      lots := hfromLots }, rfl, rfl, rfl, rfl, rfl, rfl⟩

omit [UnicodeTables] [CasReaders] [StatementReaders] in
/-- What is stored beside linked tables is linked, and the upload is the only one of its key. -/
theorem Stored.linked {snapshot : BalanceSnapshot} (h : Stored c upload snapshot t')
    (hc : Linked c) (hcas : snapshot.casUploadId = some upload.id)
    (hkey : snapshot.portfolioKey = some upload.portfolioKey)
    (hdate : snapshot.asOfDate = upload.statementDate)
    (hvalue : snapshot.value = upload.grandTotal) : Linked t' where
  snapshotOf u hu := by
    rcases (h.uploads u).mp hu with hu | rfl
    · obtain ⟨s, hs, hrest⟩ := hc.snapshotOf u hu
      exact ⟨s, (h.snapshots s).mpr (.inl hs), hrest⟩
    · exact ⟨snapshot, (h.snapshots _).mpr (.inr rfl), hcas, hkey, hdate, hvalue⟩
  uploadOf s hs id hid := by
    rcases (h.snapshots s).mp hs with hs | rfl
    · obtain ⟨u, hu, hrest⟩ := hc.uploadOf s hs id hid
      exact ⟨u, (h.uploads u).mpr (.inl hu), hrest⟩
    · exact ⟨upload, (h.uploads _).mpr (.inr rfl), Option.some.inj (hcas.symm.trans hid), hkey,
        hdate⟩
  holding g hg := by
    rcases h.holdings g hg with hg | hid
    · obtain ⟨s, hs, hrest⟩ := hc.holding g hg
      exact ⟨s, (h.snapshots s).mpr (.inl hs), hrest⟩
    · refine ⟨snapshot, (h.snapshots _).mpr (.inr rfl), hid.symm, ?_⟩
      rw [BalanceSnapshot.isCas, hcas]
      rfl
  lot l hl := by
    rcases h.lots l hl with hl | hid
    · obtain ⟨u, hu, hrest⟩ := hc.lot l hl
      exact ⟨u, (h.uploads u).mpr (.inl hu), hrest⟩
    · exact ⟨upload, (h.uploads _).mpr (.inr rfl), hid.symm⟩

/-! ### An ingest -/

/-- What is known of a statement that is admitted. -/
theorem admission_eq_ok {forceReplace : Bool} (h : admission today forceReplace doc t = .ok a) :
    doc.periodEnd today = .ok (some a.statementDate) ∧
      decimalOf doc.grandTotal = .ok a.grandTotal ∧
      a.prior = priorUploads t (doc.portfolioKey, a.statementDate) := by
  unfold admission at h
  split at h
  · cases h
  · split at h
    · cases h
    · split at h
      · cases h
      · cases h
      · rename_i statementDate hdate
        split at h
        · cases h
        · rename_i grandTotal htotal
          dsimp only at h
          split at h
          · cases h
          · obtain rfl := Except.ok.inj h
            exact ⟨hdate, htotal, rfl⟩

/-- The portfolio and date of a statement, and the total it would be stored with. -/
def CasDocument.facts (doc : CasDocument) (columns : IngestColumns) (today : Int) :
    Option ((String × Int) × ℚ) :=
  match doc.periodEnd today, decimalOf doc.grandTotal with
  | .ok (some statementDate), .ok grandTotal =>
    some ((doc.portfolioKey, statementDate), columns.money.stored grandTotal)
  | _, _ => none

/-- **An ingest that is accepted is recorded.** -/
theorem Recorded.ingest {forceReplace : Bool} (h : Recorded total t)
    (hingest : ingestCasPayload columns today forceReplace doc t = .ok upload t') :
    ∃ key x, doc.facts columns today = some (key, x) ∧
      Recorded (Function.update total key (some x)) t' := by
  unfold ingestCasPayload at hingest
  split at hingest
  · cases hingest
  · rename_i a hadmission
    obtain ⟨hdate, htotal, hprior⟩ := admission_eq_ok hadmission
    obtain ⟨snapshot, hstored, hkey, hgrand, hcas, hportfolio, hasOf, hvalue⟩ :=
      replace_spec hingest
    rw [hprior] at hstored
    refine ⟨(doc.portfolioKey, a.statementDate), columns.money.stored a.grandTotal, ?_,
      { toLinked := hstored.linked (linked_foldl_removeUpload _ h.toLinked).1 hcas hportfolio
          hasOf hvalue
        total_iff := fun key x => ?_ }⟩
    · rw [CasDocument.facts, hdate, htotal]
    · simp only [hstored.uploads, mem_cleared h.toLinked]
      by_cases hk : key = (doc.portfolioKey, a.statementDate)
      · subst hk
        rw [Function.update_self]
        constructor
        · intro hx
          exact ⟨upload, .inr rfl, hkey, hgrand.trans (Option.some.inj hx)⟩
        · rintro ⟨u, ⟨-, hne⟩ | rfl, hu, rfl⟩
          · exact absurd hu hne
          · rw [hgrand]
      · rw [Function.update_of_ne hk, h.total_iff]
        constructor
        · rintro ⟨u, hu, rfl, rfl⟩
          exact ⟨u, .inl ⟨hu, hk⟩, rfl, rfl⟩
        · rintro ⟨u, ⟨hu, -⟩ | rfl, rfl, rfl⟩
          · exact ⟨u, hu, rfl, rfl⟩
          · exact absurd hkey hk

/-! ### A refusal -/

/-- The writes may raise, but do not refuse. -/
def NeverRefuses {α : Type} (x : Session α) : Prop :=
  ∀ t refusal t', x t ≠ .error (.refused refusal) t'

omit [UnicodeTables] [CasReaders] [StatementReaders] in
theorem NeverRefuses.bind {α β : Type} {x : Session α} {f : α → Session β} (hx : NeverRefuses x)
    (hf : ∀ a, NeverRefuses (f a)) : NeverRefuses (x >>= f) := by
  intro t refusal t' h
  have h : EStateM.bind x f t = _ := h
  unfold EStateM.bind at h
  cases hxt : x t with
  | ok a c =>
    rw [hxt] at h
    exact hf a c refusal t' h
  | error e c =>
    rw [hxt] at h
    obtain ⟨rfl, rfl⟩ := EStateM.Result.error.inj h
    exact hx t _ _ hxt

omit [UnicodeTables] [CasReaders] [StatementReaders] in
theorem NeverRefuses.discard {α : Type} {x : Session α} (hx : NeverRefuses x) :
    NeverRefuses (discard x) := by
  intro t refusal t' h
  exact hx t refusal t' (UnitOfWork.discard_eq_error.mp h)

omit [UnicodeTables] [CasReaders] [StatementReaders] in
theorem neverRefuses_lift {α : Type} (x : Except Raised α) : NeverRefuses (lift x) := by
  intro t refusal t' h
  cases x with
  | ok a => cases h
  | error raised => cases h

omit [UnicodeTables] [CasReaders] [StatementReaders] in
theorem neverRefuses_insertRow {α : Type} {schema : Schema α}
    (table : IngestTables → Table schema) (put : IngestTables → Table schema → IngestTables)
    (row : Table.NewRow schema) : NeverRefuses (insertRow table put row) := by
  intro t refusal t' h
  unfold insertRow at h
  split at h
  · cases h
  · cases h

omit [CasReaders] in
theorem neverRefuses_insertHoldings (snapshotId : Nat) (items : List (String × ℚ)) :
    NeverRefuses (insertHoldings columns snapshotId items) := by
  induction items with
  | nil => exact fun t refusal t' h => by cases h
  | cons item items ih => exact (neverRefuses_insertRow _ _ _).discard.bind fun _ => ih

omit [StatementReaders] in
theorem neverRefuses_insertLots (id : Nat) (payload : Payload) :
    NeverRefuses (insertLots columns today id payload) := by
  intro t refusal t' h
  unfold insertLots at h
  split at h
  · cases h
  · cases h

theorem neverRefuses_replaceUpload (doc : CasDocument) (a : Admitted) :
    NeverRefuses (replaceUpload columns today doc a) := by
  refine NeverRefuses.bind (fun t refusal t' h => by cases h) fun _ => ?_
  refine (neverRefuses_lift _).bind fun _ => ?_
  refine (neverRefuses_insertRow _ _ _).bind fun upload => ?_
  refine (neverRefuses_insertRow _ _ _).bind fun snapshot => ?_
  refine (neverRefuses_lift _).bind fun classes => ?_
  refine (neverRefuses_insertHoldings _ _).bind fun _ => ?_
  exact (neverRefuses_insertLots _ _).bind fun _ => fun t refusal t' h => by cases h

/-- **A refusal has written nothing.** -/
theorem ingest_refused {forceReplace : Bool} {refusal : Refusal}
    (h : ingestCasPayload columns today forceReplace doc t = .error (.refused refusal) t') :
    t' = t := by
  unfold ingestCasPayload at h
  split at h
  · exact (EStateM.Result.error.inj h).2.symm
  · exact absurd h (neverRefuses_replaceUpload _ _ _ _ _)

/-- The total or the date is missing, or a statement of the other depository would be lost. -/
def Refusable (today : Int) (forceReplace : Bool) (doc : CasDocument) (t : IngestTables) : Prop :=
  doc.grandTotal = .null ∨ doc.statementPeriodEnd.orEmpty = "" ∨
    doc.periodEnd today = .ok none ∨
    forceReplace = false ∧ doc.depositorySource = "cdsl" ∧ ∃ statementDate,
      doc.periodEnd today = .ok (some statementDate) ∧
      ∃ u ∈ priorUploads t (doc.portfolioKey, statementDate), u.depositorySource = "nsdl"

/-- Such a statement is not admitted. -/
theorem ingest_refusable {forceReplace : Bool} (h : Refusable today forceReplace doc t) :
    ∃ e, ingestCasPayload columns today forceReplace doc t = .error e t := by
  cases hadmission : admission today forceReplace doc t with
  | error e => exact ⟨e, by rw [ingestCasPayload, hadmission]⟩
  | ok a =>
    obtain ⟨hdate, -, hprior⟩ := admission_eq_ok hadmission
    unfold admission at hadmission
    split at hadmission
    · cases hadmission
    · rename_i htotal
      split at hadmission
      · cases hadmission
      · rename_i hend
        rcases h with h | h | h | ⟨hforce, hcdsl, statementDate, hperiod, u, hu, hnsdl⟩
        · exact absurd h htotal
        · exact absurd h hend
        · rw [hdate] at h
          cases h
        · rw [hperiod] at hadmission
          dsimp only at hadmission
          split at hadmission
          · cases hadmission
          · rw [if_pos ⟨hforce, List.any_eq_true.mpr ⟨u, hu, decide_eq_true ⟨hnsdl, hcdsl⟩⟩⟩]
              at hadmission
            cases hadmission

end

/-! ### What is on record -/

/-- The snapshot is that of a statement of the portfolio and date. -/
def ofKey (key : String × Int) (s : BalanceSnapshot) : Bool :=
  s.isCas && decide (s.portfolioKey = some key.1 ∧ s.asOfDate = key.2)

/-- There is one upload and one snapshot for each total, and none for another portfolio or
date; what refers to an upload refers to one that is there. -/
structure OnRecord (total : String × Int → Option ℚ) (t : IngestTables) : Prop where
  stored : ∀ key x, total key = some x → ∃ upload snapshot,
    priorUploads t key = [upload] ∧ t.snapshots.rows.filter (ofKey key) = [snapshot] ∧
      upload.grandTotal = x ∧ snapshot.casUploadId = some upload.id ∧ snapshot.value = x
  absent : ∀ key, total key = none →
    priorUploads t key = [] ∧ t.snapshots.rows.filter (ofKey key) = []
  snapshot : ∀ s ∈ t.snapshots, ∀ id, s.casUploadId = some id → ∃ u ∈ t.uploads, u.id = id ∧
    s.portfolioKey = some u.portfolioKey ∧ s.asOfDate = u.statementDate
  holding : ∀ h ∈ t.holdings, ∃ s ∈ t.snapshots, ∃ u ∈ t.uploads,
    s.id = h.snapshotId ∧ s.casUploadId = some u.id
  lot : ∀ l ∈ t.lots.rows, ∃ u ∈ t.uploads, u.id = l.casUploadId

theorem ofKey_iff {key : String × Int} {s : BalanceSnapshot} : ofKey key s = true ↔
    s.isCas = true ∧ s.portfolioKey = some key.1 ∧ s.asOfDate = key.2 := by
  rw [ofKey, Bool.and_eq_true, decide_eq_true_eq]

theorem mem_priorUploads {key : String × Int} {u : UploadRow} :
    u ∈ priorUploads t key ↔ u ∈ t.uploads ∧ u.key = key := by
  rw [priorUploads, List.mem_filter, decide_eq_true_eq]
  exact Iff.rfl

/-- Two snapshots of statements of one portfolio and date are one. -/
theorem eq_of_ofKey {key : String × Int} {s r : BalanceSnapshot} (hs : s ∈ t.snapshots)
    (hr : r ∈ t.snapshots) (hsk : ofKey key s = true) (hrk : ofKey key r = true) : s = r := by
  obtain ⟨hscas, hskey, hsdate⟩ := ofKey_iff.mp hsk
  obtain ⟨hrcas, hrkey, hrdate⟩ := ofKey_iff.mp hrk
  refine Table.eq_of_clashes (fun _ _ => clashes_comm.mp) hs hr (.inr (.inl ⟨?_, ?_, ?_, ?_⟩))
  · rw [hskey]
    exact Option.some_ne_none _
  · rw [hskey, hrkey]
  · rw [s.investmentOfCas.mpr hscas, r.investmentOfCas.mpr hrcas]
  · rw [hsdate, hrdate]

/-- **Linked tables, counted in rows.** -/
theorem onRecord_iff : OnRecord total t ↔ Recorded total t := by
  constructor
  · intro h
    have hprior : ∀ u ∈ t.uploads, ∃ snapshot ∈ t.snapshots, total u.key = some u.grandTotal ∧
        snapshot.casUploadId = some u.id ∧ ofKey u.key snapshot = true ∧
        snapshot.value = u.grandTotal := by
      intro u hu
      have hmem := mem_priorUploads.mpr ⟨hu, rfl⟩
      cases htotal : total u.key with
      | none =>
        rw [(h.absent _ htotal).1] at hmem
        cases hmem
      | some x =>
        obtain ⟨upload, snapshot, huploads, hsnapshots, hx, hcas, hvalue⟩ := h.stored _ x htotal
        rw [huploads, List.mem_singleton] at hmem
        subst hmem
        have hsnapshot := List.mem_filter.mp (hsnapshots ▸ List.mem_singleton_self snapshot)
        exact ⟨snapshot, hsnapshot.1, by rw [hx], hcas, hsnapshot.2, hvalue.trans hx.symm⟩
    refine
      { snapshotOf := fun u hu => ?_
        uploadOf := h.snapshot
        holding := fun g hg => ?_
        lot := h.lot
        total_iff := fun key x => ⟨fun htotal => ?_, fun ⟨u, hu, hkey, hx⟩ => ?_⟩ }
    · obtain ⟨s, hs, -, hcas, hkey, hvalue⟩ := hprior u hu
      obtain ⟨-, hportfolio, hdate⟩ := ofKey_iff.mp hkey
      exact ⟨s, hs, hcas, hportfolio, hdate, hvalue⟩
    · obtain ⟨s, hs, u, -, hid, hcas⟩ := h.holding g hg
      exact ⟨s, hs, hid, by rw [BalanceSnapshot.isCas, hcas]; rfl⟩
    · obtain ⟨upload, -, huploads, -, hx, -, -⟩ := h.stored key x htotal
      have hmem := mem_priorUploads.mp (huploads ▸ List.mem_singleton_self upload)
      exact ⟨upload, hmem.1, hmem.2, hx⟩
    · obtain ⟨-, -, htotal, -⟩ := hprior u hu
      rw [← hkey, htotal, hx]
  · intro h
    refine
      { stored := fun key x htotal => ?_
        absent := fun key htotal => ⟨?_, ?_⟩
        snapshot := h.uploadOf
        holding := fun g hg => ?_
        lot := h.lot }
    · obtain ⟨u, hu, rfl, rfl⟩ := (h.total_iff key x).mp htotal
      obtain ⟨s, hs, hcas, hportfolio, hdate, hvalue⟩ := h.snapshotOf u hu
      have hkey : ofKey u.key s = true :=
        ofKey_iff.mpr ⟨by rw [BalanceSnapshot.isCas, hcas]; rfl, hportfolio, hdate⟩
      refine ⟨u, s, ?_, ?_, rfl, hcas, hvalue⟩
      · exact Table.filter_eq_singleton hu (decide_eq_true rfl) fun v hv hvk =>
          Table.eq_of_clashes (fun _ _ => Eq.symm) hv hu
            (of_decide_eq_true hvk)
      · exact Table.filter_eq_singleton hs hkey fun r hr hrk => eq_of_ofKey hr hs hrk hkey
    · refine List.eq_nil_iff_forall_not_mem.mpr fun u hu => ?_
      obtain ⟨hu, hkey⟩ := mem_priorUploads.mp hu
      have hsome := (h.total_iff key u.grandTotal).mpr ⟨u, hu, hkey, rfl⟩
      rw [htotal] at hsome
      cases hsome
    · refine List.eq_nil_iff_forall_not_mem.mpr fun s hs => ?_
      obtain ⟨hs, hkey⟩ := List.mem_filter.mp hs
      obtain ⟨hcas, hportfolio, hdate⟩ := ofKey_iff.mp hkey
      obtain ⟨id, hid⟩ := Option.isSome_iff_exists.mp hcas
      obtain ⟨u, hu, -, hportfolio', hdate'⟩ := h.uploadOf s hs id hid
      have hukey : u.key = key := Prod.ext
        (Option.some.inj (hportfolio'.symm.trans hportfolio)) (hdate'.symm.trans hdate)
      have hsome := (h.total_iff key u.grandTotal).mpr ⟨u, hu, hukey, rfl⟩
      rw [htotal] at hsome
      cases hsome
    · obtain ⟨s, hs, hid, hcas⟩ := h.holding g hg
      obtain ⟨id, hid'⟩ := Option.isSome_iff_exists.mp hcas
      obtain ⟨u, hu, huid, -⟩ := h.uploadOf s hs id hid'
      exact ⟨s, hs, u, hu, hid, huid ▸ hid'⟩

/-! ### Sequences of ingests -/

/-- What is written to the tables: statements, and the snapshots of accounts and of manual
items between them. -/
inductive IngestEvent where
  | ingest (today : Int) (forceReplace : Bool) (doc : CasDocument)
  | account (accountId : Nat) (kind : SnapshotKind) (category : OtherCategory)
      (asOfDate : Int) (value : ℚ) (currency : String)
  | manual (manualItemId : Nat) (kind : SnapshotKind) (category : OtherCategory)
      (asOfDate : Int) (value : ℚ) (currency : String)

section

variable [UnicodeTables] [CasReaders] [StatementReaders] (columns : IngestColumns)

def IngestEvent.write (t : IngestTables) : IngestEvent → IngestTables
  | ingest today forceReplace doc => casUpload columns today forceReplace doc t
  | account accountId kind category asOfDate value currency =>
    upsertAccountSnapshot columns accountId kind category asOfDate value currency t
  | manual manualItemId kind category asOfDate value currency =>
    upsertManualSnapshot columns manualItemId kind category asOfDate value currency t

/-- The total of a statement that is accepted is the last of its portfolio and date. -/
def IngestEvent.record (t : IngestTables) (total : String × Int → Option ℚ) :
    IngestEvent → String × Int → Option ℚ
  | ingest today forceReplace doc =>
    match ingestCasPayload columns today forceReplace doc t, doc.facts columns today with
    | .ok _ _, some (key, x) => Function.update total key (some x)
    | _, _ => total
  | account .. | manual .. => total

/-- The tables after the events, and the totals accepted last. -/
def ingests (t : IngestTables) (total : String × Int → Option ℚ) :
    List IngestEvent → IngestTables × (String × Int → Option ℚ)
  | [] => (t, total)
  | e :: es => ingests (e.write columns t) (e.record columns t total) es

omit [UnicodeTables] [CasReaders] [StatementReaders] in
/-- An upsert of a row that is no statement's leaves those of the statements. -/
theorem Recorded.upsert {row : Table.NewRow snapshots} {change : Table.Change snapshots}
    (h : Recorded total t) (hrow : ∀ id, (row.make id).isCas = false)
    (hchange : ∀ a, (change.set a).isCas = a.isCas)
    (hclash : ∀ a id, a.isCas = true → ¬ snapshots.Clashes a (row.make id)) :
    Recorded total { t with snapshots := t.snapshots.upsert row change } := by
  have hmem : ∀ s, s.isCas = true → (s ∈ t.snapshots.upsert row change ↔ s ∈ t.snapshots) := by
    intro s hcas
    constructor
    · intro hs
      rcases Table.upsert_spec hs with hs | rfl | ⟨b, -, hb, rfl⟩
      · exact hs
      · rw [Table.next, hrow] at hcas
        cases hcas
      · exact absurd hb (hclash b _ ((hchange b).symm.trans hcas))
    · exact fun hs => Table.mem_upsert_of_not_clashes hs (hclash s _ hcas)
  refine { h with snapshotOf := fun u hu => ?_, uploadOf := fun s hs id hid => ?_,
                  holding := fun g hg => ?_ }
  · obtain ⟨s, hs, hcas, hrest⟩ := h.snapshotOf u hu
    exact ⟨s, (hmem s (by rw [BalanceSnapshot.isCas, hcas]; rfl)).mpr hs, hcas, hrest⟩
  · exact h.uploadOf s ((hmem s (by rw [BalanceSnapshot.isCas, hid]; rfl)).mp hs) id hid
  · obtain ⟨s, hs, hid, hcas⟩ := h.holding g hg
    exact ⟨s, (hmem s hcas).mpr hs, hid, hcas⟩

omit [UnicodeTables] [CasReaders] [StatementReaders] in
/-- A row that is no statement's does not clash with one that is. -/
theorem not_clashes_of_isCas {a b : BalanceSnapshot} (ha : a.isCas = true)
    (hb : b.portfolioKey = none) : ¬ snapshots.Clashes a b := by
  rintro (⟨h, -⟩ | ⟨h, heq, -⟩ | ⟨h, -⟩)
  · exact h (BalanceSnapshot.accountId_of_isCas ha)
  · exact h (heq.trans hb)
  · exact h (BalanceSnapshot.manualItemId_of_isCas ha)

theorem Recorded.write (h : Recorded total t) (e : IngestEvent) :
    Recorded (e.record columns t total) (e.write columns t) := by
  cases e with
  | ingest today forceReplace doc =>
    simp only [IngestEvent.record, IngestEvent.write, casUpload]
    cases hingest : ingestCasPayload columns today forceReplace doc t with
    | error e t' => exact h
    | ok upload t' =>
      obtain ⟨key, x, hfacts, hrecorded⟩ := h.ingest hingest
      rw [hfacts]
      exact hrecorded
  | account accountId kind category asOfDate value currency =>
    refine h.upsert (fun _ => rfl) (fun a => ?_) fun a _ ha => not_clashes_of_isCas ha rfl
    simp only [accountChange]
    split_ifs <;> rfl
  | manual manualItemId kind category asOfDate value currency =>
    refine h.upsert (fun _ => rfl) (fun a => ?_) fun a _ ha => not_clashes_of_isCas ha rfl
    simp only [manualChange, manualSet]
    split_ifs <;> rfl

theorem Recorded.ingests (es : List IngestEvent) (h : Recorded total t) :
    Recorded (ingests columns t total es).2 (ingests columns t total es).1 := by
  induction es generalizing t total with
  | nil => exact h
  | cons e es ih => exact ih (h.write columns e)

/-- **Snapshots and holdings stay consistent.**  After any sequence of ingests, with what is
written for accounts and manual items between them, each portfolio and date of which a
statement was accepted has one upload and one snapshot, with the total accepted last, and what
refers to an upload refers to one that is there.  A refusal has written nothing, and a
statement without a total or a date, or in conflict with the other depository's, changes no
table. -/
theorem ingests_onRecord :
    (∀ (es : List IngestEvent) (t : IngestTables) (total : String × Int → Option ℚ),
      OnRecord total t →
        OnRecord (ingests columns t total es).2 (ingests columns t total es).1) ∧
    ∀ (today : Int) (forceReplace : Bool) (doc : CasDocument) (t : IngestTables),
      (∀ refusal t', ingestCasPayload columns today forceReplace doc t =
        .error (.refused refusal) t' → t' = t) ∧
      (Refusable today forceReplace doc t →
        ∃ e, ingestCasPayload columns today forceReplace doc t = .error e t) :=
  ⟨fun es _ _ h => onRecord_iff.mpr ((onRecord_iff.mp h).ingests columns es),
    fun _ _ _ _ => ⟨fun _ _ => ingest_refused, ingest_refusable⟩⟩

end

@[reducible] def plainStatementReaders : StatementReaders where
  toTitleTables := asciiTitles
  date _ := plainIsoDate

def roundedIngestColumns : IngestColumns := ⟨roundedColumns, fixedPoint 2⟩

/-- A statement with one holding and one purchase. -/
def casStatement (source grandTotal : String) : CasDocument where
  pan := some "abcde1234f"
  source := .text source
  investorName := none
  statementPeriodEnd := .text "2026-01-31"
  grandTotal := .text grandTotal
  portfolioOk := true
  portfolioDelta := .null
  accounts := [[⟨.text "60.00", .text "equity"⟩]]
  folioTotals := []
  payload := document [purchase "10" "10" "100.00"]

/-- Both depositories' statements of a month, the first one again, and the other's refused. -/
def casEvents : List IngestEvent :=
  [.ingest 739726 false (casStatement "CDSL" "90.00"),
    .account 7 .asset ⟨.bankBalance, by decide⟩ 739647 12 "INR",
    .ingest 739726 false (casStatement "NSDL" "100.00"),
    .ingest 739726 false (casStatement "NSDL" "120.00"),
    .ingest 739726 false (casStatement "CDSL" "110.00")]

theorem ingests_onRecord_casEvents :
    let _ := asciiTables
    let _ := plainCasReaders
    let _ := plainStatementReaders
    let s := ingests roundedIngestColumns .empty (fun _ => none) casEvents
    OnRecord s.2 s.1 ∧ s.2 ("ABCDE1234F", 739647) = some 120 ∧
      s.1.snapshots.rows.map (·.value) = [12, 120] ∧
      s.1.holdings.rows.map (fun h => (h.assetClass, h.value)) = [("equity", 60), ("other", 60)] ∧
      s.1.lots.rows.length = 1 := by
  intro _ _ _
  dsimp only
  refine ⟨(ingests_onRecord roundedIngestColumns).1 casEvents .empty (fun _ => none)
    (onRecord_iff.mpr recorded_empty), ?_, ?_, ?_, ?_⟩
  · decide +kernel
  · decide +kernel
  · decide +kernel
  · decide +kernel

end FinancialDashboard.Investments
