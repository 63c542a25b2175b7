import FinancialDashboard.Investments.Lots
import Mathlib.Data.Multiset.MapFold
import Mathlib.Data.String.Basic

/-!
# Canonical lots

The lots of overlapping uploads (`get_canonical_lots` of `services/investments.py`).

Monthly statements repeat the lots of the months before.  Stored lots of one portfolio with
the same facts are one canonical lot, unless one upload states them more than once: then
there are as many as in the upload that states most of them.

* `exists_canonical_iff`: which keys there are.
* `countP_canonical`: how many canonical lots have the same facts.
* `canonicalLots_overlap`: what an upload may add.
-/

namespace FinancialDashboard.Investments

open PyText Rounding Numbering

/-- `_CanonicalBase`. -/
structure CanonicalBase where
  portfolioKey : String
  sourceRef : String
  instrumentId : String
  acquiredOn : Int
  reference : Option String
  quantity : ℚ
  unitCost : ℚ
  costBasis : ℚ
  currency : String
  transactionType : Option String
  deriving DecidableEq, Repr

structure CanonicalLotKey extends CanonicalBase where
  occurrence : Nat
  deriving DecidableEq, Repr

namespace CanonicalLotKey

variable (key : CanonicalLotKey)

/-- The order in which the canonical lots are returned. -/
def rank : Int ×ₗ String ×ₗ String ×ₗ String ×ₗ String ×ₗ ℚ ×ₗ ℚ ×ₗ Nat :=
  toLex (key.acquiredOn, toLex (key.portfolioKey, toLex (key.instrumentId, toLex (key.sourceRef,
    toLex (key.reference.getD "", toLex (key.quantity, toLex (key.unitCost, key.occurrence)))))))

end CanonicalLotKey

structure CasLotProvenance where
  casUploadId : Nat
  statementDate : Int
  depositorySource : String
  deriving DecidableEq, Repr

structure CanonicalLot where
  key : CanonicalLotKey
  instrumentName : String
  canonicalLotId : Nat
  canonicalCasUploadId : Nat
  provenance : List CasLotProvenance
  deriving DecidableEq, Repr

/-- `_CanonicalCandidate`: a row and its upload. -/
structure CanonicalCandidate where
  lot : InvestmentLot
  upload : CasUpload
  deriving DecidableEq, Repr

namespace CanonicalCandidate

variable (candidate : CanonicalCandidate)

/-- By statement, and within an upload by occurrence. -/
def joinRank : Int ×ₗ Nat ×ₗ Nat ×ₗ Nat :=
  toLex (candidate.upload.statementDate, toLex (candidate.upload.id,
    toLex (candidate.lot.sourceOccurrence, candidate.lot.id)))

/-- The order of the equal lots of an upload. -/
def uploadRank : Nat ×ₗ Nat := toLex (candidate.lot.sourceOccurrence, candidate.lot.id)

/-- The earliest is the representative. -/
def rank : Int ×ₗ Nat ×ₗ Nat :=
  toLex (candidate.upload.statementDate, toLex (candidate.upload.id, candidate.lot.id))

def statementRank : Int ×ₗ Nat :=
  toLex (candidate.upload.statementDate, candidate.upload.id)

def provenance : CasLotProvenance :=
  ⟨candidate.upload.id, candidate.upload.statementDate, candidate.upload.depositorySource⟩

end CanonicalCandidate

/-- The uploads and their lots. -/
structure CasTables where
  uploads : List CasUpload
  lots : LotTable
  nodup_ids : (uploads.map (·.id)).Nodup

/-- An occurrence as a lot; there is always a candidate to represent it. -/
def CanonicalLot.ofOverlap (overlap : Overlap CanonicalBase CanonicalCandidate) :
    Option CanonicalLot :=
  (overlap.candidates.minOn? CanonicalCandidate.rank).map fun representative =>
    { key := ⟨overlap.key, overlap.occurrence⟩
      instrumentName := representative.lot.instrumentName
      canonicalLotId := representative.lot.id
      canonicalCasUploadId := representative.upload.id
      provenance := (overlap.candidates.insertionSort fun a b =>
        a.statementRank ≤ b.statementRank).map CanonicalCandidate.provenance }

section

variable [UnicodeTables]

/-- `_canonical_base`, of a row's facts and its upload's portfolio. -/
def canonicalBase (lot : CompleteLot) (portfolioKey : String) : CanonicalBase where
  portfolioKey := upper (strip portfolioKey)
  sourceRef := strip lot.sourceRef
  instrumentId := upper (strip lot.instrumentId)
  acquiredOn := lot.acquiredOn
  reference := normalizedReference lot.reference
  quantity := lot.quantity
  unitCost := lot.unitCost
  costBasis := lot.costBasis
  currency := upper (strip lot.currency)
  transactionType := (normalizedReference lot.transactionType).map lower

def CanonicalCandidate.base (candidate : CanonicalCandidate) : CanonicalBase :=
  canonicalBase candidate.lot.toCompleteLot candidate.upload.portfolioKey

namespace CasTables

variable (tables : CasTables)

/-- The rows with their uploads. -/
def joined : List CanonicalCandidate :=
  tables.lots.rows.filterMap fun lot =>
    (tables.uploads.find? (·.id = lot.casUploadId)).map fun upload => ⟨lot, upload⟩

def candidates : List CanonicalCandidate :=
  tables.joined.insertionSort fun a b => a.joinRank ≤ b.joinRank

def overlaps : List (Overlap CanonicalBase CanonicalCandidate) :=
  Numbering.overlaps CanonicalCandidate.base (·.upload.id)
    (List.insertionSort fun a b => a.uploadRank ≤ b.uploadRank) tables.candidates

end CasTables

/-- `get_canonical_lots`. -/
def getCanonicalLots (tables : CasTables) : List CanonicalLot :=
  (tables.overlaps.filterMap CanonicalLot.ofOverlap).insertionSort fun a b =>
    a.key.rank ≤ b.key.rank

end

/-! ### The lots of one upload -/

section

variable [UnicodeTables] {tables : CasTables} {upload : CasUpload} {base : CanonicalBase}

/-- The facts of an upload's rows. -/
def CasTables.bases (tables : CasTables) (upload : CasUpload) : List CanonicalBase :=
  (tables.lots.ofUpload upload.id).map fun row =>
    canonicalBase row.toCompleteLot upload.portfolioKey

omit [UnicodeTables] in
theorem CasTables.find_upload (h : upload ∈ tables.uploads) :
    tables.uploads.find? (·.id = upload.id) = some upload := by
  cases hfind : tables.uploads.find? (·.id = upload.id) with
  | none => simpa using List.find?_eq_none.mp hfind upload h
  | some other =>
    have hid : other.id = upload.id := by simpa using List.find?_some hfind
    rw [List.inj_on_of_nodup_map tables.nodup_ids (List.mem_of_find?_eq_some hfind) h hid]

omit [UnicodeTables] in
/-- The rows that are joined to an upload are its own. -/
theorem CasTables.mem_joined {candidate : CanonicalCandidate} : candidate ∈ tables.joined ↔
    candidate.upload ∈ tables.uploads ∧
      candidate.lot ∈ tables.lots.ofUpload candidate.upload.id := by
  simp only [joined, List.mem_filterMap, Option.map_eq_some_iff, LotTable.ofUpload,
    List.mem_filter, decide_eq_true_eq]
  constructor
  · rintro ⟨lot, hlot, upload, hfind, rfl⟩
    have hid : upload.id = lot.casUploadId := by simpa using List.find?_some hfind
    exact ⟨List.mem_of_find?_eq_some hfind, hlot, hid.symm⟩
  · rintro ⟨hupload, hlot, hid⟩
    exact ⟨candidate.lot, hlot, candidate.upload, hid ▸ tables.find_upload hupload, rfl⟩

omit [UnicodeTables] in
theorem CasTables.mem_candidates {candidate : CanonicalCandidate} :
    candidate ∈ tables.candidates ↔ candidate.upload ∈ tables.uploads ∧
      candidate.lot ∈ tables.lots.ofUpload candidate.upload.id := by
  rw [candidates, List.mem_insertionSort, mem_joined]

/-- How often an upload states a lot. -/
theorem CasTables.countP_candidates (h : upload ∈ tables.uploads) :
    (tables.candidates.filter (·.base = base)).countP (·.upload.id = upload.id) =
      (tables.bases upload).count base := by
  rw [List.countP_filter, candidates, (List.perm_insertionSort _ _).countP_eq, joined,
    List.countP_filterMap, bases, List.count, List.countP_map, LotTable.ofUpload,
    List.countP_filter]
  refine List.countP_congr fun row _ => ?_
  by_cases hrow : row.casUploadId = upload.id
  · rw [hrow, tables.find_upload h]
    simp only [CanonicalCandidate.base, Option.map_some, Option.getD_some, decide_true,
      Bool.true_and, Bool.and_true, beq_iff_eq, Function.comp_apply]
    exact decide_eq_true_iff
  · cases hfind : tables.uploads.find? (·.id = row.casUploadId) with
    | none => simp [hrow]
    | some other =>
      have hid : other.id = row.casUploadId := by simpa using List.find?_some hfind
      simp [hrow, hid]

/-- The occurrences that some upload states. -/
theorem CasTables.exists_source_iff {n : ℕ} :
    (∃ s, n < (tables.candidates.filter (·.base = base)).countP (·.upload.id = s)) ↔
      ∃ upload ∈ tables.uploads, n < (tables.bases upload).count base := by
  constructor
  · rintro ⟨s, hs⟩
    obtain ⟨candidate, hcandidate, hid⟩ := List.countP_pos_iff.mp (Nat.zero_lt_of_lt hs)
    have hupload := (tables.mem_candidates.mp (List.mem_filter.mp hcandidate).1).1
    refine ⟨candidate.upload, hupload, ?_⟩
    rwa [← tables.countP_candidates hupload, of_decide_eq_true hid]
  · rintro ⟨upload, hupload, hn⟩
    exact ⟨upload.id, by rwa [tables.countP_candidates hupload]⟩

omit [UnicodeTables] in
theorem perm_uploadRank (members : List CanonicalCandidate) :
    (members.insertionSort fun a b => a.uploadRank ≤ b.uploadRank).Perm members :=
  List.perm_insertionSort _ _

/-! ### The canonical lots -/

/-- Each occurrence is a canonical lot. -/
theorem map_key_canonical (tables : CasTables) : ((getCanonicalLots tables).map (·.key)).Perm
    (tables.overlaps.map fun o => ⟨o.key, o.occurrence⟩) := by
  have hkey : ∀ o ∈ tables.overlaps,
      (CanonicalLot.ofOverlap o).map (·.key) = some ⟨o.key, o.occurrence⟩ := by
    intro o ho
    rw [CanonicalLot.ofOverlap, List.minOn?_eq_some_minOn (candidates_ne_nil ho)]
    rfl
  refine ((List.perm_insertionSort _ _).map _).trans ?_
  rw [List.map_filterMap, List.filterMap_congr hkey, List.filterMap_eq_map']

/-- **Which keys there are.** -/
theorem exists_canonical_iff {key : CanonicalLotKey} :
    (∃ lot ∈ getCanonicalLots tables, lot.key = key) ↔
      ∃ upload ∈ tables.uploads, key.occurrence < (tables.bases upload).count key.toCanonicalBase := by
  rw [← List.mem_map, (map_key_canonical tables).mem_iff, List.mem_map,
    ← tables.exists_source_iff, ← exists_overlap_iff perm_uploadRank]
  refine exists_congr fun o => and_congr_right fun _ => ?_
  rw [CanonicalLotKey.mk.injEq]

theorem countP_canonical (tables : CasTables) (base : CanonicalBase) :
    (getCanonicalLots tables).countP (·.key.toCanonicalBase = base) =
      (tables.uploads.map fun upload => (tables.bases upload).count base).foldr max 0 := by
  have hmax : ∀ n, (∃ s, n <
      (tables.candidates.filter (·.base = base)).countP (·.upload.id = s)) ↔
      n < (tables.uploads.map fun upload => (tables.bases upload).count base).foldr max 0 := by
    intro n
    rw [tables.exists_source_iff, lt_foldr_max]
    simp only [List.mem_map, exists_exists_and_eq_and]
  have hkeys := (map_key_canonical tables).countP_eq (·.toCanonicalBase = base)
  rw [List.countP_map, List.countP_map] at hkeys
  exact hkeys.trans (countP_overlaps perm_uploadRank hmax)

/-- The keys depend on nothing but how often the uploads state each lot. -/
theorem keys_perm {other : CasTables}
    (h : ∀ base n, (∃ upload ∈ other.uploads, n < (other.bases upload).count base) ↔
      ∃ upload ∈ tables.uploads, n < (tables.bases upload).count base) :
    ((getCanonicalLots other).map (·.key)).Perm ((getCanonicalLots tables).map (·.key)) := by
  have hsame : (other.overlaps.map fun o => (o.key, o.occurrence)).Perm
      (tables.overlaps.map fun o => (o.key, o.occurrence)) :=
    perm_overlaps perm_uploadRank perm_uploadRank fun base n => by
      rw [other.exists_source_iff, tables.exists_source_iff, h base n]
  have hkeys := hsame.map fun p : CanonicalBase × ℕ => (⟨p.1, p.2⟩ : CanonicalLotKey)
  rw [List.map_map, List.map_map] at hkeys
  exact ((map_key_canonical other).trans hkeys).trans (map_key_canonical tables).symm

/-- The tables have one more upload. -/
structure CasTables.Adds (more tables : CasTables) (added : CasUpload) : Prop where
  uploads : more.uploads.Perm (added :: tables.uploads)
  lots : ∀ upload ∈ tables.uploads,
    (more.lots.ofUpload upload.id).Perm (tables.lots.ofUpload upload.id)

/-- An upload that states no lot more often than another adds nothing. -/
theorem CasTables.Adds.keys_perm {more : CasTables} {added : CasUpload}
    (h : more.Adds tables added) (hupload : upload ∈ tables.uploads)
    (hsub : (more.bases added).Subperm (tables.bases upload)) :
    ((getCanonicalLots more).map (·.key)).Perm ((getCanonicalLots tables).map (·.key)) := by
  have hold : ∀ old ∈ tables.uploads, ∀ base,
      (more.bases old).count base = (tables.bases old).count base := fun old hold base =>
    ((h.lots old hold).map _).count_eq base
  refine Investments.keys_perm fun base n => ⟨?_, ?_⟩
  · rintro ⟨one, hone, hn⟩
    rcases List.mem_cons.mp (h.uploads.mem_iff.mp hone) with rfl | hone
    · exact ⟨upload, hupload, hn.trans_le (hsub.count_le base)⟩
    · exact ⟨one, hone, hold one hone base ▸ hn⟩
  · rintro ⟨one, hone, hn⟩
    exact ⟨one, h.uploads.mem_iff.mpr (List.mem_cons_of_mem _ hone), (hold one hone base).symm ▸ hn⟩

/-- An upload's portfolio and lots, without the numbers of their rows. -/
def CasTables.holding (tables : CasTables) (upload : CasUpload) : String × Multiset CompleteLot :=
  (upload.portfolioKey,
    ((tables.lots.ofUpload upload.id).map (·.toCompleteLot) : List CompleteLot))

/-- What the uploads state, in whatever order they came. -/
def CasTables.holdings (tables : CasTables) : Multiset (String × Multiset CompleteLot) :=
  (tables.uploads.map tables.holding : List (String × Multiset CompleteLot))

theorem CasTables.count_bases (tables : CasTables) (upload : CasUpload) (base : CanonicalBase) :
    (tables.bases upload).count base = ((tables.holding upload).2.map fun lot =>
      canonicalBase lot (tables.holding upload).1).count base := by
  rw [holding, Multiset.map_coe, Multiset.coe_count, List.map_map]
  rfl

/-- The order in which the uploads came makes no difference. -/
theorem keys_perm_of_holdings {other : CasTables} (h : other.holdings = tables.holdings) :
    ((getCanonicalLots other).map (·.key)).Perm ((getCanonicalLots tables).map (·.key)) := by
  have hstates : ∀ (one : CasTables) (base : CanonicalBase) (n : ℕ),
      (∃ upload ∈ one.uploads, n < (one.bases upload).count base) ↔
        ∃ held ∈ one.holdings, n < (held.2.map fun lot => canonicalBase lot held.1).count base := by
    intro one base n
    simp only [one.count_bases, CasTables.holdings, Multiset.mem_coe, List.mem_map,
      exists_exists_and_eq_and]
  exact keys_perm fun base n => by rw [hstates other, hstates tables, h]

/-- **Overlapping uploads do not inflate the holdings.**  The canonical lots of the same facts
are as many as in the upload that states most of them, each with a key of its own; an upload
whose lots another one states adds none, and the order of the uploads makes no difference. -/
theorem canonicalLots_overlap (tables : CasTables) :
    (∀ base, (getCanonicalLots tables).countP (·.key.toCanonicalBase = base) =
      (tables.uploads.map fun upload => (tables.bases upload).count base).foldr max 0) ∧
    ((getCanonicalLots tables).map (·.key)).Nodup ∧
    (∀ more added, more.Adds tables added →
      (∃ upload ∈ tables.uploads, (more.bases added).Subperm (tables.bases upload)) →
      ((getCanonicalLots more).map (·.key)).Perm ((getCanonicalLots tables).map (·.key))) ∧
    ∀ other : CasTables, other.holdings = tables.holdings →
      ((getCanonicalLots other).map (·.key)).Perm ((getCanonicalLots tables).map (·.key)) := by
  refine ⟨countP_canonical tables, ?_, fun more added hadds ⟨upload, hupload, hsub⟩ =>
    hadds.keys_perm hupload hsub, fun other => keys_perm_of_holdings⟩
  have hnodup : (tables.overlaps.map fun o => (o.key, o.occurrence)).Nodup := nodup_overlaps
  refine (map_key_canonical tables).nodup_iff.mpr (List.Nodup.of_map
    (fun key : CanonicalLotKey => (key.toCanonicalBase, key.occurrence)) ?_)
  rwa [List.map_map]

end

end FinancialDashboard.Investments
