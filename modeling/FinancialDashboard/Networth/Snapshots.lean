import FinancialDashboard.Lib.Dict
import Mathlib.Data.Prod.Lex
import Mathlib.Algebra.Ring.Rat

/-!
# Balance snapshots

The rows of `balance_snapshots`: the value of one source on one date.  A source is
an account, a CAS portfolio or a manual item.

A `BalanceSnapshot` carries what the schema and its writers keep: exactly one
source (`ck_balance_snapshot_exactly_one_source`); the upserts of
`services/snapshots.py` and `services/manual_items.py` write neither a portfolio
key nor the category `investment`, and `services/cas_ingestion.py` writes only
`investment` assets.  The unique indexes are not needed: dates may repeat.

The columns that no modelled function reads (`source`, `created_at`) are left out.

* `latestPerSource`: `_latest_per_source` of `services/networth.py`.
* `InForce`, `valueInForce`: what a portfolio is worth on a day, said once for all
  who compute it.
-/

namespace FinancialDashboard.Networth

inductive SnapshotKind
  | asset | liability
  deriving DecidableEq, Repr

namespace SnapshotKind

def value : SnapshotKind → String
  | asset => "asset"
  | liability => "liability"

end SnapshotKind

inductive SnapshotCategory
  | bankBalance | ccOutstanding | investment | manualAsset | manualLiability
  deriving DecidableEq, Repr

namespace SnapshotCategory

def value : SnapshotCategory → String
  | bankBalance => "bank_balance"
  | ccOutstanding => "cc_outstanding"
  | investment => "investment"
  | manualAsset => "manual_asset"
  | manualLiability => "manual_liability"

end SnapshotCategory

structure BalanceSnapshot where
  id : Nat
  accountId : Option Nat
  casUploadId : Option Nat
  manualItemId : Option Nat
  portfolioKey : Option String
  kind : SnapshotKind
  category : SnapshotCategory
  asOfDate : Int
  value : Rat
  currency : String
  oneSource : accountId.isSome.toNat + casUploadId.isSome.toNat + manualItemId.isSome.toNat = 1
  keyOfCas : portfolioKey.isSome → casUploadId.isSome
  investmentOfCas : category = .investment ↔ casUploadId.isSome
  assetOfCas : casUploadId.isSome → kind = .asset

/-- The rows of `balance_snapshots`, with their primary key. -/
structure SnapshotTable where
  rows : List BalanceSnapshot
  ids : rows.Pairwise fun a b => a.id ≠ b.id

namespace BalanceSnapshot

/-- The row is a CAS statement's. -/
def isCas (s : BalanceSnapshot) : Bool := s.casUploadId.isSome

/-- A CAS statement has its upload for its one source. -/
theorem oneSource_cas (id : Nat) : (none : Option Nat).isSome.toNat + (some id).isSome.toNat +
    (none : Option Nat).isSome.toNat = 1 := rfl

theorem investmentOfCas_cas (id : Nat) :
    SnapshotCategory.investment = .investment ↔ (some id).isSome := iff_of_true rfl rfl

/-- `ORDER BY as_of_date, id`, and the comparison that picks the latest. -/
def rank (s : BalanceSnapshot) : Int ×ₗ Nat := toLex (s.asOfDate, s.id)

variable {s : BalanceSnapshot}

theorem accountId_of_isCas (h : s.isCas = true) : s.accountId = none := by
  have hone := s.oneSource
  unfold isCas at h
  cases haccount : s.accountId with
  | none => rfl
  | some account =>
    rw [haccount, h] at hone
    simp only [Option.isSome_some, Bool.toNat_true] at hone
    omega

theorem manualItemId_of_isCas (h : s.isCas = true) : s.manualItemId = none := by
  have hone := s.oneSource
  unfold isCas at h
  cases hitem : s.manualItemId with
  | none => rfl
  | some item =>
    rw [hitem, h] at hone
    simp only [Option.isSome_some, Bool.toNat_true] at hone
    omega

/-- Without an account and without a manual item only the CAS is left. -/
theorem isCas_of_sources (haccount : s.accountId = none) (hitem : s.manualItemId = none) :
    s.isCas = true := by
  have hone := s.oneSource
  rw [haccount, hitem] at hone
  unfold isCas
  cases hcas : s.casUploadId with
  | none =>
    rw [hcas] at hone
    simp at hone
  | some upload => rfl

end BalanceSnapshot

/-! ### The latest snapshot of each source -/

/-- `_source_key`. -/
inductive SourceKey
  | acct (accountId : Nat) (category : SnapshotCategory)
  | inv (portfolioKey : String) (category : SnapshotCategory)
  | man (manualItemId : Option Nat)
  deriving DecidableEq, Repr

def sourceKey (s : BalanceSnapshot) : SourceKey :=
  match s.accountId, s.portfolioKey with
  | some account, _ => .acct account s.category
  | none, some portfolio => .inv portfolio s.category
  | none, none => .man s.manualItemId

def latestPerSource (snapshots : List BalanceSnapshot) (asOf : Int) : List BalanceSnapshot :=
  (Dict.latest sourceKey (fun s current => current.rank < s.rank)
    (snapshots.filter (·.asOfDate ≤ asOf))).entries.map (·.2)

/-- The source of a CAS portfolio; one without a key has the key of no manual item. -/
def casSource : Option String → SourceKey
  | some portfolio => .inv portfolio .investment
  | none => .man none

theorem casSource_injective : Function.Injective casSource := by
  intro a b h
  cases a <;> cases b <;> simp_all [casSource]

/-- **The sources of the investments are the CAS portfolios.** -/
theorem sourceKey_eq_casSource_iff {s : BalanceSnapshot} {portfolio : Option String} :
    sourceKey s = casSource portfolio ↔ s.isCas = true ∧ s.portfolioKey = portfolio := by
  constructor
  · intro h
    unfold sourceKey at h
    cases haccount : s.accountId with
    | some account =>
      rw [haccount] at h
      cases portfolio <;> simp [casSource] at h
    | none =>
      cases hkey : s.portfolioKey with
      | some key =>
        rw [haccount, hkey] at h
        refine ⟨s.keyOfCas (by simp [hkey]), ?_⟩
        cases portfolio with
        | none => simp [casSource] at h
        | some portfolio => simpa [casSource] using congrArg some (SourceKey.inv.inj h).1
      | none =>
        rw [haccount, hkey] at h
        cases portfolio with
        | some portfolio => simp [casSource] at h
        | none => exact ⟨BalanceSnapshot.isCas_of_sources haccount (SourceKey.man.inj h), rfl⟩
  · rintro ⟨hcas, rfl⟩
    have haccount := BalanceSnapshot.accountId_of_isCas hcas
    have hitem := BalanceSnapshot.manualItemId_of_isCas hcas
    have hcategory : s.category = .investment := s.investmentOfCas.mpr hcas
    unfold sourceKey
    rw [haccount, hitem, hcategory]
    cases s.portfolioKey <;> rfl

/-! ### What a portfolio is worth -/

/-- `s` is the last statement of the portfolio not after `d`. -/
structure InForce (rows : List BalanceSnapshot) (portfolio : Option String) (d : Int)
    (s : BalanceSnapshot) : Prop where
  mem : s ∈ rows
  cas : s.isCas = true
  key : s.portfolioKey = portfolio
  date : s.asOfDate ≤ d
  last : ∀ r ∈ rows, r.isCas = true → r.portfolioKey = portfolio → r.asOfDate ≤ d → r.rank ≤ s.rank

/-- The value in rupees; a statement in another currency counts nothing. -/
def inrValue (s : BalanceSnapshot) : Rat := if s.currency = "INR" then s.value else 0

/-- The value of the portfolio on the day `d`. -/
noncomputable def valueInForce (rows : List BalanceSnapshot) (portfolio : Option String) (d : Int) :
    Rat :=
  open Classical in if h : ∃ s, InForce rows portfolio d s then inrValue h.choose else 0

/-- The portfolios the rows are about. -/
def portfolios (rows : List BalanceSnapshot) : Finset (Option String) :=
  ((rows.filter (·.isCas)).map (·.portfolioKey)).toFinset

section

variable {rows : List BalanceSnapshot} {portfolio : Option String} {d : Int} {s r : BalanceSnapshot}

theorem ranked_of_ids (h : rows.Pairwise fun a b => a.id ≠ b.id) :
    Dict.Ranked BalanceSnapshot.rank rows :=
  h.imp fun hne heq => hne (congrArg (fun p => (ofLex p).2) heq)

theorem InForce.unique (h : rows.Pairwise fun a b => a.id ≠ b.id)
    (hs : InForce rows portfolio d s) (hr : InForce rows portfolio d r) : s = r :=
  Dict.eq_of_rank_eq (ranked_of_ids h) hs.mem hr.mem
    (le_antisymm (hr.last s hs.mem hs.cas hs.key hs.date) (hs.last r hr.mem hr.cas hr.key hr.date))

theorem valueInForce_eq (h : rows.Pairwise fun a b => a.id ≠ b.id)
    (hs : InForce rows portfolio d s) : valueInForce rows portfolio d = inrValue s := by
  have hex : ∃ s, InForce rows portfolio d s := ⟨s, hs⟩
  unfold valueInForce
  rw [dif_pos hex, hex.choose_spec.unique h hs]

theorem valueInForce_eq_zero (h : ∀ s, ¬ InForce rows portfolio d s) :
    valueInForce rows portfolio d = 0 :=
  dif_neg fun ⟨s, hs⟩ => h s hs

/-- A portfolio with a statement has one in force. -/
theorem exists_inForce (h : rows.Pairwise fun a b => a.id ≠ b.id) (hr : r ∈ rows)
    (hcas : r.isCas = true) (hdate : r.asOfDate ≤ d) : ∃ s, InForce rows r.portfolioKey d s := by
  have hmem : r ∈ rows.filter fun s => s.isCas && s.asOfDate ≤ d :=
    List.mem_filter.mpr ⟨hr, by simp [hcas, hdate]⟩
  have hsome : (Dict.latest BalanceSnapshot.portfolioKey (fun s current => current.rank < s.rank)
      (rows.filter fun s => s.isCas && s.asOfDate ≤ d)).lookup r.portfolioKey ≠ none :=
    Dict.lookup_latest_ne_none hmem
  obtain ⟨s, hs⟩ := Option.ne_none_iff_exists'.mp hsome
  have hlatest := Dict.isLatest_of_lookup (ranked_of_ids (h.filter _)) (by simp) hs
  obtain ⟨hs, hkeep⟩ := List.mem_filter.mp hlatest.mem
  simp only [Bool.and_eq_true, decide_eq_true_eq] at hkeep
  refine ⟨s, hs, hkeep.1, hlatest.key_eq, hkeep.2, fun q hq hqcas hqkey hqdate => ?_⟩
  exact hlatest.last q (List.mem_filter.mpr ⟨hq, by simp [hqcas, hqdate]⟩) hqkey

theorem mem_portfolios {portfolio : Option String} :
    portfolio ∈ portfolios rows ↔ ∃ s ∈ rows, s.isCas = true ∧ s.portfolioKey = portfolio := by
  simp [portfolios, and_assoc]

end

end FinancialDashboard.Networth
