import FinancialDashboard.Investments.Canonical
import FinancialDashboard.Lib.PyTime
import FinancialDashboard.Lib.StableCase

/-!
# Consumption of canonical lots

The disposals of overlapping uploads, joined to the canonical lots
(`get_canonical_lot_consumption` of `services/investments.py`).

The transactions of a portfolio's uploads are merged as the lots are, from their texts.  The
disposals among them are resolved, and each lot that is left with less is looked up among the
canonical ones by a key, which is made of the numbers of the document where theirs is made of
the numbers of the columns.

* `not_shared_of_reported`: a lot that was drawn on is the only one of its source facts.
* `reported_key`, `reported_iff`: the key it is looked up by.
* `exists_canonical_zero_iff`: which of these keys the canonical lots have.
* `linesUp_iff`: when it is found.
-/

namespace FinancialDashboard.Investments

open PyText Rounding Numbering Posting

/-- `_transaction_fingerprint`. -/
structure Fingerprint where
  scope : String
  sourceRef : String
  isin : String
  date : String
  transactionType : String
  reference : String
  units : String
  nav : String
  amount : String
  deriving DecidableEq, Repr

/-- `_PayloadSource`. -/
structure PayloadSource where
  upload : CasUpload
  payload : Payload
  deriving DecidableEq, Repr

/-- `_RawTransactionCandidate`, with its fingerprint. -/
structure RawTransactionCandidate where
  fingerprint : Fingerprint
  upload : CasUpload
  raw : RawTransaction
  sourceOrder : Nat
  deriving DecidableEq, Repr

/-- The earliest is the representative. -/
def RawTransactionCandidate.rank (candidate : RawTransactionCandidate) : Int ×ₗ Nat ×ₗ Nat :=
  toLex (candidate.upload.statementDate, toLex (candidate.upload.id, candidate.sourceOrder))

/-- A transaction that the uploads of a portfolio state. -/
structure CanonicalTransaction where
  fingerprint : Fingerprint
  occurrence : Nat
  raw : RawTransaction

/-- By date, then by all the facts. -/
def CanonicalTransaction.rank (transaction : CanonicalTransaction) : String ×ₗ String ×ₗ
    String ×ₗ String ×ₗ String ×ₗ String ×ₗ String ×ₗ String ×ₗ String ×ₗ Nat :=
  let facts := transaction.fingerprint
  toLex (facts.date, toLex (facts.scope, toLex (facts.sourceRef, toLex (facts.isin,
    toLex (facts.transactionType, toLex (facts.reference, toLex (facts.units, toLex (facts.nav,
      toLex (facts.amount, transaction.occurrence)))))))))

structure CanonicalLotConsumption where
  unresolved : List (String × String)
  remaining : List (CanonicalLotKey × ℚ)
  deriving DecidableEq, Repr

namespace CanonicalLotConsumption

/-- `remaining[key] = quantity`. -/
def assign (key : CanonicalLotKey) (quantity : ℚ) (remaining : List (CanonicalLotKey × ℚ)) :
    List (CanonicalLotKey × ℚ) :=
  if remaining.any (·.1 = key) then
    remaining.map fun entry => if entry.1 = key then (key, quantity) else entry
  else remaining ++ [(key, quantity)]

/-- What is left of a lot, under its canonical key if it has one. -/
def report (keyMap : List (LotKey × CanonicalLotKey)) (portfolio : String)
    (state : CanonicalLotConsumption) (reported : LotKey × ℚ) : CanonicalLotConsumption :=
  match keyMap.find? (·.1 = reported.1) with
  | none => { state with unresolved := state.unresolved ++ [(portfolio, reported.1.instrumentId)] }
  | some entry => { state with remaining := assign entry.2 reported.2 state.remaining }

end CanonicalLotConsumption

section

variable [UnicodeTables] [CasReaders] (today : Int)

/-! ### Merging the transactions -/

/-- `_fact_token`. -/
def factToken (value : Json) : String :=
  if value = .null ∨ value = .text "" then ""
  else
    match toDecimal value with
    | some decimal => decimal.normalText precision
    | none => strip value.str

def transactionFingerprint (raw : RawTransaction) : Except Raised Fingerprint := do
  let parsedDate ← parseDate today raw.date
  .ok
    { scope := lower (strip raw.scope.orEmpty)
      sourceRef := normalizedRef raw.sourceRef
      isin := raw.txnIsin.getD ""
      date := parsedDate.elim raw.date.orEmpty PyTime.isoformat
      transactionType := lower (strip raw.transactionType.orEmpty)
      reference := raw.reference.stripped.getD ""
      units := factToken raw.units
      nav := factToken raw.nav
      amount := factToken raw.amount }

/-- The transactions of a source with their places. -/
def PayloadSource.candidates (source : PayloadSource) :
    Except Raised (List RawTransactionCandidate) :=
  match source.payload.transactions with
  | none => .error .typeError
  | some items =>
    (items.zipIdx.filterMap fun item => item.1.map (·, item.2)).mapM fun row =>
      (transactionFingerprint today row.1).map fun fingerprint =>
        ⟨fingerprint, source.upload, row.1, row.2⟩

/-- The transactions as a multiset over the sources. -/
def canonicalOccurrences (candidates : List RawTransactionCandidate) : List CanonicalTransaction :=
  (overlaps RawTransactionCandidate.fingerprint (·.upload.id)
    (List.insertionSort fun a b => a.sourceOrder ≤ b.sourceOrder) candidates).filterMap
      fun overlap => (overlap.candidates.minOn? RawTransactionCandidate.rank).map
        fun representative => ⟨overlap.key, overlap.occurrence, representative.raw⟩

/-- `_canonical_raw_transactions`. -/
def canonicalRawTransactions (sources : List PayloadSource) :
    Except Raised (List RawTransaction) := do
  let candidates ← sources.mapM (PayloadSource.candidates today)
  .ok (((canonicalOccurrences candidates.flatten).insertionSort
    fun a b => a.rank ≤ b.rank).map CanonicalTransaction.raw)

/-! ### The keys -/

/-- The lots of the transactions. -/
def completeLots (transactions : List RawTransaction) : Except Raised (List CompleteLot) :=
  (transactions.mapM (classifyTransaction today)).map (·.filterMap Classification.lot)

omit [CasReaders] in
/-- The base of a lot as the document states it. -/
def CompleteLot.fullBase (lot : CompleteLot) (portfolioKey : String) : CanonicalBase where
  portfolioKey := upper (strip portfolioKey)
  sourceRef := strip lot.sourceRef
  instrumentId := lot.instrumentId
  acquiredOn := lot.acquiredOn
  reference := normalizedReference lot.reference
  quantity := lot.quantity
  unitCost := lot.unitCost
  costBasis := lot.costBasis
  currency := lot.currency
  transactionType := lot.transactionType

/-- The keys of the lots, each of which has two numbers. -/
def keyMap (portfolioKey : String) (lots : List CompleteLot) : List (LotKey × CanonicalLotKey) :=
  (number (fun p => p.1.natural) (number (CompleteLot.fullBase · portfolioKey) lots)).map
    fun p => (⟨p.1.1.natural, p.2⟩, ⟨p.1.1.fullBase portfolioKey, p.1.2⟩)

/-- `_canonical_consumption_key_map`. -/
def canonicalConsumptionKeyMap (portfolioKey : String) (transactions : List RawTransaction) :
    Except Raised (List (LotKey × CanonicalLotKey)) :=
  (completeLots today transactions).map (keyMap portfolioKey)

/-! ### Portfolio after portfolio -/

/-- The sources by portfolio. -/
def portfolios (uploads : List CasUpload) : List (String × List PayloadSource) :=
  let sources := (uploads.insertionSort (·.id ≤ ·.id)).filterMap fun upload =>
    upload.payload.map fun payload => (⟨upload, payload⟩ : PayloadSource)
  let key (source : PayloadSource) := upper (strip source.upload.portfolioKey)
  Dict.groups key (keysOf key sources) sources

/-- A portfolio in the loop. -/
def consumePortfolio (state : CanonicalLotConsumption)
    (portfolio : String × List PayloadSource) : Except Raised CanonicalLotConsumption := do
  let transactions ← canonicalRawTransactions today portfolio.2
  let consumption ← resolveLotConsumption today [document transactions]
  let normalized := upper (strip portfolio.1)
  let unresolved := state.unresolved ++ consumption.unresolvedInstruments.map (normalized, ·)
  let keyMap ← canonicalConsumptionKeyMap today portfolio.1 transactions
  .ok (consumption.remaining.foldl (CanonicalLotConsumption.report keyMap normalized)
    { state with unresolved := unresolved })

/-- `get_canonical_lot_consumption`. -/
def getCanonicalLotConsumption (uploads : List CasUpload) :
    Except Raised CanonicalLotConsumption := do
  let state ← (portfolios uploads).foldlM (consumePortfolio today) ⟨[], []⟩
  .ok { state with
    remaining := state.remaining.filter fun entry =>
      (entry.1.portfolioKey, entry.1.instrumentId) ∉ state.unresolved }

end

/-! ### Lots that are drawn on -/

section

variable {facts : Facts} {isin : String} {lot : AcquisitionFact}

/-- Another lot is known by the same facts. -/
def Facts.Shared (facts : Facts) (lot : AcquisitionFact) : Prop :=
  ∃ other ∈ facts.lots, other ≠ lot ∧ other.key.toNatural = lot.key.toNatural

/-- The shared lots have all their units. -/
def Facts.Untouched (facts : Facts) (remaining : LotKey → ℚ) : Prop :=
  ∀ lot ∈ facts.lots, facts.Shared lot → remaining lot.key = lot.quantity

section

variable (hpos : ∀ lot ∈ facts.lots, 0 < lot.quantity)

include hpos

/-- A lot that is identified is not shared. -/
theorem Identified.not_shared {remaining : LotKey → ℚ} {disposal : DisposalFact}
    (h : Identified (facts.candidates isin disposal.sourceRef) remaining disposal lot)
    (huntouched : facts.Untouched remaining) : ¬ facts.Shared lot := by
  rintro ⟨other, hother, hne, hsame⟩
  obtain ⟨hlot, hinstrument, hsource⟩ := mem_candidates.mp h.mem
  have hactive : 0 < remaining other.key := by
    rw [huntouched other hother ⟨lot, hlot, hne.symm, hsame.symm⟩]
    exact hpos other hother
  obtain ⟨hisin, href, hday, hreference⟩ := Natural.mk.inj hsame
  have hcandidate : other ∈ facts.candidates isin disposal.sourceRef :=
    mem_candidates.mpr ⟨hother, hisin.trans hinstrument, href.trans hsource⟩
  exact hne (h.only other hcandidate hactive hreference hday)

theorem Facts.Untouched.draw {before : LotKey → ℚ} {disposals : List DisposalFact}
    (h : facts.Untouched before) : facts.Untouched (facts.draw isin before disposals).remaining := by
  induction disposals generalizing before with
  | nil => exact h
  | cons disposal rest ih =>
    rw [Facts.draw]
    cases hidentify : facts.identify isin before disposal with
    | none => exact h
    | some taken =>
      have hidentified := identify_spec hidentify
      refine ih fun lot hlot hshared => ?_
      have hne : lot.key ≠ taken.key := fun hkey => by
        have hmem := (mem_candidates.mp hidentified.mem).1
        rw [List.inj_on_of_nodup_map facts.nodup_keys hlot hmem hkey] at hshared
        exact hidentified.not_shared hpos h hshared
      rw [Function.update_of_ne hne]
      exact h lot hlot hshared

theorem Facts.Untouched.foldl {isins : List String} {ledger : Ledger}
    (h : facts.Untouched ledger.remaining) :
    facts.Untouched (isins.foldl facts.settle ledger).remaining := by
  induction isins generalizing ledger with
  | nil => exact h
  | cons isin rest ih => exact ih (h.draw hpos)

/-- **A lot that is reported is the only one of its source facts.** -/
theorem not_shared_of_reported (hlot : lot ∈ facts.lots)
    (hchanged : facts.resolve.remaining lot.key ≠ facts.original lot.key) :
    ¬ facts.Shared lot := fun hshared => by
  have hstart : facts.Untouched facts.original := fun one hone _ => original_eq hone
  have huntouched : facts.Untouched facts.resolve.remaining := hstart.foldl hpos
  exact hchanged ((huntouched lot hlot hshared).trans (original_eq hlot).symm)

end

end

/-! ### The key of a lot that is drawn on -/

section

variable [UnicodeTables] {entries : List Entry} {lots : List CompleteLot} {lot : CompleteLot}
  {portfolioKey : String} {n : ℕ}

/-- A lot that is not shared is alone of its source facts. -/
theorem countP_natural_le
    (h : ¬ (gather entries).Shared ⟨⟨lot.natural, n⟩, lot.quantity⟩) :
    (entries.filterMap Entry.acquired).countP (·.natural = lot.natural) ≤ 1 := by
  by_contra hmany
  obtain ⟨m, hm, hne⟩ : ∃ m < (entries.filterMap Entry.acquired).countP
      (·.natural = lot.natural), m ≠ n := by
    by_cases hn : n = 0
    · exact ⟨1, by omega, by omega⟩
    · exact ⟨0, by omega, fun h => hn h.symm⟩
  obtain ⟨p, hp, hnatural, rfl⟩ := exists_number_iff.mpr hm
  refine h ⟨⟨⟨p.1.natural, p.2⟩, p.1.quantity⟩, List.mem_map_of_mem hp, fun heq => ?_, hnatural⟩
  exact hne (LotKey.mk.inj (AcquisitionFact.mk.inj heq).1).2

theorem natural_eq_of_fullBase {other : CompleteLot}
    (h : other.fullBase portfolioKey = lot.fullBase portfolioKey) :
    other.natural = lot.natural := by
  simp only [CompleteLot.fullBase, CanonicalBase.mk.injEq] at h
  simp only [CompleteLot.natural, Natural.mk.injEq]
  exact ⟨h.2.2.1, h.2.1, h.2.2.2.1, h.2.2.2.2.1⟩

theorem nodup_keyMap (portfolioKey : String) (lots : List CompleteLot) :
    ((keyMap portfolioKey lots).map Prod.fst).Nodup := by
  have hnodup := nodup_number (fun p : CompleteLot × ℕ => p.1.natural)
    (number (CompleteLot.fullBase · portfolioKey) lots)
  refine List.Nodup.of_map (fun key : LotKey => (key.toNatural, key.occurrence)) ?_
  rw [keyMap, List.map_map, List.map_map]
  exact hnodup

/-- **The key of a lot that is alone of its source facts.** -/
theorem find_keyMap (hmem : (lot, n) ∈ number CompleteLot.natural lots)
    (halone : lots.countP (·.natural = lot.natural) ≤ 1) :
    n = 0 ∧ (keyMap portfolioKey lots).find? (·.1 = ⟨lot.natural, n⟩) =
      some (⟨lot.natural, n⟩, ⟨lot.fullBase portfolioKey, 0⟩) := by
  refine ⟨number_eq_zero hmem halone, ?_⟩
  have hboth : (lot, n) ∈ (number (fun p : CompleteLot × ℕ => p.1.natural)
      (number (CompleteLot.fullBase · portfolioKey) lots)).map fun p => (p.1.1, p.2) := by
    rw [map_number Prod.fst CompleteLot.natural, map_fst_number]
    exact hmem
  obtain ⟨p, hp, hpair⟩ := List.mem_map.mp hboth
  obtain ⟨hlot, hn⟩ := Prod.mk.inj hpair
  have hzero : p.1.2 = 0 := by
    refine number_eq_zero (mem_of_mem_number hp) ((List.countP_mono_left fun other _ hbase => ?_).trans
      halone)
    rw [hlot] at hbase
    exact decide_eq_true (natural_eq_of_fullBase (of_decide_eq_true hbase))
  have hentry : (⟨lot.natural, n⟩, ⟨lot.fullBase portfolioKey, 0⟩) ∈ keyMap portfolioKey lots := by
    rw [← hlot, ← hn, ← hzero]
    exact List.mem_map_of_mem (f := fun p : (CompleteLot × ℕ) × ℕ =>
      ((⟨p.1.1.natural, p.2⟩, ⟨p.1.1.fullBase portfolioKey, p.1.2⟩) : LotKey × CanonicalLotKey)) hp
  cases hfind : (keyMap portfolioKey lots).find? (·.1 = ⟨lot.natural, n⟩) with
  | none => simpa using List.find?_eq_none.mp hfind _ hentry
  | some entry =>
    have hkey : entry.1 = ⟨lot.natural, n⟩ := by simpa using List.find?_some hfind
    exact congrArg some (List.inj_on_of_nodup_map (nodup_keyMap portfolioKey lots)
      (List.mem_of_find?_eq_some hfind) hentry hkey)

variable [CasReaders] {today : Int} {transactions : List RawTransaction}

theorem acquired_of_readEntry {isin : String} {order : ℕ} {raw : RawTransaction}
    {entry : Option Entry} {classification : Classification}
    (hentry : readEntry today isin order raw = .ok entry)
    (hclass : classifyTransaction today raw = .ok classification) :
    entry.bind Entry.acquired = classification.lot := by
  have hlot : ∀ lot, classification = .complete lot → States today raw lot := fun lot hlot =>
    complete_spec (hlot ▸ hclass)
  unfold readEntry at hentry
  by_cases hdisposal : raw.isDisposal = true
  · rw [if_pos hdisposal] at hentry
    obtain ⟨day, -, hentry⟩ := bind_eq_ok.mp hentry
    obtain rfl := Except.ok.inj hentry
    cases classification with
    | complete lot => exact absurd hdisposal (by simp [(hlot lot rfl).not_disposal])
    | excluded exclusion => rfl
  rw [if_neg hdisposal] at hentry
  by_cases hacquisition : raw.isAcquisition = true
  · rw [if_neg (not_not.mpr hacquisition)] at hentry
    obtain ⟨found, hfound, hentry⟩ := bind_eq_ok.mp hentry
    obtain rfl := Except.ok.inj (hclass.symm.trans hfound)
    cases classification with
    | complete lot =>
      obtain rfl := Except.ok.inj hentry
      rfl
    | excluded exclusion =>
      obtain rfl := Except.ok.inj hentry
      unfold incomplete
      split_ifs <;> rfl
  · rw [if_pos hacquisition] at hentry
    obtain rfl := Except.ok.inj hentry
    cases classification with
    | complete lot => exact absurd (hlot lot rfl).acquisition hacquisition
    | excluded exclusion => rfl

/-- The lots that the disposals are taken from are those that have keys. -/
theorem acquired_eq {order : ℕ} {results : List Classification}
    (hentries : readEntries today order (transactions.map .ok) = .ok entries)
    (hresults : transactions.mapM (classifyTransaction today) = .ok results) :
    entries.filterMap Entry.acquired = results.filterMap Classification.lot := by
  induction transactions generalizing order entries results with
  | nil =>
    obtain rfl := Except.ok.inj hentries
    rw [List.mapM_nil] at hresults
    obtain rfl := Except.ok.inj hresults
    rfl
  | cons raw rest ih =>
    rw [List.mapM_cons] at hresults
    obtain ⟨classification, hclass, hresults⟩ := bind_eq_ok.mp hresults
    obtain ⟨more, hmore, hresults⟩ := bind_eq_ok.mp hresults
    obtain rfl := Except.ok.inj hresults
    rw [List.map_cons, readEntries] at hentries
    obtain ⟨read, hread, hentries⟩ := bind_eq_ok.mp hentries
    obtain rfl := Except.ok.inj hread
    cases hisin : raw.txnIsin with
    | none =>
      rw [hisin] at hentries
      rw [ih hentries hmore]
      cases classification with
      | complete lot => exact absurd (hisin.symm.trans (complete_spec hclass).isin) (by simp)
      | excluded exclusion => rfl
    | some isin =>
      rw [hisin] at hentries
      obtain ⟨first, hfirst, hentries⟩ := bind_eq_ok.mp hentries
      obtain ⟨later, hlater, hentries⟩ := bind_eq_ok.mp hentries
      obtain rfl := Except.ok.inj hentries
      have hhead := acquired_of_readEntry hfirst hclass
      rw [List.filterMap_append, ih hlater hmore, List.filterMap_cons, ← hhead]
      cases first with
      | none => rfl
      | some entry =>
        cases hacquired : entry.acquired <;> simp [hacquired]

/-! ### What is reported -/

/-- A disposal among the transactions was taken from the lot, and its instrument is resolved. -/
def Consumed (today : Int) (sources : List PayloadSource) (lot : CompleteLot) : Prop :=
  ∃ transactions consumption lots, canonicalRawTransactions today sources = .ok transactions ∧
    resolveLotConsumption today [document transactions] = .ok consumption ∧
    completeLots today transactions = .ok lots ∧ lot ∈ lots ∧
    ∃ reported ∈ consumption.remaining, reported.1.toNatural = lot.natural

/-- The disposals of the instrument are not resolved. -/
def Unresolved (today : Int) (sources : List PayloadSource) (isin : String) : Prop :=
  ∃ transactions consumption, canonicalRawTransactions today sources = .ok transactions ∧
    resolveLotConsumption today [document transactions] = .ok consumption ∧
    isin ∈ consumption.unresolvedInstruments

variable {consumption : LotConsumption} {sources : List PayloadSource}

/-- A resolved lot's instrument is not unresolved. -/
theorem Consumed.not_unresolved (h : Consumed today sources lot) :
    ¬ Unresolved today sources lot.instrumentId := by
  rintro ⟨transactions, consumption, htransactions, hconsumption, hunresolved⟩
  obtain ⟨transactions', consumption', lots, htransactions', hconsumption', -, -, reported,
    hreported, hnatural⟩ := h
  obtain rfl := Except.ok.inj (htransactions.symm.trans htransactions')
  obtain rfl := Except.ok.inj (hconsumption.symm.trans hconsumption')
  obtain ⟨facts, -, rfl⟩ := map_eq_ok.mp hconsumption
  obtain ⟨fact, -, hresolved, -, rfl⟩ := mem_remaining.mp hreported
  have hinstrument : fact.key.instrumentId = lot.instrumentId := congrArg (·.instrumentId) hnatural
  exact hresolved (hinstrument ▸ hunresolved)

/-- **What is reported is a lot of the transactions, and found under the lot's own facts.** -/
theorem reported_key (portfolioKey : String)
    (hconsumption : resolveLotConsumption today [document transactions] = .ok consumption)
    (hlots : completeLots today transactions = .ok lots)
    {reported : LotKey × ℚ} (hreported : reported ∈ consumption.remaining) :
    ∃ lot ∈ lots, reported.1.toNatural = lot.natural ∧
      (∀ other ∈ lots, other.natural = lot.natural → other = lot) ∧
      (keyMap portfolioKey lots).find? (·.1 = reported.1) =
        some (reported.1, ⟨lot.fullBase portfolioKey, 0⟩) := by
  obtain ⟨facts, hfacts, rfl⟩ := map_eq_ok.mp hconsumption
  have hpos : ∀ fact ∈ facts.lots, 0 < fact.quantity := fun fact => readFacts_pos hfacts
  obtain ⟨fact, hfact, -, hchanged, rfl⟩ := mem_remaining.mp hreported
  have hshared := not_shared_of_reported hpos hfact hchanged
  obtain ⟨entries, hentries, rfl⟩ := map_eq_ok.mp hfacts
  obtain ⟨p, hp, rfl⟩ := List.mem_map.mp hfact
  have hitems : [document transactions].flatMap Payload.items = transactions.map .ok := by
    simp [document, Payload.items]
  rw [hitems] at hentries
  obtain ⟨results, hresults, rfl⟩ := map_eq_ok.mp hlots
  have halone := countP_natural_le hshared
  rw [acquired_eq hentries hresults] at halone hp
  refine ⟨p.1, mem_of_mem_number hp, rfl, fun other hother hnatural => ?_,
    (find_keyMap hp halone).2⟩
  obtain ⟨one, hone⟩ := List.length_eq_one_iff.mp (le_antisymm
    (List.countP_eq_length_filter ▸ halone) (List.length_pos_of_mem
      (List.mem_filter.mpr ⟨mem_of_mem_number hp, decide_eq_true rfl⟩)))
  have heq : ∀ x ∈ results.filterMap Classification.lot, x.natural = p.1.natural → x = one :=
    fun x hx hxp => List.mem_singleton.mp (hone ▸ List.mem_filter.mpr ⟨hx, decide_eq_true hxp⟩)
  rw [heq other hother hnatural, heq p.1 (mem_of_mem_number hp) rfl]

namespace CanonicalLotConsumption

variable {state next : CanonicalLotConsumption}

omit [UnicodeTables] [CasReaders] in
theorem mem_assign {key k : CanonicalLotKey} {quantity : ℚ}
    {remaining : List (CanonicalLotKey × ℚ)} :
    k ∈ (assign key quantity remaining).map Prod.fst ↔
      k ∈ remaining.map Prod.fst ∨ k = key := by
  unfold assign
  split_ifs with hany
  · obtain ⟨entry, hentry, hkey⟩ := List.any_eq_true.mp hany
    have hsame : (remaining.map fun entry => if entry.1 = key then (key, quantity) else entry).map
        Prod.fst = remaining.map Prod.fst := by
      rw [List.map_map]
      refine List.map_congr_left fun entry _ => ?_
      by_cases hkey : entry.1 = key
      · simp [hkey]
      · simp [hkey]
    rw [hsame]
    refine ⟨.inl, fun h => h.elim id fun hk => ?_⟩
    rw [hk, ← of_decide_eq_true hkey]
    exact List.mem_map_of_mem hentry
  · rw [List.map_append, List.mem_append, List.map_singleton, List.mem_singleton]

omit [UnicodeTables] [CasReaders] in
/-- Reports that all have keys. -/
theorem foldl_report {keyMap : List (LotKey × CanonicalLotKey)} (portfolio : String)
    (state : CanonicalLotConsumption) {reports : List (LotKey × ℚ)} {target : LotKey → CanonicalLotKey}
    (h : ∀ reported ∈ reports, keyMap.find? (·.1 = reported.1) =
      some (reported.1, target reported.1)) :
    (reports.foldl (report keyMap portfolio) state).unresolved = state.unresolved ∧
      ∀ key, key ∈ (reports.foldl (report keyMap portfolio) state).remaining.map Prod.fst ↔
        key ∈ state.remaining.map Prod.fst ∨ ∃ reported ∈ reports, key = target reported.1 := by
  induction reports generalizing state with
  | nil => exact ⟨rfl, fun key => by simp⟩
  | cons reported rest ih =>
    have hstep : report keyMap portfolio state reported =
        { state with remaining := assign (target reported.1) reported.2 state.remaining } := by
      rw [report, h reported List.mem_cons_self]
    obtain ⟨hunresolved, hkeys⟩ := ih (report keyMap portfolio state reported)
      fun later hlater => h later (List.mem_cons_of_mem _ hlater)
    rw [hstep] at hunresolved hkeys
    rw [List.foldl_cons, hstep]
    refine ⟨hunresolved, fun key => (hkeys key).trans ?_⟩
    rw [mem_assign, List.exists_mem_cons_iff, or_assoc]

end CanonicalLotConsumption

/-- What is known of the loop after some portfolios. -/
structure Reports (today : Int) (done : List (String × List PayloadSource))
    (state : CanonicalLotConsumption) : Prop where
  keys : ∀ key, key ∈ state.remaining.map Prod.fst ↔ ∃ portfolio ∈ done, ∃ lot,
    Consumed today portfolio.2 lot ∧ key = ⟨lot.fullBase portfolio.1, 0⟩
  unresolved : ∀ u ∈ state.unresolved, ∃ portfolio ∈ done,
    u.1 = upper (strip portfolio.1) ∧ Unresolved today portfolio.2 u.2

/-- One more portfolio. -/
theorem Reports.consumePortfolio {done : List (String × List PayloadSource)}
    {portfolio : String × List PayloadSource} {state next : CanonicalLotConsumption}
    (h : Reports today done state)
    (hnext : consumePortfolio today state portfolio = .ok next) :
    Reports today (done ++ [portfolio]) next := by
  obtain ⟨transactions, htransactions, hnext⟩ := bind_eq_ok.mp hnext
  obtain ⟨consumption, hconsumption, hnext⟩ := bind_eq_ok.mp hnext
  obtain ⟨keys, hkeys, hnext⟩ := bind_eq_ok.mp hnext
  obtain rfl := Except.ok.inj hnext
  obtain ⟨lots, hlots, rfl⟩ := map_eq_ok.mp hkeys
  have hfound : ∀ reported ∈ consumption.remaining, ∃ lot, Consumed today portfolio.2 lot ∧
      (keyMap portfolio.1 lots).find? (·.1 = reported.1) =
        some (reported.1, ⟨lot.fullBase portfolio.1, 0⟩) := by
    intro reported hreported
    obtain ⟨lot, hlot, hnatural, -, hfind⟩ := reported_key portfolio.1 hconsumption hlots
      hreported
    exact ⟨lot, ⟨transactions, consumption, lots, htransactions, hconsumption, hlots, hlot,
      reported, hreported, hnatural⟩, hfind⟩
  let target (key : LotKey) : CanonicalLotKey :=
    (((keyMap portfolio.1 lots).find? (·.1 = key)).map (·.2)).getD ⟨⟨"", "", "", 0, none, 0, 0, 0,
      "", none⟩, 0⟩
  have htarget : ∀ reported ∈ consumption.remaining,
      (keyMap portfolio.1 lots).find? (·.1 = reported.1) =
        some (reported.1, target reported.1) := by
    intro reported hreported
    obtain ⟨lot, -, hfind⟩ := hfound reported hreported
    simp only [target, hfind, Option.map_some, Option.getD_some]
  obtain ⟨hunresolved, hmem⟩ := CanonicalLotConsumption.foldl_report (upper (strip portfolio.1))
    { state with
      unresolved := state.unresolved ++
        consumption.unresolvedInstruments.map (upper (strip portfolio.1), ·) } htarget
  refine ⟨fun key => (hmem key).trans ?_, fun u hu => ?_⟩
  · rw [h.keys key]
    constructor
    · rintro (⟨one, hone, hlot⟩ | ⟨reported, hreported, rfl⟩)
      · exact ⟨one, List.mem_append_left _ hone, hlot⟩
      · obtain ⟨lot, hlot, hfind⟩ := hfound reported hreported
        refine ⟨portfolio, by simp, lot, hlot, ?_⟩
        exact (Prod.mk.inj (Option.some.inj ((htarget reported hreported).symm.trans hfind))).2
    · rintro ⟨one, hone, lot, hlot, rfl⟩
      rcases List.mem_append.mp hone with hone | hone
      · exact .inl ⟨one, hone, lot, hlot, rfl⟩
      · obtain rfl := List.mem_singleton.mp hone
        obtain ⟨transactions', consumption', lots', htransactions', hconsumption', hlots', hmem',
          reported, hreported, hnatural⟩ := hlot
        obtain rfl := Except.ok.inj (htransactions.symm.trans htransactions')
        obtain rfl := Except.ok.inj (hconsumption.symm.trans hconsumption')
        obtain rfl := Except.ok.inj (hlots.symm.trans hlots')
        obtain ⟨own, -, hown, honly, hfind⟩ := reported_key one.1 hconsumption
          hlots hreported
        obtain rfl := honly lot hmem' (hnatural.symm.trans hown)
        refine .inr ⟨reported, hreported, ?_⟩
        exact (Prod.mk.inj (Option.some.inj (hfind.symm.trans (htarget reported hreported)))).2
  · rw [hunresolved] at hu
    rcases List.mem_append.mp hu with hu | hu
    · obtain ⟨one, hone, hrest⟩ := h.unresolved u hu
      exact ⟨one, List.mem_append_left _ hone, hrest⟩
    · obtain ⟨isin, hisin, rfl⟩ := List.mem_map.mp hu
      exact ⟨portfolio, by simp, rfl, transactions, consumption, htransactions, hconsumption, hisin⟩

theorem Reports.foldlM {done rest : List (String × List PayloadSource)}
    {state next : CanonicalLotConsumption} (h : Reports today done state)
    (hnext : rest.foldlM (Investments.consumePortfolio today) state = .ok next) :
    Reports today (done ++ rest) next := by
  induction rest generalizing done state with
  | nil =>
    obtain rfl := Except.ok.inj hnext
    rwa [List.append_nil]
  | cons portfolio rest ih =>
    rw [List.foldlM_cons] at hnext
    obtain ⟨mid, hmid, hnext⟩ := bind_eq_ok.mp hnext
    rw [← List.singleton_append, ← List.append_assoc]
    exact ih (h.consumePortfolio hmid) hnext

/-! ### The portfolios -/

variable {uploads : List CasUpload} {portfolio : String × List PayloadSource}
  {source : PayloadSource} {raw : RawTransaction}

omit [CasReaders] in
/-- A portfolio's sources are all uploads of it that have a document. -/
theorem mem_portfolios (h : portfolio ∈ portfolios uploads) :
    (∃ portfolioKey, portfolio.1 = upper (strip portfolioKey)) ∧
      ∀ source, source ∈ portfolio.2 ↔ source.upload ∈ uploads ∧
        source.upload.payload = some source.payload ∧
        upper (strip source.upload.portfolioKey) = portfolio.1 := by
  obtain ⟨key, hkey, rfl⟩ := List.mem_map.mp h
  obtain ⟨first, -, hfirst⟩ := mem_keysOf.mp hkey
  refine ⟨⟨first.upload.portfolioKey, hfirst.symm⟩, fun source => ?_⟩
  simp only [List.mem_filter, List.mem_filterMap, List.mem_insertionSort, Option.map_eq_some_iff,
    decide_eq_true_eq]
  constructor
  · rintro ⟨⟨upload, hupload, payload, hpayload, rfl⟩, heq⟩
    exact ⟨hupload, hpayload, heq⟩
  · rintro ⟨hupload, hpayload, heq⟩
    exact ⟨⟨source.upload, hupload, source.payload, hpayload, rfl⟩, heq⟩

omit [CasReaders] in
theorem portfolio_eq {other : String × List PayloadSource} (h : portfolio ∈ portfolios uploads)
    (hother : other ∈ portfolios uploads) (heq : other.1 = portfolio.1) : other = portfolio := by
  obtain ⟨key, -, rfl⟩ := List.mem_map.mp h
  obtain ⟨key', -, rfl⟩ := List.mem_map.mp hother
  obtain rfl : key' = key := heq
  rfl

/-- **The keys that are reported** are those of the lots that were drawn on. -/
theorem reported_iff [StableTables] {consumption : CanonicalLotConsumption}
    (h : getCanonicalLotConsumption today uploads = .ok consumption) {key : CanonicalLotKey} :
    key ∈ consumption.remaining.map Prod.fst ↔ ∃ portfolio ∈ portfolios uploads, ∃ lot,
      Consumed today portfolio.2 lot ∧ key = ⟨lot.fullBase portfolio.1, 0⟩ := by
  obtain ⟨state, hstate, h⟩ := bind_eq_ok.mp h
  obtain rfl := Except.ok.inj h
  have hstart : Reports today [] ⟨[], []⟩ :=
    ⟨fun key => ⟨fun hkey => absurd hkey List.not_mem_nil, fun ⟨_, hone, _⟩ =>
      absurd hone List.not_mem_nil⟩, fun u hu => absurd hu List.not_mem_nil⟩
  have hreports := hstart.foldlM hstate
  rw [List.nil_append] at hreports
  refine Iff.trans ⟨fun hkey => ?_, fun hkey => ?_⟩ (hreports.keys key)
  · obtain ⟨entry, hentry, rfl⟩ := List.mem_map.mp hkey
    exact List.mem_map_of_mem (List.mem_filter.mp hentry).1
  · obtain ⟨portfolio, hportfolio, lot, hlot, rfl⟩ := (hreports.keys key).mp hkey
    obtain ⟨entry, hentry, hentrykey⟩ := List.mem_map.mp hkey
    refine List.mem_map.mpr ⟨entry, List.mem_filter.mpr ⟨hentry, decide_eq_true fun hmem => ?_⟩,
      hentrykey⟩
    obtain ⟨other, hother, hname, hunresolved⟩ := hreports.unresolved _ hmem
    rw [hentrykey] at hname hunresolved
    obtain ⟨⟨one, hone⟩, -⟩ := mem_portfolios hportfolio
    obtain ⟨⟨two, htwo⟩, -⟩ := mem_portfolios hother
    have hsame : other.1 = portfolio.1 := by
      have hname : upper (strip portfolio.1) = upper (strip other.1) := hname
      rw [hone, htwo, upper_strip_again, upper_strip_again] at hname
      rw [hone, htwo, hname]
    rw [portfolio_eq hportfolio hother hsame] at hunresolved
    exact hlot.not_unresolved hunresolved

/-- A merged transaction is one of some source. -/
theorem exists_source (h : canonicalRawTransactions today sources = .ok transactions)
    (hraw : raw ∈ transactions) : ∃ source ∈ sources, source.payload.Has raw := by
  obtain ⟨lists, hlists, h⟩ := bind_eq_ok.mp h
  obtain rfl := Except.ok.inj h
  obtain ⟨transaction, htransaction, rfl⟩ := List.mem_map.mp hraw
  obtain ⟨overlap, hoverlap, hmin⟩ :=
    List.mem_filterMap.mp ((List.mem_insertionSort _).mp htransaction)
  obtain ⟨representative, hrepresentative, rfl⟩ := Option.map_eq_some_iff.mp hmin
  have hmem : representative ∈ overlap.candidates := List.minOn?_mem hrepresentative
  obtain ⟨list, hlist, hcandidate⟩ := List.mem_flatten.mp
    (Numbering.mem_candidates (fun members => List.perm_insertionSort _ _) hoverlap hmem).1
  obtain ⟨source, hsource, hrun⟩ := exists_left (forall₂_of_mapM hlists) hlist
  refine ⟨source, hsource, ?_⟩
  unfold PayloadSource.candidates at hrun
  cases hitems : source.payload.transactions with
  | none =>
    rw [hitems] at hrun
    cases hrun
  | some items =>
    rw [hitems] at hrun
    obtain ⟨row, hrow, hread⟩ := exists_left (forall₂_of_mapM hrun) hcandidate
    obtain ⟨fingerprint, -, rfl⟩ := map_eq_ok.mp hread
    obtain ⟨item, hitem, hsome⟩ := List.mem_filterMap.mp hrow
    obtain ⟨raw, hfound, rfl⟩ := Option.map_eq_some_iff.mp hsome
    exact ⟨items, hitems, hfound ▸ List.fst_mem_of_mem_zipIdx hitem⟩

end

/-! ### The stored lots -/

section

variable [UnicodeTables] [CasReaders] {columns : LotColumns} {day : Nat → Int} {today : Int}
  {tables : CasTables} {upload : CasUpload} {payload : Payload} {lot : CompleteLot}

/-- The lots of each upload were stored by a run, on some day. -/
structure Persisted (columns : LotColumns) (day : Nat → Int) (tables : CasTables) : Prop where
  run : ∀ upload ∈ tables.uploads, ∀ payload, upload.payload = some payload →
    ∃ before creation,
      createInvestmentLots columns (day upload.id) before upload.id payload = .ok creation ∧
      before.ofUpload upload.id = [] ∧
      tables.lots.ofUpload upload.id = creation.table.ofUpload upload.id
  undecoded : ∀ upload ∈ tables.uploads, upload.payload = none →
    tables.lots.ofUpload upload.id = []

theorem Persisted.keys (h : Persisted columns day tables) (hupload : upload ∈ tables.uploads)
    (hpayload : upload.payload = some payload) :
    ∃ result, extractLotsFromPayload (day upload.id) payload = .ok result ∧
      tables.lots.keys upload.id = result.lots.map columns.stored := by
  obtain ⟨before, creation, hrun, hbefore, hlots⟩ := h.run upload hupload payload hpayload
  obtain ⟨result, hresult, hcreated⟩ := createInvestmentLots_spec hrun
  have hkeys : before.keys upload.id = [] := by rw [LotTable.keys, hbefore, List.map_nil]
  have habsent : absent [] result.lots = result.lots :=
    absent_of_disjoint (nodup_sourceKeys hresult).of_map fun _ _ => List.not_mem_nil
  refine ⟨result, hresult, ?_⟩
  rw [LotTable.keys, hlots]
  refine hcreated.keys.trans ?_
  rw [hkeys, habsent, List.nil_append]

variable [StableTables]

omit [CasReaders] [StableTables] in
theorem Json.exists_strip {value : Json} {text : String} (h : value.stripped = some text) :
    ∃ s, text = strip s ∧ strip s ≠ "" := by
  cases value with
  | text s =>
    rw [Json.stripped] at h
    split_ifs at h with hblank
    exact ⟨s, (Option.some.inj h).symm, hblank⟩
  | null => cases h
  | other shown truthy => cases h

omit [CasReaders] in
theorem upper_strip_casCurrency : upper (strip casCurrency) = casCurrency :=
  upper_strip_of_capitals (by simp [casCurrency])

omit [CasReaders] in
/-- A transaction type is in lower case already. -/
theorem lower_ttype {raw : RawTransaction} (h : raw.isAcquisition = true) :
    (normalizedReference (some raw.ttype)).map lower = some raw.ttype := by
  have hne : raw.ttype ≠ "" := (of_decide_eq_true h).1
  obtain ⟨text, htext⟩ : ∃ text, raw.transactionType.stripped = some text := by
    refine Option.ne_none_iff_exists'.mp fun hnone => hne ?_
    rw [RawTransaction.ttype, hnone]
    rfl
  obtain ⟨s, rfl, hstrip⟩ := Json.exists_strip htext
  have htype : raw.ttype = lower (strip s) := by
    rw [RawTransaction.ttype, htext]
    rfl
  have hlower : lower (lower (strip s)) = lower (strip s) := lower_lower (strip s)
  rw [htype, normalizedReference, Option.bind_some, Json.stripped, strip_lower_strip,
    if_neg (lower_strip_ne hstrip), Option.map_some, hlower]

/-- **A stored lot has the base of its numbers.** -/
theorem canonicalBase_stored {result : LotExtractionResult}
    (hresult : extractLotsFromPayload today payload = .ok result) (hlot : lot ∈ result.lots)
    (portfolioKey : String) : canonicalBase (columns.stored lot) portfolioKey =
      (columns.stored lot).fullBase portfolioKey := by
  obtain ⟨raw, -, hclass⟩ := of_mem_lots hresult hlot
  have hstates := complete_spec hclass
  obtain ⟨text, htext, hisin⟩ := Option.map_eq_some_iff.mp hstates.isin
  have hinstrument : upper (strip lot.instrumentId) = lot.instrumentId := by
    obtain ⟨s, rfl, -⟩ := Json.exists_strip htext
    have hupper : upper (strip s) = lot.instrumentId := hisin
    rw [← hupper, upper_strip_again]
  have hcurrency : upper (strip lot.currency) = lot.currency := by
    have hinr : lot.currency = casCurrency := hstates.currency
    rw [hinr, upper_strip_casCurrency]
  have htype : (normalizedReference lot.transactionType).map lower = lot.transactionType := by
    have httype : lot.transactionType = some raw.ttype := hstates.transactionType
    rw [httype, lower_ttype hstates.acquisition]
  simp only [canonicalBase, CompleteLot.fullBase, LotColumns.stored, hinstrument, hcurrency, htype]

/-- The portfolio's uploads stated the lot, up to the rounding of the columns, on the day on
which they were stored as well. -/
def Stated (columns : LotColumns) (day : Nat → Int) (uploads : List CasUpload)
    (portfolioKey : String) (lot : CompleteLot) : Prop :=
  ∃ upload ∈ uploads, ∃ payload, upload.payload = some payload ∧
    ∃ result, extractLotsFromPayload (day upload.id) payload = .ok result ∧
      ∃ other ∈ result.lots, (columns.stored other).fullBase upload.portfolioKey =
        lot.fullBase portfolioKey

/-- **Which keys the canonical lots have.** -/
theorem exists_canonical_zero_iff (h : Persisted columns day tables) {portfolioKey : String} :
    (∃ canonical ∈ getCanonicalLots tables, canonical.key = ⟨lot.fullBase portfolioKey, 0⟩) ↔
      Stated columns day tables.uploads portfolioKey lot := by
  rw [exists_canonical_iff]
  refine exists_congr fun upload => and_congr_right fun hupload => ?_
  rw [List.count_pos_iff]
  have hbases : tables.bases upload = (tables.lots.keys upload.id).map
      (canonicalBase · upload.portfolioKey) := by
    rw [CasTables.bases, LotTable.keys, List.map_map]
    rfl
  rw [hbases]
  constructor
  · intro hmem
    cases hpayload : upload.payload with
    | none =>
      rw [LotTable.keys, h.undecoded upload hupload hpayload] at hmem
      exact absurd hmem List.not_mem_nil
    | some payload =>
      obtain ⟨result, hresult, hkeys⟩ := h.keys hupload hpayload
      rw [hkeys, List.map_map] at hmem
      obtain ⟨other, hother, hbase⟩ := List.mem_map.mp hmem
      exact ⟨payload, rfl, result, hresult, other, hother,
        (canonicalBase_stored hresult hother upload.portfolioKey).symm.trans hbase⟩
  · rintro ⟨payload, hpayload, result, hresult, other, hother, hbase⟩
    obtain ⟨stored, hstored, hkeys⟩ := h.keys hupload hpayload
    obtain rfl := Except.ok.inj (hstored.symm.trans hresult)
    rw [hkeys, List.map_map]
    exact List.mem_map.mpr ⟨other, hother,
      (canonicalBase_stored hresult hother upload.portfolioKey).trans hbase⟩

/-! ### Keys that line up -/

/-- What is reported is reported of canonical lots. -/
def LinesUp (tables : CasTables) (consumption : CanonicalLotConsumption) : Prop :=
  ∀ reported ∈ consumption.remaining, ∃ lot ∈ getCanonicalLots tables, lot.key = reported.1

/-- On the day on which an upload was stored its transactions were read as they are today. -/
def ReadsAlike (day : Nat → Int) (today : Int) (uploads : List CasUpload) : Prop :=
  ∀ upload ∈ uploads, ∀ payload, upload.payload = some payload → ∀ raw, payload.Has raw →
    classifyTransaction (day upload.id) raw = classifyTransaction today raw

omit [StableTables] in
/-- What is stored is held. -/
theorem Stated.holds {portfolioKey : String} {uploads : List CasUpload}
    (h : Stated columns day uploads portfolioKey lot) : columns.Holds lot := by
  obtain ⟨upload, -, payload, -, result, -, other, -, hbase⟩ := h
  simp only [CompleteLot.fullBase, CanonicalBase.mk.injEq] at hbase
  obtain ⟨-, -, -, -, -, hquantity, hcost, hbasis, -⟩ := hbase
  exact ⟨Column.holds_iff.mpr ⟨other.quantity, hquantity⟩, Column.holds_iff.mpr ⟨_, hcost⟩,
    Column.holds_iff.mpr ⟨_, hbasis⟩⟩

/-- A lot that was drawn on was stored, if it was read so. -/
theorem Consumed.stated {portfolio : String × List PayloadSource}
    (h : Consumed today portfolio.2 lot) (hportfolio : portfolio ∈ portfolios tables.uploads)
    (hpersisted : Persisted columns day tables)
    (halike : ReadsAlike day today tables.uploads) (hholds : columns.Holds lot) :
    Stated columns day tables.uploads portfolio.1 lot := by
  obtain ⟨transactions, -, lots, htransactions, -, hlots, hmem, -⟩ := h
  obtain ⟨results, hresults, rfl⟩ := map_eq_ok.mp hlots
  obtain ⟨classification, hc, hcomplete⟩ := List.mem_filterMap.mp hmem
  obtain ⟨raw, hraw, hclass⟩ := exists_left (forall₂_of_mapM hresults) hc
  obtain ⟨source, hsource, hhas⟩ := exists_source htransactions hraw
  obtain ⟨hupload, hpayload, hname⟩ := ((mem_portfolios hportfolio).2 source).mp hsource
  have hread : classifyTransaction (day source.upload.id) raw = .ok (.complete lot) := by
    rw [halike source.upload hupload source.payload hpayload raw hhas, hclass]
    cases classification with
    | complete found => rw [← Option.some.inj hcomplete]
    | excluded exclusion => cases hcomplete
  obtain ⟨result, hresult, -⟩ := hpersisted.keys hupload hpayload
  obtain ⟨n, hn⟩ := exists_mem_lots hresult hhas hread
  refine ⟨source.upload, hupload, source.payload, hpayload, result, hresult, _, hn, ?_⟩
  have hstored : columns.stored (lot.withOccurrence n) = lot.withOccurrence n :=
    LotColumns.stored_eq hholds
  have hportfolio : upper (strip portfolio.1) = upper (strip source.upload.portfolioKey) := by
    rw [← hname, upper_strip_again]
  rw [hstored]
  simp only [CompleteLot.fullBase, CompleteLot.withOccurrence, hportfolio]

/-- **The keys line up if and only if the columns hold every lot that is drawn on**, and its
portfolio's uploads stated it on the day on which they were stored as well, as they do when
the days read alike. -/
theorem linesUp_iff {consumption : CanonicalLotConsumption}
    (hpersisted : Persisted columns day tables)
    (h : getCanonicalLotConsumption today tables.uploads = .ok consumption) :
    (LinesUp tables consumption ↔ ∀ portfolio ∈ portfolios tables.uploads, ∀ lot,
      Consumed today portfolio.2 lot → columns.Holds lot ∧
        Stated columns day tables.uploads portfolio.1 lot) ∧
    (ReadsAlike day today tables.uploads →
      (LinesUp tables consumption ↔ ∀ portfolio ∈ portfolios tables.uploads, ∀ lot,
        Consumed today portfolio.2 lot → columns.Holds lot)) := by
  have hiff : LinesUp tables consumption ↔ ∀ portfolio ∈ portfolios tables.uploads, ∀ lot,
      Consumed today portfolio.2 lot → Stated columns day tables.uploads portfolio.1 lot := by
    constructor
    · intro hlines portfolio hportfolio lot hlot
      have hreported : (⟨lot.fullBase portfolio.1, 0⟩ : CanonicalLotKey) ∈
          consumption.remaining.map Prod.fst :=
        (reported_iff h).mpr ⟨portfolio, hportfolio, lot, hlot, rfl⟩
      obtain ⟨reported, hmem, hkey⟩ := List.mem_map.mp hreported
      obtain ⟨canonical, hcanonical, hsame⟩ := hlines reported hmem
      exact (exists_canonical_zero_iff hpersisted).mp ⟨canonical, hcanonical, hsame.trans hkey⟩
    · intro hstated reported hreported
      obtain ⟨portfolio, hportfolio, lot, hlot, hkey⟩ :=
        (reported_iff h).mp (List.mem_map_of_mem hreported)
      rw [hkey]
      exact (exists_canonical_zero_iff hpersisted).mpr (hstated portfolio hportfolio lot hlot)
  refine ⟨hiff.trans ?_, fun halike => hiff.trans ?_⟩
  · exact ⟨fun hall portfolio hportfolio lot hlot =>
        ⟨(hall portfolio hportfolio lot hlot).holds, hall portfolio hportfolio lot hlot⟩,
      fun hall portfolio hportfolio lot hlot => (hall portfolio hportfolio lot hlot).2⟩
  · exact ⟨fun hall portfolio hportfolio lot hlot => (hall portfolio hportfolio lot hlot).holds,
      fun hall portfolio hportfolio lot hlot =>
        hlot.stated hportfolio hpersisted halike (hall portfolio hportfolio lot hlot)⟩

end

/-! ### A purchase that is partly redeemed -/

/-- An upload with a purchase of so many units, one of which is redeemed. -/
def redeemed (units : String) : CasUpload :=
  ⟨1, "ABCDE1234F", 739700, "NSDL", some (document [purchase units "10" "101.23",
    redemption "-1"])⟩

/-- One upload and its lots. -/
def CasTables.single (upload : CasUpload) (lots : LotTable) : CasTables :=
  ⟨[upload], lots, List.nodup_singleton _⟩

theorem persisted_single [UnicodeTables] [CasReaders] {columns : LotColumns} {today : Int}
    {upload : CasUpload} {payload : Payload} {creation : Creation}
    (hpayload : upload.payload = some payload)
    (hrun : createInvestmentLots columns today .empty upload.id payload = .ok creation) :
    Persisted columns (fun _ => today) (.single upload creation.table) := by
  refine ⟨fun one hone document hdocument => ?_, fun one hone hnone => ?_⟩
  · obtain rfl := List.mem_singleton.mp hone
    obtain rfl := Option.some.inj (hpayload.symm.trans hdocument)
    exact ⟨.empty, creation, hrun, rfl, rfl⟩
  · obtain rfl := List.mem_singleton.mp hone
    cases hpayload.symm.trans hnone

/-- What is left of ten units and a fraction of seven places is reported of a lot that there
is not. -/
theorem not_linesUp :
    let _ := asciiTables
    let _ := plainCasReaders
    ∃ tables consumption, Persisted roundedColumns (fun _ => 739726) tables ∧
      tables.uploads = [redeemed "10.1234567"] ∧
      getCanonicalLotConsumption 739726 tables.uploads = .ok consumption ∧
      ¬ LinesUp tables consumption := by
  intro _ _
  have hview : (createInvestmentLots roundedColumns 739726 .empty 1 (document
        [purchase "10.1234567" "10" "101.23", redemption "-1"]) >>= fun creation =>
      (getCanonicalLotConsumption 739726 [redeemed "10.1234567"]).map fun consumption =>
        (consumption.remaining.map (·.1.quantity),
          (getCanonicalLots (.single (redeemed "10.1234567") creation.table)).map
            (·.key.quantity))) = .ok ([101234567 / 10000000], [10123457 / 1000000]) := by
    decide +kernel
  obtain ⟨creation, hcreation, hview⟩ := bind_eq_ok.mp hview
  obtain ⟨consumption, hconsumption, hview⟩ := map_eq_ok.mp hview
  obtain ⟨hremaining, hcanonical⟩ := Prod.mk.inj hview
  refine ⟨.single (redeemed "10.1234567") creation.table, consumption,
    persisted_single rfl hcreation, rfl, hconsumption, fun hlines => ?_⟩
  have hreported : (101234567 / 10000000 : ℚ) ∈ consumption.remaining.map (·.1.quantity) := by
    rw [hremaining]
    exact List.mem_singleton_self _
  obtain ⟨reported, hmem, hquantity⟩ := List.mem_map.mp hreported
  obtain ⟨lot, hlot, hkey⟩ := hlines reported hmem
  have hstored := List.mem_map_of_mem (f := (·.key.quantity)) hlot
  rw [hcanonical, List.mem_singleton, hkey, hquantity] at hstored
  exact absurd hstored (by norm_num)

/-- Of six places, it is reported of the lot. -/
theorem linesUp_six_places :
    let _ := asciiTables
    let _ := plainCasReaders
    ∃ tables consumption, Persisted roundedColumns (fun _ => 739726) tables ∧
      tables.uploads = [redeemed "10.123456"] ∧
      getCanonicalLotConsumption 739726 tables.uploads = .ok consumption ∧
      consumption.remaining ≠ [] ∧ LinesUp tables consumption := by
  intro _ _
  have := asciiStable
  have hrun : (createInvestmentLots roundedColumns 739726 .empty 1 (document
      [purchase "10.123456" "10" "101.23", redemption "-1"])).map (·.created) = .ok 1 := by
    decide +kernel
  have hview : (getCanonicalLotConsumption 739726 [redeemed "10.123456"]).map
      (·.remaining.length) = .ok 1 := by decide +kernel
  have hheld : ∀ portfolio ∈ portfolios [redeemed "10.123456"],
      (canonicalRawTransactions 739726 portfolio.2 >>= fun transactions =>
        (completeLots 739726 transactions).map (·.all (decide <| roundedColumns.Holds ·))) =
        .ok true := by decide +kernel
  obtain ⟨creation, hcreation, -⟩ := map_eq_ok.mp hrun
  obtain ⟨consumption, hconsumption, hlength⟩ := map_eq_ok.mp hview
  have hpersisted : Persisted roundedColumns (fun _ => 739726)
      (.single (redeemed "10.123456") creation.table) := persisted_single rfl hcreation
  refine ⟨_, consumption, hpersisted, rfl, hconsumption,
    List.ne_nil_of_length_pos (hlength ▸ Nat.one_pos), ?_⟩
  refine ((linesUp_iff hpersisted hconsumption).2 fun _ _ _ _ _ _ => rfl).mpr
    fun portfolio hportfolio lot hlot => ?_
  obtain ⟨transactions, -, lots, htransactions, -, hlots, hmem, -⟩ := hlot
  obtain ⟨read, hread, hall⟩ := bind_eq_ok.mp (hheld portfolio hportfolio)
  obtain rfl := Except.ok.inj (hread.symm.trans htransactions)
  rw [hlots] at hall
  exact of_decide_eq_true (List.all_eq_true.mp (Except.ok.inj hall) lot hmem)

end FinancialDashboard.Investments
