import FinancialDashboard.Investments.Transactions
import Mathlib.Algebra.Order.BigOperators.Group.List
import Mathlib.Data.Prod.Lex
import Mathlib.Data.List.Sort

/-!
# Lot consumption

Which lots the disposals consume (`resolve_lot_consumption` of
`services/investment_transactions.py`).

A disposal is taken from the one lot that its facts identify.  The disposals of an instrument
are taken in the order of their dates until one identifies no lot, and then the instrument is
unresolved and none of its lots is reported.

What is taken is subtracted in the decimal context, which rounds.  The errors of a lot's
subtractions are what it lost more, or less, than the units that were disposed of.

* `identify_spec`: what is known of the lot that is identified.
* `draw_spec`: the disposals of one instrument.
* `settled_resolve`: those of all.
* `conserves_iff`: the quantities are conserved if and only if the errors settle.
* `settles_of_exact`: they do where every subtraction is exact.
* `settles_of_grid`: quantities of a common scale that fits the context settle.

The disposals taken so far are kept beside what remains, so that one can say which were taken.
-/

namespace FinancialDashboard.Investments

open PyText Rounding Numbering Posting

/-! ### Facts -/

/-- What a lot is known by in the source. -/
structure Natural where
  instrumentId : String
  sourceRef : String
  acquiredOn : Int
  reference : Option String
  deriving DecidableEq, Repr

structure LotKey extends Natural where
  occurrence : Nat
  deriving DecidableEq, Repr

structure AcquisitionFact where
  key : LotKey
  quantity : ℚ
  deriving DecidableEq, Repr

structure DisposalFact where
  sourceRef : String
  units : Option ℚ
  disposedOn : Option Int
  reference : Option String
  order : Nat
  deriving DecidableEq, Repr

namespace DisposalFact

variable (disposal : DisposalFact)

/-- `abs(units)`. -/
def quantity : Option ℚ := disposal.units.map fun units => inContext |units|

/-- The units that are disposed of. -/
def magnitude : ℚ := |disposal.units.getD 0|

/-- `if disposal.reference`. -/
def hasReference : Bool := disposal.reference.any (· ≠ "")

/-- The lot was acquired after the disposal. -/
def precedes (lot : AcquisitionFact) : Bool := disposal.disposedOn.any (· < lot.key.acquiredOn)

/-- By date, those without one last. -/
def sortKey : Bool ×ₗ Int ×ₗ Nat :=
  toLex (disposal.disposedOn.isNone, toLex (disposal.disposedOn.getD 3652059, disposal.order))

end DisposalFact

/-- What a transaction of an instrument says. -/
inductive Entry
  | disposal (isin : String) (fact : DisposalFact)
  | ambiguous (isin sourceRef : String) (reference : Option String)
  | acquisition (lot : CompleteLot)

namespace Entry

def disposed : Entry → Option (String × DisposalFact)
  | disposal isin fact => some (isin, fact)
  | _ => none

def unclear : Entry → Option (String × String × Option String)
  | ambiguous isin sourceRef reference => some (isin, sourceRef, reference)
  | _ => none

def acquired : Entry → Option CompleteLot
  | acquisition lot => some lot
  | _ => none

end Entry

/-- What the transactions say of lots and disposals. -/
structure Facts where
  lots : List AcquisitionFact
  disposals : List (String × DisposalFact)
  ambiguous : List (String × String × Option String)
  nodup_keys : (lots.map (·.key)).Nodup

section

variable [UnicodeTables]

/-- `_normalized_reference`, of a text. -/
def normalizedReference (reference : Option String) : Option String :=
  reference.bind fun text => (Json.text text).stripped

def CompleteLot.natural (lot : CompleteLot) : Natural :=
  ⟨lot.instrumentId, strip lot.sourceRef, lot.acquiredOn, normalizedReference lot.reference⟩

/-- The lots that are known by the same facts are numbered. -/
def gather (entries : List Entry) : Facts where
  lots := (number CompleteLot.natural (entries.filterMap Entry.acquired)).map
    fun p => ⟨⟨p.1.natural, p.2⟩, p.1.quantity⟩
  disposals := entries.filterMap Entry.disposed
  ambiguous := entries.filterMap Entry.unclear
  nodup_keys := by
    rw [List.map_map]
    have hkeys := nodup_number CompleteLot.natural (entries.filterMap Entry.acquired)
    refine List.Nodup.of_map (fun key : LotKey => (key.toNatural, key.occurrence)) ?_
    rwa [List.map_map]

/-- An acquisition that is no lot leaves its source unclear. -/
def incomplete (isin : String) (raw : RawTransaction) : Option Entry :=
  if normalizedRef raw.sourceRef = "" then none
  else some (.ambiguous isin (normalizedRef raw.sourceRef) raw.reference.stripped)

variable [CasReaders] (today : Int)

/-- What a transaction of an instrument says, the `order`-th of them all. -/
def readEntry (isin : String) (order : Nat) (raw : RawTransaction) :
    Except Raised (Option Entry) :=
  if raw.isDisposal then do
    let disposedOn ← parseDate today raw.date
    .ok (some (.disposal isin
      { sourceRef := normalizedRef raw.sourceRef
        units := (toDecimal raw.units).map (·.value)
        disposedOn := disposedOn
        reference := raw.reference.stripped
        order := order }))
  else if ¬ raw.isAcquisition then .ok none
  else do
    let classification ← classifyTransaction today raw
    match classification with
    | .complete lot => .ok (some (.acquisition lot))
    | .excluded _ => .ok (incomplete isin raw)

/-- The entries of the transactions that name an instrument. -/
def readEntries : Nat → List (Except Raised RawTransaction) → Except Raised (List Entry)
  | _, [] => .ok []
  | order, item :: rest => do
    let raw ← item
    match raw.txnIsin with
    | none => readEntries order rest
    | some isin => do
      let entry ← readEntry today isin (order + 1) raw
      let later ← readEntries (order + 1) rest
      .ok (entry.toList ++ later)

/-- The transactions of a document; an error where it has none to go through. -/
def Payload.items (payload : Payload) : List (Except Raised RawTransaction) :=
  payload.transactions.elim [.error .typeError] fun items => (items.filterMap id).map .ok

def readFacts (payloads : List Payload) : Except Raised Facts :=
  (readEntries today 0 (payloads.flatMap Payload.items)).map gather

end

/-! ### Taking a disposal from a lot -/

/-- A disposal that was taken from a lot, and what the lot had before. -/
structure Taken where
  disposal : DisposalFact
  lot : AcquisitionFact
  before : ℚ

namespace Taken

/-- What the lot has after it. -/
def after (taken : Taken) : ℚ := inContext (taken.before - taken.disposal.quantity.getD 0)

/-- What the arithmetic gives back to the lot of the units that were disposed of. -/
def error (taken : Taken) : ℚ := taken.after - (taken.before - taken.disposal.magnitude)

/-- The context keeps all digits of the units, and of what the lot has without them. -/
def Exact (taken : Taken) : Prop :=
  inContext taken.disposal.magnitude = taken.disposal.magnitude ∧
    inContext (taken.before - taken.disposal.magnitude) = taken.before - taken.disposal.magnitude

end Taken

/-- `_allocate_exact`: the lot a disposal is taken from. -/
def allocateExact (disposal : DisposalFact) (acquisitions : List AcquisitionFact)
    (remaining : LotKey → ℚ) : Option AcquisitionFact :=
  let active := acquisitions.filter (0 < remaining ·.key)
  match disposal.quantity with
  | none => none
  | some quantity =>
    if active = [] ∨ quantity ≤ 0 then none
    else
      let enough lot := if quantity ≤ remaining lot.key then some lot else none
      match (if disposal.hasReference then
          active.filter (·.key.reference = disposal.reference) else []) with
      | _ :: _ :: _ => none
      | [lot] => if disposal.precedes lot then none else enough lot
      | [] =>
        match active.filter (!disposal.precedes ·) with
        | [lot] => enough lot
        | _ => none

/-- What comes of the disposals of an instrument. -/
structure Draw where
  remaining : LotKey → ℚ
  taken : List Taken
  resolved : Bool

structure Ledger where
  remaining : LotKey → ℚ
  unresolved : List String
  taken : List Taken

structure LotConsumption where
  unresolvedInstruments : List String
  remaining : List (LotKey × ℚ)
  deriving DecidableEq, Repr

namespace Facts

variable (facts : Facts)

/-- The lots of an instrument and source. -/
def candidates (isin sourceRef : String) : List AcquisitionFact :=
  facts.lots.filter fun lot => lot.key.instrumentId = isin ∧ lot.key.sourceRef = sourceRef

def ambiguousReferences (isin sourceRef : String) : List (Option String) :=
  (facts.ambiguous.filter fun a => a.1 = isin ∧ a.2.1 = sourceRef).map (·.2.2)

/-- The disposal is not clear about its lot because of an incomplete acquisition. -/
def blocked (isin : String) (remaining : LotKey → ℚ) (disposal : DisposalFact) : Bool :=
  let references := facts.ambiguousReferences isin disposal.sourceRef
  let exactComplete := (facts.candidates isin disposal.sourceRef).filter fun lot =>
    0 < remaining lot.key ∧ disposal.hasReference ∧ lot.key.reference = disposal.reference
  references ≠ [] ∧ (disposal.reference = none ∨ disposal.reference ∈ references ∨
    exactComplete.length ≠ 1)

/-- The lot a disposal is taken from, or `none`, which leaves the instrument unresolved. -/
def identify (isin : String) (remaining : LotKey → ℚ) (disposal : DisposalFact) :
    Option AcquisitionFact :=
  if disposal.sourceRef = "" ∨ disposal.quantity = none then none
  else if facts.blocked isin remaining disposal then none
  else allocateExact disposal (facts.candidates isin disposal.sourceRef) remaining

/-- The disposals of an instrument, one after the other. -/
def draw (isin : String) : (LotKey → ℚ) → List DisposalFact → Draw
  | remaining, [] => ⟨remaining, [], true⟩
  | remaining, disposal :: rest =>
    match facts.identify isin remaining disposal with
    | none => ⟨remaining, [], false⟩
    | some lot =>
      let taken : Taken := ⟨disposal, lot, remaining lot.key⟩
      let later := draw isin (Function.update remaining lot.key taken.after) rest
      { later with taken := taken :: later.taken }

def disposalsOf (isin : String) : List DisposalFact :=
  (facts.disposals.filter (·.1 = isin)).map (·.2)

def ordered (isin : String) : List DisposalFact :=
  (facts.disposalsOf isin).insertionSort fun a b => a.sortKey ≤ b.sortKey

/-- What a lot has at first. -/
def original (key : LotKey) : ℚ := ((facts.lots.find? (·.key = key)).map (·.quantity)).getD 0

/-- The disposals of one more instrument. -/
def settle (ledger : Ledger) (isin : String) : Ledger :=
  let draw := facts.draw isin ledger.remaining (facts.ordered isin)
  { remaining := draw.remaining
    unresolved := if draw.resolved then ledger.unresolved else ledger.unresolved ++ [isin]
    taken := ledger.taken ++ draw.taken }

def resolve : Ledger :=
  (keysOf Prod.fst facts.disposals).foldl facts.settle ⟨facts.original, [], []⟩

/-- The lots that were touched, of the instruments that are resolved. -/
def consumption : LotConsumption where
  unresolvedInstruments := facts.resolve.unresolved
  remaining := facts.lots.filterMap fun lot =>
    if lot.key.instrumentId ∉ facts.resolve.unresolved ∧
        facts.resolve.remaining lot.key ≠ facts.original lot.key then
      some (lot.key, facts.resolve.remaining lot.key)
    else none

end Facts

/-- `resolve_lot_consumption`. -/
def resolveLotConsumption [UnicodeTables] [CasReaders] (today : Int) (payloads : List Payload) :
    Except Raised LotConsumption :=
  (readFacts today payloads).map Facts.consumption

/-! ### The lot that is identified -/

section

variable {facts : Facts} {isin : String} {remaining : LotKey → ℚ} {disposal : DisposalFact}
  {lot : AcquisitionFact} {acquisitions : List AcquisitionFact}

/-- What is known of the lot among these that a disposal is taken from. -/
structure Identified (acquisitions : List AcquisitionFact) (remaining : LotKey → ℚ)
    (disposal : DisposalFact) (lot : AcquisitionFact) : Prop where
  mem : lot ∈ acquisitions
  active : 0 < remaining lot.key
  quantity : ∃ quantity, disposal.quantity = some quantity ∧ quantity ≤ remaining lot.key
  dated : disposal.precedes lot = false
  only : ∀ other ∈ acquisitions, 0 < remaining other.key →
    other.key.reference = lot.key.reference → other.key.acquiredOn = lot.key.acquiredOn →
    other = lot

/-- The only element that passes is the only one that could not be told from it. -/
theorem identified_of_filter {p : AcquisitionFact → Bool} {quantity : ℚ}
    (hquantity : disposal.quantity = some quantity)
    (hfilter : (acquisitions.filter (0 < remaining ·.key)).filter p = [lot])
    (hdated : disposal.precedes lot = false) (henough : quantity ≤ remaining lot.key)
    (hp : ∀ other : AcquisitionFact, other.key.reference = lot.key.reference →
      other.key.acquiredOn = lot.key.acquiredOn → p other = p lot) :
    Identified acquisitions remaining disposal lot := by
  have hlot : lot ∈ (acquisitions.filter (0 < remaining ·.key)).filter p := by simp [hfilter]
  obtain ⟨hactive, hpass⟩ := List.mem_filter.mp hlot
  obtain ⟨hmem, hpositive⟩ := List.mem_filter.mp hactive
  refine ⟨hmem, of_decide_eq_true hpositive, ⟨quantity, hquantity, henough⟩, hdated,
    fun other hother hleft href hday => ?_⟩
  have hmem : other ∈ (acquisitions.filter (0 < remaining ·.key)).filter p :=
    List.mem_filter.mpr
      ⟨List.mem_filter.mpr ⟨hother, decide_eq_true hleft⟩, (hp other href hday).trans hpass⟩
  rw [hfilter] at hmem
  exact List.mem_singleton.mp hmem

/-- **The lot that the facts of a disposal identify.** -/
theorem allocateExact_spec (h : allocateExact disposal acquisitions remaining = some lot) :
    Identified acquisitions remaining disposal lot := by
  unfold allocateExact at h
  dsimp only at h
  cases hquantity : disposal.quantity with
  | none =>
    rw [hquantity] at h
    cases h
  | some quantity =>
    rw [hquantity] at h
    dsimp only at h
    by_cases hempty : acquisitions.filter (0 < remaining ·.key) = [] ∨ quantity ≤ 0
    · rw [if_pos hempty] at h
      cases h
    rw [if_neg hempty] at h
    split at h
    · cases h
    · rename_i exact hexact
      split_ifs at h with hlate henough
      obtain rfl := Option.some.inj h
      split_ifs at hexact
      exact identified_of_filter hquantity hexact (by simpa using hlate) henough
        fun other href _ => by rw [href]
    · split at h
      · rename_i eligible heligible
        split_ifs at h with henough
        obtain rfl := Option.some.inj h
        have hlot : eligible ∈ (acquisitions.filter (0 < remaining ·.key)).filter
            (!disposal.precedes ·) := by
          rw [heligible]
          exact List.mem_singleton_self _
        exact identified_of_filter hquantity heligible
          (by simpa using (List.mem_filter.mp hlot).2) henough
          fun other _ hday => by rw [DisposalFact.precedes, hday, DisposalFact.precedes]
      · cases h

theorem identify_spec (h : facts.identify isin remaining disposal = some lot) :
    Identified (facts.candidates isin disposal.sourceRef) remaining disposal lot := by
  unfold Facts.identify at h
  split_ifs at h
  exact allocateExact_spec h

theorem mem_candidates {sourceRef : String} : lot ∈ facts.candidates isin sourceRef ↔
    lot ∈ facts.lots ∧ lot.key.instrumentId = isin ∧ lot.key.sourceRef = sourceRef := by
  rw [Facts.candidates, List.mem_filter, decide_eq_true_eq]

/-- What was taken from a lot. -/
def takenFrom (taken : List Taken) (key : LotKey) : List Taken := taken.filter (·.lot.key = key)

/-- What a lot lost by what was taken from it. -/
def lost (taken : List Taken) : ℚ := (taken.map fun t => t.disposal.magnitude - t.error).sum

theorem magnitude_sub_error (t : Taken) : t.disposal.magnitude - t.error = t.before - t.after := by
  unfold Taken.error
  ring

/-- What is known of a disposal that was taken. -/
structure Taken.Valid (facts : Facts) (isin : String) (t : Taken) : Prop where
  mem : t.lot ∈ facts.lots
  instrument : t.lot.key.instrumentId = isin
  dated : ∀ date ∈ t.disposal.disposedOn, t.lot.key.acquiredOn ≤ date
  within : ∃ quantity, t.disposal.quantity = some quantity ∧ quantity ≤ t.before

/-- What the disposals of an instrument do to what remains. -/
structure Drawn (facts : Facts) (isin : String) (before : LotKey → ℚ)
    (disposals : List DisposalFact) (draw : Draw) : Prop where
  valid : ∀ t ∈ draw.taken, t.Valid facts isin
  change : ∀ key, draw.remaining key = before key - lost (takenFrom draw.taken key)
  nonneg : (∀ key, 0 ≤ before key) → ∀ key, 0 ≤ draw.remaining key
  served : draw.resolved = true → draw.taken.map (·.disposal) = disposals

theorem Identified.valid (h : Identified (facts.candidates isin disposal.sourceRef) remaining
    disposal lot) : Taken.Valid facts isin ⟨disposal, lot, remaining lot.key⟩ := by
  obtain ⟨hmem, hinstrument, -⟩ := mem_candidates.mp h.mem
  refine ⟨hmem, hinstrument, fun date hdate => ?_, h.quantity⟩
  have hdated := h.dated
  rw [DisposalFact.precedes, Option.mem_def.mp hdate] at hdated
  exact not_lt.mp (by simpa using hdated)

/-- What a lot has after a disposal is not negative. -/
theorem Taken.Valid.after_nonneg {t : Taken} (h : t.Valid facts isin) : 0 ≤ t.after := by
  obtain ⟨quantity, hquantity, hle⟩ := h.within
  rw [Taken.after, hquantity]
  exact roundSig_nonneg _ (sub_nonneg.mpr hle)

theorem lost_takenFrom_cons (t : Taken) (rest : List Taken) (key : LotKey) :
    lost (takenFrom (t :: rest) key) =
      (if t.lot.key = key then t.before - t.after else 0) + lost (takenFrom rest key) := by
  unfold lost takenFrom
  by_cases hkey : t.lot.key = key
  · rw [List.filter_cons_of_pos (by simpa using hkey), List.map_cons, List.sum_cons, if_pos hkey,
      magnitude_sub_error]
  · rw [List.filter_cons_of_neg (by simpa using hkey), if_neg hkey, zero_add]

/-- **The disposals of an instrument.** -/
theorem draw_spec (facts : Facts) (isin : String) (before : LotKey → ℚ)
    (disposals : List DisposalFact) :
    Drawn facts isin before disposals (facts.draw isin before disposals) := by
  induction disposals generalizing before with
  | nil =>
    exact ⟨fun t ht => absurd ht List.not_mem_nil, fun key => (sub_zero _).symm, fun h => h,
      fun _ => rfl⟩
  | cons disposal rest ih =>
    rw [Facts.draw]
    cases hidentify : facts.identify isin before disposal with
    | none =>
      exact ⟨fun t ht => absurd ht List.not_mem_nil, fun key => (sub_zero _).symm, fun h => h,
        fun hresolved => absurd hresolved Bool.false_ne_true⟩
    | some lot =>
      have hvalid := (identify_spec hidentify).valid
      set t : Taken := ⟨disposal, lot, before lot.key⟩
      have hrest := ih (Function.update before lot.key t.after)
      refine ⟨?_, fun key => ?_, fun hbefore => ?_, fun hresolved => ?_⟩
      · intro u hu
        rcases List.mem_cons.mp hu with rfl | hu
        · exact hvalid
        · exact hrest.valid u hu
      · rw [lost_takenFrom_cons]
        refine (hrest.change key).trans ?_
        by_cases hkey : lot.key = key
        · subst hkey
          rw [Function.update_self, if_pos rfl]
          ring
        · rw [Function.update_of_ne (Ne.symm hkey), if_neg hkey, zero_add]
      · refine hrest.nonneg fun key => ?_
        by_cases hkey : key = lot.key
        · subst hkey
          rw [Function.update_self]
          exact hvalid.after_nonneg
        · rw [Function.update_of_ne hkey]
          exact hbefore key
      · exact congrArg (disposal :: ·) (hrest.served hresolved)

/-! ### All instruments -/

/-- What was taken from the lots of an instrument. -/
def takenOf (taken : List Taken) (isin : String) : List Taken :=
  taken.filter (·.lot.key.instrumentId = isin)

/-- What is known of the ledger once these instruments are done. -/
structure Settled (facts : Facts) (done : List String) (ledger : Ledger) : Prop where
  valid : ∀ t ∈ ledger.taken, ∃ isin ∈ done, t.Valid facts isin
  change : ∀ key, ledger.remaining key = facts.original key - lost (takenFrom ledger.taken key)
  nonneg : ∀ key, 0 ≤ ledger.remaining key
  served : ∀ isin ∈ done, isin ∉ ledger.unresolved →
    (takenOf ledger.taken isin).map (·.disposal) = facts.ordered isin
  done : ∀ isin ∈ ledger.unresolved, isin ∈ done

theorem lost_append (taken more : List Taken) : lost (taken ++ more) = lost taken + lost more := by
  rw [lost, lost, lost, List.map_append, List.sum_append]

theorem takenOf_eq_nil {taken : List Taken} (h : ∀ t ∈ taken, t.lot.key.instrumentId ≠ isin) :
    takenOf taken isin = [] :=
  List.filter_eq_nil_iff.mpr fun t ht => by simpa using h t ht

theorem takenOf_eq_self {taken : List Taken} (h : ∀ t ∈ taken, t.lot.key.instrumentId = isin) :
    takenOf taken isin = taken :=
  List.filter_eq_self.mpr fun t ht => decide_eq_true (h t ht)

variable {done : List String} {ledger : Ledger}

/-- One more instrument. -/
theorem Settled.settle (h : Settled facts done ledger) (hnew : isin ∉ done) :
    Settled facts (done ++ [isin]) (facts.settle ledger isin) := by
  have hdraw := draw_spec facts isin ledger.remaining (facts.ordered isin)
  set draw := facts.draw isin ledger.remaining (facts.ordered isin)
  have hsplit : ∀ i, takenOf (facts.settle ledger isin).taken i =
      takenOf ledger.taken i ++ takenOf draw.taken i := fun i => List.filter_append _ _
  refine ⟨fun t ht => ?_, fun key => ?_, hdraw.nonneg h.nonneg, fun i hi hresolved => ?_,
    fun i hi => ?_⟩
  · rcases List.mem_append.mp ht with ht | ht
    · obtain ⟨i, hi, hvalid⟩ := h.valid t ht
      exact ⟨i, List.mem_append_left _ hi, hvalid⟩
    · exact ⟨isin, by simp, hdraw.valid t ht⟩
  · have happend : takenFrom (facts.settle ledger isin).taken key =
        takenFrom ledger.taken key ++ takenFrom draw.taken key := List.filter_append _ _
    rw [happend, lost_append, ← sub_sub, ← h.change]
    exact hdraw.change key
  · rw [hsplit, List.map_append]
    rcases List.mem_append.mp hi with hi | hi
    · have hne : ∀ t ∈ draw.taken, t.lot.key.instrumentId ≠ i := fun t ht heq =>
        hnew ((hdraw.valid t ht).instrument ▸ heq ▸ hi)
      rw [takenOf_eq_nil hne, List.map_nil, List.append_nil]
      refine h.served i hi fun hmem => hresolved ?_
      change i ∈ ite _ _ _
      split_ifs
      · exact hmem
      · exact List.mem_append_left _ hmem
    · obtain rfl := List.mem_singleton.mp hi
      have hold : ∀ t ∈ ledger.taken, t.lot.key.instrumentId ≠ i := fun t ht heq => by
        obtain ⟨j, hj, hvalid⟩ := h.valid t ht
        exact hnew (heq ▸ hvalid.instrument ▸ hj)
      rw [takenOf_eq_nil hold, takenOf_eq_self fun t ht => (hdraw.valid t ht).instrument]
      refine hdraw.served (by_contra fun hstuck => hresolved ?_)
      change i ∈ ite _ _ _
      rw [if_neg hstuck]
      simp
  · change i ∈ ite _ _ _ at hi
    split_ifs at hi
    · exact List.mem_append_left _ (h.done i hi)
    · rcases List.mem_append.mp hi with hi | hi
      · exact List.mem_append_left _ (h.done i hi)
      · exact List.mem_append_right _ hi

/-- **Instrument after instrument**, each of them once. -/
theorem Settled.foldl {rest : List String} (h : Settled facts done ledger)
    (hnodup : (done ++ rest).Nodup) :
    Settled facts (done ++ rest) (rest.foldl facts.settle ledger) := by
  induction rest generalizing done ledger with
  | nil => rwa [List.append_nil]
  | cons isin rest ih =>
    have hnew : isin ∉ done := fun hmem =>
      (List.nodup_append.mp hnodup).2.2 isin hmem isin List.mem_cons_self rfl
    have hnext := h.settle hnew
    rw [← List.singleton_append, ← List.append_assoc] at hnodup ⊢
    exact ih hnext hnodup

theorem original_eq (hlot : lot ∈ facts.lots) : facts.original lot.key = lot.quantity := by
  unfold Facts.original
  cases hfind : facts.lots.find? (·.key = lot.key) with
  | none =>
    have hnone := List.find?_eq_none.mp hfind lot hlot
    simp at hnone
  | some other =>
    have hkey : other.key = lot.key := by simpa using List.find?_some hfind
    have hsame := List.inj_on_of_nodup_map facts.nodup_keys (List.mem_of_find?_eq_some hfind) hlot
      hkey
    rw [hsame]
    rfl

theorem original_nonneg (h : ∀ lot ∈ facts.lots, 0 < lot.quantity) (key : LotKey) :
    0 ≤ facts.original key := by
  unfold Facts.original
  cases hfind : facts.lots.find? (·.key = key) with
  | none => exact le_refl _
  | some lot => exact (h lot (List.mem_of_find?_eq_some hfind)).le

/-- **All disposals.** -/
theorem settled_resolve (h : ∀ lot ∈ facts.lots, 0 < lot.quantity) :
    Settled facts (keysOf Prod.fst facts.disposals) facts.resolve := by
  have hstart : Settled facts [] ⟨facts.original, [], []⟩ :=
    ⟨fun t ht => absurd ht List.not_mem_nil, fun key => (sub_zero _).symm, original_nonneg h,
      fun isin hisin => absurd hisin List.not_mem_nil,
      fun isin hisin => absurd hisin List.not_mem_nil⟩
  exact hstart.foldl (nodup_keysOf Prod.fst facts.disposals)

/-- Every disposal of a resolved instrument is taken, and from one lot. -/
theorem served (h : ∀ lot ∈ facts.lots, 0 < lot.quantity)
    (hisin : isin ∉ facts.resolve.unresolved) :
    ((takenOf facts.resolve.taken isin).map (·.disposal)).Perm (facts.disposalsOf isin) := by
  have hspec := settled_resolve h
  by_cases hdone : isin ∈ keysOf Prod.fst facts.disposals
  · rw [hspec.served isin hdone hisin]
    exact List.perm_insertionSort _ _
  · have hnone : facts.disposalsOf isin = [] := by
      refine List.map_eq_nil_iff.mpr (List.filter_eq_nil_iff.mpr fun d hd heq => hdone ?_)
      exact mem_keysOf.mpr ⟨d, hd, of_decide_eq_true heq⟩
    have hidle : ∀ t ∈ facts.resolve.taken, t.lot.key.instrumentId ≠ isin := fun t ht heq => by
      obtain ⟨i, hi, hvalid⟩ := hspec.valid t ht
      exact hdone (heq ▸ hvalid.instrument ▸ hi)
    rw [takenOf_eq_nil hidle, hnone]
    exact List.Perm.refl _

/-! ### What the transactions say -/

section

variable [UnicodeTables] [CasReaders] {today : Int} {order : Nat} {entry : Entry}
  {entries : List Entry} {items : List (Except Raised RawTransaction)} {payloads : List Payload}

/-- An entry is what a transaction says. -/
theorem exists_readEntry (h : readEntries today order items = .ok entries)
    (hentry : entry ∈ entries) :
    ∃ raw isin n, readEntry today isin n raw = .ok (some entry) := by
  induction items generalizing order entries with
  | nil =>
    obtain rfl := Except.ok.inj h
    cases hentry
  | cons item rest ih =>
    rw [readEntries] at h
    obtain ⟨raw, -, h⟩ := bind_eq_ok.mp h
    cases hisin : raw.txnIsin with
    | none =>
      rw [hisin] at h
      exact ih h hentry
    | some isin =>
      rw [hisin] at h
      obtain ⟨first, hfirst, h⟩ := bind_eq_ok.mp h
      obtain ⟨later, hlater, h⟩ := bind_eq_ok.mp h
      obtain rfl := Except.ok.inj h
      rcases List.mem_append.mp hentry with hentry | hentry
      · rw [Option.mem_toList] at hentry
        exact ⟨raw, isin, order + 1, Option.mem_def.mp hentry ▸ hfirst⟩
      · exact ih hlater hentry

theorem readEntry_acquisition {raw : RawTransaction} {acquired : CompleteLot}
    (h : readEntry today isin order raw = .ok (some (.acquisition acquired))) :
    classifyTransaction today raw = .ok (.complete acquired) := by
  unfold readEntry at h
  by_cases hdisposal : raw.isDisposal = true
  · rw [if_pos hdisposal] at h
    obtain ⟨day, -, h⟩ := bind_eq_ok.mp h
    cases h
  rw [if_neg hdisposal] at h
  by_cases hacquisition : raw.isAcquisition = true
  · rw [if_neg (not_not.mpr hacquisition)] at h
    obtain ⟨classification, hclass, h⟩ := bind_eq_ok.mp h
    cases classification with
    | complete found =>
      cases h
      exact hclass
    | excluded exclusion =>
      have hentry : incomplete isin raw = some (.acquisition acquired) := Except.ok.inj h
      unfold incomplete at hentry
      split_ifs at hentry
      cases Option.some.inj hentry
  · rw [if_pos hacquisition] at h
    cases h

/-- **The lots have positive quantities.** -/
theorem readFacts_pos (h : readFacts today payloads = .ok facts) (hlot : lot ∈ facts.lots) :
    0 < lot.quantity := by
  obtain ⟨entries, hentries, rfl⟩ := map_eq_ok.mp h
  obtain ⟨p, hp, rfl⟩ := List.mem_map.mp hlot
  obtain ⟨entry, hentry, hacquired⟩ := List.mem_filterMap.mp (mem_of_mem_number hp)
  obtain ⟨raw, isin, n, hread⟩ := exists_readEntry hentries hentry
  cases entry with
  | acquisition acquired =>
    obtain rfl := Option.some.inj hacquired
    exact (complete_spec (readEntry_acquisition hread)).quantity_pos
  | disposal isin fact => cases hacquired
  | ambiguous isin sourceRef reference => cases hacquired

end

/-! ### Conservation -/

/-- What is left of a lot; one that is not reported was not touched. -/
def LotConsumption.left (consumption : LotConsumption) (lot : AcquisitionFact) : ℚ :=
  ((consumption.remaining.find? (·.1 = lot.key)).map (·.2)).getD lot.quantity

/-- The lots of an instrument. -/
def Facts.lotsOf (facts : Facts) (isin : String) : List AcquisitionFact :=
  facts.lots.filter (·.key.instrumentId = isin)

/-- **Conservation of the quantities** of the instruments that are resolved. -/
structure Facts.Conserves (facts : Facts) : Prop where
  bounds : ∀ lot ∈ facts.lots,
    lot.key.instrumentId ∉ facts.consumption.unresolvedInstruments →
      0 ≤ facts.consumption.left lot ∧ facts.consumption.left lot ≤ lot.quantity
  total : ∀ isin ∉ facts.consumption.unresolvedInstruments,
    ((facts.lotsOf isin).map fun lot => lot.quantity - facts.consumption.left lot).sum =
      ((facts.disposalsOf isin).map DisposalFact.magnitude).sum
  served : ∀ isin ∉ facts.consumption.unresolvedInstruments,
    ((takenOf facts.resolve.taken isin).map (·.disposal)).Perm (facts.disposalsOf isin)
  consumed : ∀ lot ∈ facts.lots, facts.consumption.left lot ≠ lot.quantity →
    ∃ t ∈ facts.resolve.taken, t.lot = lot
  dated : ∀ t ∈ facts.resolve.taken, ∀ date ∈ t.disposal.disposedOn, t.lot.key.acquiredOn ≤ date
  hidden : ∀ entry ∈ facts.consumption.remaining,
    entry.1.instrumentId ∉ facts.consumption.unresolvedInstruments

/-- The rounding errors of every resolved instrument add up to zero, and those of no lot to more
than the units that were taken from it. -/
structure Facts.Settles (facts : Facts) : Prop where
  balanced : ∀ isin ∉ facts.resolve.unresolved,
    ((takenOf facts.resolve.taken isin).map Taken.error).sum = 0
  bounded : ∀ lot ∈ facts.lots, lot.key.instrumentId ∉ facts.resolve.unresolved →
    ((takenFrom facts.resolve.taken lot.key).map Taken.error).sum ≤
      ((takenFrom facts.resolve.taken lot.key).map (·.disposal.magnitude)).sum

theorem mem_remaining {reported : LotKey × ℚ} : reported ∈ facts.consumption.remaining ↔
    ∃ lot ∈ facts.lots, lot.key.instrumentId ∉ facts.resolve.unresolved ∧
      facts.resolve.remaining lot.key ≠ facts.original lot.key ∧
      reported = (lot.key, facts.resolve.remaining lot.key) := by
  simp only [Facts.consumption, List.mem_filterMap, Option.ite_none_right_eq_some,
    Option.some.injEq]
  refine exists_congr fun lot => and_congr_right fun _ => ?_
  rw [and_assoc, eq_comm]

/-- What is left of a lot of a resolved instrument is what remains of it. -/
theorem left_eq (hlot : lot ∈ facts.lots)
    (hresolved : lot.key.instrumentId ∉ facts.resolve.unresolved) :
    facts.consumption.left lot = facts.resolve.remaining lot.key := by
  unfold LotConsumption.left
  cases hfind : facts.consumption.remaining.find? (·.1 = lot.key) with
  | some reported =>
    obtain ⟨other, -, -, -, rfl⟩ := mem_remaining.mp (List.mem_of_find?_eq_some hfind)
    have hkey : other.key = lot.key := by simpa using List.find?_some hfind
    exact congrArg facts.resolve.remaining hkey
  | none =>
    by_contra hne
    have hchanged : facts.resolve.remaining lot.key ≠ facts.original lot.key := fun heq =>
      hne (heq.trans (original_eq hlot)).symm
    have hnone := List.find?_eq_none.mp hfind _
      (mem_remaining.mpr ⟨lot, hlot, hresolved, hchanged, rfl⟩)
    simp at hnone

/-- An unresolved instrument's lots are not reported. -/
theorem left_of_unresolved (hunresolved : lot.key.instrumentId ∈ facts.resolve.unresolved) :
    facts.consumption.left lot = lot.quantity := by
  unfold LotConsumption.left
  cases hfind : facts.consumption.remaining.find? (·.1 = lot.key) with
  | some reported =>
    obtain ⟨other, -, hresolved, -, rfl⟩ := mem_remaining.mp (List.mem_of_find?_eq_some hfind)
    have hkey : other.key = lot.key := by simpa using List.find?_some hfind
    exact absurd (hkey ▸ hunresolved) hresolved
  | none => rfl

theorem lost_eq (taken : List Taken) :
    lost taken = (taken.map (·.disposal.magnitude)).sum - (taken.map Taken.error).sum := by
  induction taken with
  | nil => exact (sub_zero _).symm
  | cons t rest ih =>
    have hcons : lost (t :: rest) = t.disposal.magnitude - t.error + lost rest := by
      rw [lost, lost, List.map_cons, List.sum_cons]
    rw [hcons, ih, List.map_cons, List.sum_cons, List.map_cons, List.sum_cons]
    ring

theorem lost_nonneg_iff (taken : List Taken) :
    0 ≤ lost taken ↔ (taken.map Taken.error).sum ≤ (taken.map (·.disposal.magnitude)).sum := by
  rw [lost_eq, sub_nonneg]

section

variable (hpos : ∀ lot ∈ facts.lots, 0 < lot.quantity)

include hpos

/-- **What a lot lost** is what was taken from it. -/
theorem quantity_sub_left (hlot : lot ∈ facts.lots)
    (hresolved : lot.key.instrumentId ∉ facts.resolve.unresolved) :
    lot.quantity - facts.consumption.left lot = lost (takenFrom facts.resolve.taken lot.key) := by
  rw [left_eq hlot hresolved, (settled_resolve hpos).change, original_eq hlot, sub_sub_cancel]

/-- **What an instrument's lots lost** is what was taken from them. -/
theorem sum_quantity_sub_left (hresolved : isin ∉ facts.resolve.unresolved) :
    ((facts.lotsOf isin).map fun lot => lot.quantity - facts.consumption.left lot).sum =
      lost (takenOf facts.resolve.taken isin) := by
  have hlots : ∀ lot ∈ facts.lotsOf isin, lot ∈ facts.lots ∧ lot.key.instrumentId = isin :=
    fun lot hlot => ⟨(List.mem_filter.mp hlot).1, of_decide_eq_true (List.mem_filter.mp hlot).2⟩
  have hkeys : ((facts.lotsOf isin).map (·.key)).Nodup :=
    facts.nodup_keys.sublist (List.filter_sublist.map _)
  have hall : ∀ t ∈ takenOf facts.resolve.taken isin,
      t.lot.key ∈ (facts.lotsOf isin).map (·.key) := by
    intro t ht
    obtain ⟨ht, hisin⟩ := List.mem_filter.mp ht
    obtain ⟨i, -, hvalid⟩ := (settled_resolve hpos).valid t ht
    exact List.mem_map_of_mem (List.mem_filter.mpr ⟨hvalid.mem, hisin⟩)
  rw [lost, ← Dict.sum_groups hkeys hall, Dict.groups, List.map_map, List.map_map]
  refine congrArg List.sum (List.map_congr_left fun lot hlot => ?_)
  obtain ⟨hmem, hisin⟩ := hlots lot hlot
  rw [quantity_sub_left hpos hmem (hisin ▸ hresolved)]
  refine congrArg lost ?_
  dsimp only [takenFrom, takenOf]
  rw [List.filter_filter]
  refine List.filter_congr fun t _ => ?_
  by_cases hkey : t.lot.key = lot.key
  · simp [hkey, hisin]
  · simp [hkey]

theorem conserves_of_settles (h : facts.Settles) : facts.Conserves := by
  have hspec := settled_resolve hpos
  refine ⟨fun lot hlot hresolved => ⟨?_, ?_⟩, fun isin hresolved => ?_,
    fun isin hresolved => served hpos hresolved, fun lot hlot hne => ?_, fun t ht => ?_,
    fun reported hreported => ?_⟩
  · rw [left_eq hlot hresolved]
    exact hspec.nonneg _
  · rw [← sub_nonneg, quantity_sub_left hpos hlot hresolved, lost_nonneg_iff]
    exact h.bounded lot hlot hresolved
  · rw [sum_quantity_sub_left hpos hresolved, lost_eq, h.balanced isin hresolved, sub_zero]
    have hperm := (served hpos hresolved).map DisposalFact.magnitude
    rw [List.map_map] at hperm
    exact hperm.sum_eq
  · have hresolved : lot.key.instrumentId ∉ facts.resolve.unresolved := fun hunresolved =>
      hne (left_of_unresolved hunresolved)
    have hlost : takenFrom facts.resolve.taken lot.key ≠ [] := fun hnil => by
      have hsame := quantity_sub_left hpos hlot hresolved
      rw [hnil] at hsame
      exact hne (sub_eq_zero.mp hsame).symm
    obtain ⟨t, ht⟩ := List.exists_mem_of_ne_nil _ hlost
    obtain ⟨ht, hkey⟩ := List.mem_filter.mp ht
    obtain ⟨i, -, hvalid⟩ := hspec.valid t ht
    exact ⟨t, ht, List.inj_on_of_nodup_map facts.nodup_keys hvalid.mem hlot
      (of_decide_eq_true hkey)⟩
  · obtain ⟨i, -, hvalid⟩ := hspec.valid t ht
    exact hvalid.dated
  · obtain ⟨lot, -, hresolved, -, rfl⟩ := mem_remaining.mp hreported
    exact hresolved

theorem settles_of_conserves (h : facts.Conserves) : facts.Settles := by
  refine ⟨fun isin hresolved => ?_, fun lot hlot hresolved => ?_⟩
  · have htotal := h.total isin hresolved
    have hperm := (served hpos hresolved).map DisposalFact.magnitude
    rw [List.map_map] at hperm
    rw [sum_quantity_sub_left hpos hresolved, lost_eq, ← hperm.sum_eq] at htotal
    exact sub_eq_self.mp htotal
  · rw [← lost_nonneg_iff, ← quantity_sub_left hpos hlot hresolved, sub_nonneg]
    exact (h.bounds lot hlot hresolved).2

end

/-! ### Exact subtractions -/

theorem Taken.Exact.error_eq_zero {t : Taken} (h : t.Exact) : t.error = 0 := by
  have hquantity : t.disposal.quantity.getD 0 = t.disposal.magnitude := by
    have hunits := h.1
    unfold DisposalFact.magnitude at hunits ⊢
    unfold DisposalFact.quantity
    cases hnone : t.disposal.units with
    | none => simp
    | some units =>
      rw [hnone] at hunits
      exact hunits
  unfold Taken.error Taken.after
  rw [hquantity, h.2, sub_self]

/-- **Exact subtractions settle.** -/
theorem settles_of_exact {facts : Facts} (h : ∀ t ∈ facts.resolve.taken, t.Exact) :
    facts.Settles := by
  have hsum : ∀ l : List Taken, (∀ t ∈ l, t ∈ facts.resolve.taken) → (l.map Taken.error).sum = 0 :=
    fun l hl => List.sum_eq_zero fun x hx => by
      obtain ⟨t, ht, rfl⟩ := List.mem_map.mp hx
      exact (h t (hl t ht)).error_eq_zero
  refine ⟨fun isin _ => hsum _ fun t ht => (List.mem_filter.mp ht).1, fun lot _ _ => ?_⟩
  rw [hsum (takenFrom _ lot.key) fun t ht => (List.mem_filter.mp ht).1]
  refine List.sum_nonneg fun x hx => ?_
  obtain ⟨t, -, rfl⟩ := List.mem_map.mp hx
  exact abs_nonneg _

/-! ### Quantities of a common scale -/

/-- A number with so many decimal places that the context keeps all its digits. -/
def OnGrid (places : ℕ) (x : ℚ) : Prop := ∃ n : ℕ, n < 10 ^ precision ∧ x = n / 10 ^ places

section

variable {places : ℕ}

theorem inContext_of_onGrid {x : ℚ} (h : OnGrid places x) : inContext x = x := by
  obtain ⟨n, hn, rfl⟩ := h
  have habs : |(n : ℤ)| < 10 ^ precision := by
    rw [abs_of_nonneg (Int.natCast_nonneg n)]
    exact_mod_cast hn
  have hexact := roundSig_of_lt (k := places) habs
  rwa [Int.cast_natCast] at hexact

theorem OnGrid.sub {x y : ℚ} (hx : OnGrid places x) (hy : OnGrid places y) (hle : y ≤ x) :
    OnGrid places (x - y) := by
  obtain ⟨m, hm, rfl⟩ := hx
  obtain ⟨n, -, rfl⟩ := hy
  have hpow : (0 : ℚ) < 10 ^ places := by positivity
  have hnm : n ≤ m := by exact_mod_cast (div_le_div_iff_of_pos_right hpow).mp hle
  refine ⟨m - n, (Nat.sub_le m n).trans_lt hm, ?_⟩
  rw [Nat.cast_sub hnm, sub_div]

theorem OnGrid.quantity (h : OnGrid places disposal.magnitude) {quantity : ℚ}
    (hquantity : disposal.quantity = some quantity) : quantity = disposal.magnitude := by
  obtain ⟨units, hunits, rfl⟩ := Option.map_eq_some_iff.mp hquantity
  have hmagnitude : disposal.magnitude = |units| := by rw [DisposalFact.magnitude, hunits]; rfl
  rw [← hmagnitude]
  exact inContext_of_onGrid h

/-- On a common scale nothing is rounded. -/
theorem Taken.Valid.exact {t : Taken} (h : t.Valid facts isin) (hbefore : OnGrid places t.before)
    (hdisposal : OnGrid places t.disposal.magnitude) : t.Exact ∧ OnGrid places t.after := by
  obtain ⟨quantity, hquantity, hle⟩ := h.within
  obtain rfl := hdisposal.quantity hquantity
  have hgrid := hbefore.sub hdisposal hle
  have hafter : t.after = t.before - t.disposal.magnitude := by
    rw [Taken.after, hquantity]
    exact inContext_of_onGrid hgrid
  exact ⟨⟨inContext_of_onGrid hdisposal, inContext_of_onGrid hgrid⟩, hafter ▸ hgrid⟩

theorem draw_exact {before : LotKey → ℚ} {disposals : List DisposalFact}
    (hbefore : ∀ key, OnGrid places (before key))
    (hdisposals : ∀ d ∈ disposals, OnGrid places d.magnitude) :
    (∀ t ∈ (facts.draw isin before disposals).taken, t.Exact) ∧
      ∀ key, OnGrid places ((facts.draw isin before disposals).remaining key) := by
  induction disposals generalizing before with
  | nil => exact ⟨fun t ht => absurd ht List.not_mem_nil, hbefore⟩
  | cons disposal rest ih =>
    rw [Facts.draw]
    cases hidentify : facts.identify isin before disposal with
    | none => exact ⟨fun t ht => absurd ht List.not_mem_nil, hbefore⟩
    | some lot =>
      have hvalid := (identify_spec hidentify).valid
      obtain ⟨hexact, hafter⟩ := hvalid.exact (hbefore lot.key)
        (hdisposals disposal List.mem_cons_self)
      have hupdate : ∀ key, OnGrid places
          (Function.update before lot.key
            (Taken.after ⟨disposal, lot, before lot.key⟩) key) := by
        intro key
        by_cases hkey : key = lot.key
        · rw [hkey, Function.update_self]
          exact hafter
        · rw [Function.update_of_ne hkey]
          exact hbefore key
      obtain ⟨hlater, hgrid⟩ := ih hupdate fun d hd => hdisposals d (List.mem_cons_of_mem _ hd)
      refine ⟨fun t ht => ?_, hgrid⟩
      rcases List.mem_cons.mp ht with rfl | ht
      · exact hexact
      · exact hlater t ht

theorem foldl_exact (hordered : ∀ isin, ∀ d ∈ facts.ordered isin, OnGrid places d.magnitude)
    {isins : List String} {ledger : Ledger} (htaken : ∀ t ∈ ledger.taken, t.Exact)
    (hremaining : ∀ key, OnGrid places (ledger.remaining key)) :
    ∀ t ∈ (isins.foldl facts.settle ledger).taken, t.Exact := by
  induction isins generalizing ledger with
  | nil => exact htaken
  | cons isin rest ih =>
    obtain ⟨hdrawn, hgrid⟩ := draw_exact hremaining (hordered isin)
    refine ih (fun t ht => ?_) hgrid
    rcases List.mem_append.mp ht with ht | ht
    · exact htaken t ht
    · exact hdrawn t ht

/-- **Quantities of a common scale settle**, as do those that the columns of the lots hold. -/
theorem settles_of_grid (hlots : ∀ lot ∈ facts.lots, OnGrid places lot.quantity)
    (hdisposals : ∀ d ∈ facts.disposals, OnGrid places d.2.magnitude) : facts.Settles := by
  have hstart : ∀ key, OnGrid places (facts.original key) := by
    intro key
    unfold Facts.original
    cases hfind : facts.lots.find? (·.key = key) with
    | none => exact ⟨0, by decide, by simp⟩
    | some lot => exact hlots lot (List.mem_of_find?_eq_some hfind)
  have hordered : ∀ isin, ∀ d ∈ facts.ordered isin, OnGrid places d.magnitude := by
    intro isin d hd
    obtain ⟨e, he, rfl⟩ := List.mem_map.mp ((List.mem_insertionSort _).mp hd)
    exact hdisposals e (List.mem_filter.mp he).1
  exact settles_of_exact (foldl_exact hordered (fun t ht => absurd ht List.not_mem_nil) hstart)

end

section

variable [UnicodeTables] [CasReaders] {today : Int} {payloads : List Payload}

/-- **Consumption conserves the quantities if and only if the rounding errors settle.** -/
theorem conserves_iff (h : readFacts today payloads = .ok facts) :
    resolveLotConsumption today payloads = .ok facts.consumption ∧
      (facts.Conserves ↔ facts.Settles) := by
  have hpos : ∀ lot ∈ facts.lots, 0 < lot.quantity := fun lot => readFacts_pos h
  refine ⟨?_, settles_of_conserves hpos, conserves_of_settles hpos⟩
  rw [resolveLotConsumption, h]
  rfl

end

end

/-! ### A purchase and its redemptions -/

def redemption (units : String) : RawTransaction :=
  { purchase "1" "12.00" "12.00" with
    transactionType := .text "redemption"
    units := .text units
    date := .text "2026-03-01" }

def document (transactions : List RawTransaction) : Payload := ⟨some (transactions.map some)⟩

/-- What is left is rounded to what there was: the disposal is not taken. -/
theorem not_conserves :
    let _ := asciiTables
    let _ := plainCasReaders
    ∃ facts, readFacts 739726 [document [purchase "1" "12.00" "12.00",
        redemption "0.00000000000000000000000000001"]] = .ok facts ∧ ¬ facts.Conserves := by
  intro _ _
  have hview : (readFacts 739726 [document [purchase "1" "12.00" "12.00",
        redemption "0.00000000000000000000000000001"]]).map
      (fun facts => (facts.consumption.unresolvedInstruments,
        ((facts.lotsOf "INE000A01018").map
          fun lot => lot.quantity - facts.consumption.left lot).sum,
        ((facts.disposalsOf "INE000A01018").map DisposalFact.magnitude).sum)) =
      .ok ([], 0, 1 / 100000000000000000000000000000) := by decide +kernel
  obtain ⟨facts, hfacts, hvalues⟩ := map_eq_ok.mp hview
  obtain ⟨hresolved, hvalues⟩ := Prod.mk.inj hvalues
  obtain ⟨hlost, hdisposed⟩ := Prod.mk.inj hvalues
  refine ⟨facts, hfacts, fun h => ?_⟩
  have htotal := h.total "INE000A01018" (hresolved ▸ List.not_mem_nil)
  rw [hlost, hdisposed] at htotal
  exact absurd htotal (by norm_num)

/-- Two partial redemptions are taken exactly. -/
theorem conserves_partial :
    let _ := asciiTables
    let _ := plainCasReaders
    ∃ facts, readFacts 739726 [document [purchase "1.234567" "12.3456" "15.24",
        redemption "-0.100001", redemption "-0.100001"]] = .ok facts ∧
      facts.consumption.remaining.map (·.2) = [1034565 / 1000000] ∧ facts.Conserves := by
  intro _ _
  have hview : (readFacts 739726 [document [purchase "1.234567" "12.3456" "15.24",
        redemption "-0.100001", redemption "-0.100001"]]).map
      (fun facts => (facts.consumption.remaining.map (·.2), facts.lots.map (·.quantity),
        facts.disposals.map (·.2.magnitude))) =
      .ok ([1034565 / 1000000], [1234567 / 1000000], [100001 / 1000000, 100001 / 1000000]) := by
    decide +kernel
  obtain ⟨facts, hfacts, hvalues⟩ := map_eq_ok.mp hview
  obtain ⟨hremaining, hvalues⟩ := Prod.mk.inj hvalues
  obtain ⟨hlots, hdisposals⟩ := Prod.mk.inj hvalues
  have hgrid : ∀ lot ∈ facts.lots, OnGrid 6 lot.quantity := by
    intro lot hlot
    have hmem := List.mem_map_of_mem (f := (·.quantity)) hlot
    rw [hlots, List.mem_singleton] at hmem
    exact ⟨1234567, by decide, hmem.trans (by norm_num)⟩
  have hunits : ∀ d ∈ facts.disposals, OnGrid 6 d.2.magnitude := by
    intro d hd
    have hmem := List.mem_map_of_mem (f := (·.2.magnitude)) hd
    rw [hdisposals] at hmem
    have hvalue : d.2.magnitude = 100001 / 1000000 := by simpa using hmem
    exact ⟨100001, by decide, hvalue.trans (by norm_num)⟩
  exact ⟨facts, hfacts, hremaining, (conserves_iff hfacts).2.mpr (settles_of_grid hgrid hunits)⟩

end FinancialDashboard.Investments
