import FinancialDashboard.Core.Dates
import FinancialDashboard.Lib.Sql
import FinancialDashboard.Lib.Timeline
import FinancialDashboard.Payments.Uploads
import Mathlib.Data.List.Sort
import Mathlib.Data.Prod.Lex

/-!
# Card cycles

The window of a card statement (`services/cc_cycle.py`): from the day after the bill before
was due to the day its own is due.

The due dates but the last, each moved by a day, are cuts, and a statement has the piece at
its own place among them; the first piece is cut off at the day its statement was stored.

* `ccCycleWindow_eq`: a window by the place of its statement.
* `holds_iff_inPiece`: a window holds the days of its piece.
* `cycles_partition`: the windows of an account hold each day from the first on once.
-/

namespace FinancialDashboard.Payments

open PyText PyTime Statements FinancialDashboard.Core Posting Sql Timeline

/-- A half-open range of dates; one without an end is the latest. -/
structure CycleWindow where
  start : Int
  stop : Option Int
  deriving DecidableEq, Repr

/-- A statement with a due date. -/
structure Anchor where
  due : Int
  id : Nat
  createdAt : Option Int
  deriving DecidableEq, Repr

namespace CycleWindow

/-- `start ≤ date < end`. -/
structure Holds (window : CycleWindow) (date : Int) : Prop where
  start_le : window.start ≤ date
  lt_stop : ∀ stop, window.stop = some stop → date < stop

end CycleWindow

namespace Anchor

/-- The key of the sort: `id` breaks a tie of due dates. -/
def rank (anchor : Anchor) : Int ×ₗ Nat := toLex (anchor.due, anchor.id)

end Anchor

/-- `date + timedelta(days=1)`. -/
def nextDay (date : Int) : Except Raised Int :=
  if IsDate (date + 1) then .ok (date + 1) else .error .overflowError

/-- `_boundary`. -/
def boundary (earlierDue laterCreated : Option Int) : Except Raised (Option Int) :=
  match earlierDue with
  | some due => (nextDay due).map some
  | none => .ok (laterCreated.map dateOf)

section

variable [UnicodeTables] [Readers] (rows : List StatementUpload) (now : Int)

def anchorOf (row : StatementUpload) : Option Anchor :=
  row.due.map fun due => ⟨due, row.id, row.createdAt⟩

/-- The statements of an account that have a due date, in order of it. -/
def anchors (accountId : Nat) : List Anchor :=
  ((rows.filter (·.accountId = accountId)).filterMap anchorOf).insertionSort fun a b =>
    a.rank ≤ b.rank

/-- The next statement of the account to be stored, for one without a due date. -/
def laterCreated (upload : StatementUpload) : Option Int :=
  ((rows.filter fun row => row.accountId = upload.accountId).filterMap fun row =>
    row.createdAt.filter fun created => (upload.createdAt.any (· < created))).min?

def createdStart (upload : StatementUpload) : Int := dateOf (upload.createdAt.getD now)

/-- `cc_cycle_window`. -/
def ccCycleWindow (upload : StatementUpload) : Except Raised CycleWindow :=
  match upload.due with
  | none => .ok ⟨createdStart now upload, (laterCreated rows upload).map dateOf⟩
  | some thisDue => do
    let sorted := anchors rows upload.accountId
    let idx := sorted.findIdx? (·.id = upload.id)
    let prev := idx.bind fun i => if i = 0 then none else sorted[i - 1]?
    let next := idx.bind fun i => sorted[i + 1]?
    let start ← boundary (prev.map (·.due)) upload.createdAt
    let stop ← next.elim (.ok none) fun next => boundary (some thisDue) next.createdAt
    return ⟨start.getD (createdStart now upload), stop⟩

end

/-! ### Rows of a cycle -/

/-- What places a transaction: its date, or else when it was stored. -/
structure LedgerRow where
  transactionDate : Option Int
  createdAt : Option Int
  deriving DecidableEq, Repr

def startOfDay (date : Int) : Int := combine date ⟨0, by decide⟩

/-- `transactions_in_cycle`. -/
def transactionsInCycle (window : CycleWindow) (row : LedgerRow) : Truth :=
  let dated : Truth := row.transactionDate.map (window.start ≤ ·)
  let dateless := (isNull row.transactionDate).and (row.createdAt.map (startOfDay window.start ≤ ·))
  match window.stop with
  | none => dated.or dateless
  | some stop =>
    (dated.and (row.transactionDate.map (· < stop))).or
      (dateless.and (row.createdAt.map (· < startOfDay stop)))

/-- The day by which a transaction is placed. -/
def LedgerRow.position (row : LedgerRow) : Option Int :=
  row.transactionDate.or (row.createdAt.map dateOf)

theorem startOfDay_le_iff {date created : Int} : startOfDay date ≤ created ↔ date ≤ dateOf created := by
  unfold startOfDay combine dateOf days hours minutes seconds
  dsimp only
  omega

/-- **A row is in a cycle by its date, or else by the day it was stored.** -/
theorem holds_transactionsInCycle {window : CycleWindow} {row : LedgerRow} :
    (transactionsInCycle window row).holds = true ↔
      ∃ date, row.position = some date ∧ window.Holds date := by
  obtain ⟨date, created⟩ := row
  obtain ⟨start, stop⟩ := window
  have hpoint : ∀ {d e : Int}, e < startOfDay d ↔ dateOf e < d := fun {d e} => by
    rw [← not_le, startOfDay_le_iff, not_le]
  have hrange : ∀ d, (CycleWindow.mk start stop).Holds d ↔ start ≤ d ∧ ∀ e ∈ stop, d < e :=
    fun d => ⟨fun h => ⟨h.1, h.2⟩, fun h => ⟨h.1, h.2⟩⟩
  have hnull : Truth.holds none = false := rfl
  -- a dated row is told by its date, a dateless one by its point; the two never both apply
  cases date with
  | some date =>
    cases stop <;> cases created <;>
      simp [transactionsInCycle, LedgerRow.position, isNull, hrange, hnull]
  | none =>
    cases stop <;> cases created <;>
      simp [transactionsInCycle, LedgerRow.position, isNull, hrange, hnull, startOfDay_le_iff, hpoint]

/-! ### Edges -/

theorem boundary_some (due : Int) (created : Option Int) : boundary (some due) created =
    if IsDate (due + 1) then .ok (some (due + 1)) else .error .overflowError := by
  unfold boundary nextDay
  dsimp only
  split_ifs <;> rfl

theorem boundary_some_eq_ok {due : Int} {created edge : Option Int}
    (h : boundary (some due) created = .ok edge) : edge = some (due + 1) := by
  rw [boundary_some] at h
  split_ifs at h
  exact (Except.ok.inj h).symm

/-- The days after the due dates but the last. -/
def cutsOf (sorted : List Anchor) : List Int := sorted.dropLast.map (·.due + 1)

theorem getElem?_cutsOf (sorted : List Anchor) (i : Nat) : (cutsOf sorted)[i]? =
    (sorted[i + 1]?).bind fun _ => (sorted[i]?).map (·.due + 1) := by
  unfold cutsOf
  rw [List.getElem?_map, List.getElem?_dropLast]
  by_cases h : i < sorted.length - 1
  · rw [if_pos h, List.getElem?_eq_getElem (show i + 1 < sorted.length by omega)]
    rfl
  · rw [if_neg h, List.getElem?_eq_none (show sorted.length ≤ i + 1 by omega)]
    rfl

/-! ### What a window reads -/

/-- The rows keep what the windows are made of. -/
def KeepsBilling (g : StatementUpload → StatementUpload) : Prop :=
  ∀ u, (g u).id = u.id ∧ (g u).accountId = u.accountId ∧ (g u).dueDate = u.dueDate ∧
    (g u).createdAt = u.createdAt

section

variable [UnicodeTables] [Readers] {g : StatementUpload → StatementUpload}
  {rows : List StatementUpload} {now now' : Int} {u : StatementUpload}

omit [UnicodeTables] [Readers] in
theorem filter_account_map (hg : KeepsBilling g) (rows : List StatementUpload) (accountId : Nat) :
    (rows.map g).filter (·.accountId = accountId) =
      (rows.filter (·.accountId = accountId)).map g := by
  refine List.filter_map.trans (congrArg _ (List.filter_congr fun u _ => ?_))
  rw [Function.comp_apply, (hg u).2.1]

theorem anchors_map (hg : KeepsBilling g) (rows : List StatementUpload) (accountId : Nat) :
    anchors (rows.map g) accountId = anchors rows accountId := by
  unfold anchors
  rw [filter_account_map hg, List.filterMap_map]
  refine congrArg _ (List.filterMap_congr fun u _ => ?_)
  obtain ⟨hid, -, hdue, hcreated⟩ := hg u
  rw [Function.comp_apply, anchorOf, StatementUpload.due, hid, hdue, hcreated]
  rfl

omit [UnicodeTables] [Readers] in
theorem laterCreated_map (hg : KeepsBilling g) (rows : List StatementUpload) (u : StatementUpload) :
    laterCreated (rows.map g) (g u) = laterCreated rows u := by
  obtain ⟨-, haccount, -, hcreated⟩ := hg u
  unfold laterCreated
  rw [haccount, hcreated, filter_account_map hg, List.filterMap_map]
  refine congrArg _ (List.filterMap_congr fun v _ => ?_)
  rw [Function.comp_apply, (hg v).2.2.2]

/-- The statement was stamped when it was stored, or the two runs are on one day. -/
def SameStart (u : StatementUpload) (now now' : Int) : Prop :=
  u.createdAt.isSome ∨ dateOf now' = dateOf now

omit [UnicodeTables] [Readers] in
theorem createdStart_eq (h : SameStart u now now') : createdStart now' u = createdStart now u := by
  unfold createdStart
  rcases h with hsome | hday
  · obtain ⟨created, hcreated⟩ := Option.isSome_iff_exists.mp hsome
    rw [hcreated]
    rfl
  · cases u.createdAt with
    | none => exact hday
    | some created => rfl

/-- **A window is read off the due dates and the days of storing alone.** -/
theorem ccCycleWindow_map (hg : KeepsBilling g) (h : SameStart u now now') :
    ccCycleWindow (rows.map g) now' (g u) = ccCycleWindow rows now u := by
  obtain ⟨hid, haccount, hdue, hcreated⟩ := hg u
  have hstart : createdStart now' (g u) = createdStart now u := by
    rw [← createdStart_eq h]
    unfold createdStart
    rw [hcreated]
  unfold ccCycleWindow StatementUpload.due
  rw [hdue, laterCreated_map hg, hstart, haccount, anchors_map hg, hid, hcreated]

end

/-! ### The order of the statements -/

section

variable [UnicodeTables] [Readers] {rows : List StatementUpload} {table : UploadTable}
  {accountId : Nat} {now : Int} {u v : StatementUpload} {a b : Anchor} {i j : Nat}

/-- The statements of an account that anchor a cycle. -/
def anchored (table : UploadTable) (accountId : Nat) : List StatementUpload :=
  table.rows.filter fun u => u.accountId = accountId && u.due.isSome

/-- `u` is sorted no later than `v`. -/
def Precedes (u v : StatementUpload) : Prop :=
  ∀ a b, anchorOf u = some a → anchorOf v = some b → a.rank ≤ b.rank

theorem mem_anchored : u ∈ anchored table accountId ↔
    u ∈ table.rows ∧ u.accountId = accountId ∧ ∃ a, anchorOf u = some a := by
  unfold anchored anchorOf
  cases hdue : u.due <;> simp [hdue]

theorem anchorOf_eq_some (h : anchorOf u = some a) : u.due = some a.due ∧ a.id = u.id := by
  obtain ⟨due, hdue, rfl⟩ := Option.map_eq_some_iff.mp h
  exact ⟨hdue, rfl⟩

theorem mem_anchors : a ∈ anchors table.rows accountId ↔
    ∃ u ∈ anchored table accountId, anchorOf u = some a := by
  simp only [anchors, List.mem_insertionSort, List.mem_filterMap, List.mem_filter, mem_anchored,
    decide_eq_true_eq]
  constructor
  · rintro ⟨u, ⟨hu, haccount⟩, ha⟩
    exact ⟨u, ⟨hu, haccount, a, ha⟩, ha⟩
  · rintro ⟨u, ⟨hu, haccount, -⟩, ha⟩
    exact ⟨u, ⟨hu, haccount⟩, ha⟩

theorem sorted_anchors : (anchors rows accountId).Pairwise fun a b => a.rank ≤ b.rank := by
  have htotal : Std.Total fun a b : Anchor => a.rank ≤ b.rank := ⟨fun a b => le_total _ _⟩
  have htrans : IsTrans Anchor fun a b => a.rank ≤ b.rank := ⟨fun _ _ _ => le_trans⟩
  exact List.pairwise_insertionSort _ _

theorem nodup_anchors : ((anchors table.rows accountId).map (·.id)).Nodup := by
  refine ((List.perm_insertionSort _ _).map _).nodup_iff.mpr ?_
  have hids : (table.rows.filter (·.accountId = accountId)).Pairwise fun u v => u.id ≠ v.id :=
    (List.pairwise_map.mp table.nodup_ids).filter _
  refine List.pairwise_map.mpr (List.pairwise_filterMap.mpr (hids.imp ?_))
  intro u v hne a ha b hb
  rw [(anchorOf_eq_some ha).2, (anchorOf_eq_some hb).2]
  exact hne

/-! ### A window by its place -/

/-- The statement `u` is the one at the place `i`. -/
structure PlacedAt (table : UploadTable) (u : StatementUpload) (a : Anchor) (i : Nat) : Prop where
  mem : u ∈ table.rows
  anchor : anchorOf u = some a
  getElem? : (anchors table.rows u.accountId)[i]? = some a

theorem exists_placedAt (h : u ∈ anchored table accountId) :
    u.accountId = accountId ∧ ∃ a i, PlacedAt table u a i := by
  obtain ⟨hu, rfl, a, ha⟩ := mem_anchored.mp h
  obtain ⟨i, hi⟩ := List.mem_iff_getElem?.mp (mem_anchors.mpr ⟨u, h, ha⟩)
  exact ⟨rfl, a, i, hu, ha, hi⟩

theorem findIdx?_eq (h : PlacedAt table u a i) :
    (anchors table.rows u.accountId).findIdx? (·.id = u.id) = some i := by
  obtain ⟨hlt, hget⟩ := List.getElem?_eq_some_iff.mp h.getElem?
  have hid := (anchorOf_eq_some h.anchor).2
  refine List.findIdx?_eq_some_iff_getElem.mpr ⟨hlt, by simp [hget, hid], fun j hj => ?_⟩
  have hne := List.pairwise_iff_getElem.mp (List.pairwise_map.mp nodup_anchors) j i
    (hj.trans hlt) hlt hj
  rw [hget, hid] at hne
  simpa using hne

/-- **A window by the place of its statement.** -/
theorem of_ccCycleWindow {w : CycleWindow} (h : PlacedAt table u a i)
    (hw : ccCycleWindow table.rows now u = .ok w) :
    (i = 0 → w.start = createdStart now u) ∧
      (∀ c, i ≠ 0 → (cutsOf (anchors table.rows u.accountId))[i - 1]? = some c → w.start = c) ∧
      w.stop = (cutsOf (anchors table.rows u.accountId))[i]? := by
  unfold ccCycleWindow at hw
  rw [(anchorOf_eq_some h.anchor).1] at hw
  dsimp only at hw
  rw [findIdx?_eq h, Option.bind_some, Option.bind_some] at hw
  obtain ⟨start, hstart, hw⟩ := bind_eq_ok.mp hw
  obtain ⟨stop, hstop, hw⟩ := bind_eq_ok.mp hw
  obtain rfl := Except.ok.inj hw
  refine ⟨fun hi => ?_, fun c hi hc => ?_, ?_⟩
  · rw [if_pos hi] at hstart
    obtain rfl := Except.ok.inj hstart
    cases hcreated : u.createdAt <;> simp [createdStart, hcreated]
  · rw [getElem?_cutsOf, Nat.sub_add_cancel (Nat.pos_of_ne_zero hi), h.getElem?] at hc
    obtain ⟨prev, hprev, rfl⟩ := Option.map_eq_some_iff.mp hc
    rw [if_neg hi, hprev] at hstart
    rw [boundary_some_eq_ok hstart]
    rfl
  · rw [getElem?_cutsOf, h.getElem?]
    cases hnext : (anchors table.rows u.accountId)[i + 1]? with
    | none =>
      rw [hnext] at hstop
      exact (Except.ok.inj hstop).symm
    | some next =>
      rw [hnext, Option.elim_some] at hstop
      exact boundary_some_eq_ok hstop

theorem exists_ccCycleWindow (h : PlacedAt table u a i)
    (hdates : ∀ c ∈ cutsOf (anchors table.rows u.accountId), IsDate c) :
    ∃ w, ccCycleWindow table.rows now u = .ok w := by
  have hcut : ∀ j c, (cutsOf (anchors table.rows u.accountId))[j]? = some c → IsDate c :=
    fun j c hc => hdates c (List.mem_of_getElem? hc)
  unfold ccCycleWindow
  rw [(anchorOf_eq_some h.anchor).1]
  dsimp only
  rw [findIdx?_eq h, Option.bind_some, Option.bind_some]
  have hstart : ∃ start, boundary
      ((if i = 0 then none else (anchors table.rows u.accountId)[i - 1]?).map (·.due))
        u.createdAt = .ok start := by
    by_cases hi : i = 0
    · exact ⟨_, by rw [if_pos hi]; rfl⟩
    · have hprev := hcut (i - 1)
      rw [getElem?_cutsOf, Nat.sub_add_cancel (Nat.pos_of_ne_zero hi), h.getElem?] at hprev
      rw [if_neg hi]
      cases hget : (anchors table.rows u.accountId)[i - 1]? with
      | none => exact ⟨_, rfl⟩
      | some prev =>
        rw [hget] at hprev
        exact ⟨_, (boundary_some prev.due u.createdAt).trans (if_pos (hprev _ rfl))⟩
  have hstop : ∃ stop, (anchors table.rows u.accountId)[i + 1]?.elim (.ok none) (fun next =>
      boundary (some a.due) next.createdAt) = .ok stop := by
    have hthis := hcut i
    rw [getElem?_cutsOf, h.getElem?] at hthis
    cases hget : (anchors table.rows u.accountId)[i + 1]? with
    | none => exact ⟨_, rfl⟩
    | some next =>
      rw [hget] at hthis
      exact ⟨_, (boundary_some a.due next.createdAt).trans (if_pos (hthis _ rfl))⟩
  obtain ⟨start, hstart⟩ := hstart
  obtain ⟨stop, hstop⟩ := hstop
  exact ⟨_, bind_eq_ok.mpr ⟨start, hstart, bind_eq_ok.mpr ⟨stop, hstop, rfl⟩⟩⟩

theorem PlacedAt.le_length (h : PlacedAt table u a i) :
    i ≤ (cutsOf (anchors table.rows u.accountId)).length := by
  have hlt := (List.getElem?_eq_some_iff.mp h.getElem?).1
  unfold cutsOf
  rw [List.length_map, List.length_dropLast]
  omega

/-- A window holds the days of its piece. -/
theorem holds_iff_inPiece {w : CycleWindow} {date : Int} (h : PlacedAt table u a i)
    (hw : ccCycleWindow table.rows now u = .ok w) : w.Holds date ↔
      InPiece (cutsOf (anchors table.rows u.accountId)) i date ∧
        (i = 0 → createdStart now u ≤ date) := by
  obtain ⟨hfirst, hstart, hstop⟩ := of_ccCycleWindow h hw
  have hlength := h.le_length
  constructor
  · intro hholds
    refine ⟨⟨fun c hi hc => ?_, fun c hc => hholds.lt_stop c (hstop ▸ hc)⟩, fun hi => ?_⟩
    · exact hstart c hi hc ▸ hholds.start_le
    · exact hfirst hi ▸ hholds.start_le
  · rintro ⟨hpiece, hcreated⟩
    refine ⟨?_, fun c hc => hpiece.before_cut c (hstop ▸ hc)⟩
    by_cases hi : i = 0
    · rw [hfirst hi]
      exact hcreated hi
    · have hprev : i - 1 < (cutsOf (anchors table.rows u.accountId)).length := by omega
      rw [hstart _ hi (List.getElem?_eq_getElem hprev)]
      exact hpiece.from_cut _ hi (List.getElem?_eq_getElem hprev)

/-! ### The windows of an account -/

omit [UnicodeTables] [Readers] in
theorem due_le_of_rank (h : a.rank ≤ b.rank) : a.due ≤ b.due := by
  rcases Prod.Lex.toLex_le_toLex.mp h with hlt | ⟨heq, -⟩
  · exact hlt.le
  · exact heq.le

theorem sorted_cutsOf (rows : List StatementUpload) (accountId : Nat) :
    (cutsOf (anchors rows accountId)).Pairwise (· ≤ ·) := by
  refine List.pairwise_map.mpr ((sorted_anchors.sublist (List.dropLast_sublist _)).imp ?_)
  intro a b hrank
  have hdue := due_le_of_rank hrank
  omega

theorem PlacedAt.eq (hu : PlacedAt table u a i) (hv : PlacedAt table v b i)
    (haccount : u.accountId = v.accountId) : u = v := by
  have hget := hv.getElem?
  rw [← haccount, hu.getElem?] at hget
  obtain rfl := Option.some.inj hget
  refine table.eq_of_id hu.mem hv.mem ?_
  rw [← (anchorOf_eq_some hu.anchor).2, ← (anchorOf_eq_some hv.anchor).2]

theorem exists_placedAt_of_lt (hi : i < (anchors table.rows accountId).length) :
    ∃ u ∈ anchored table accountId, ∃ a, PlacedAt table u a i := by
  have hget := List.getElem?_eq_getElem hi
  obtain ⟨u, hu, ha⟩ := mem_anchors.mp (List.mem_of_getElem? hget)
  obtain ⟨hrow, rfl, -⟩ := mem_anchored.mp hu
  exact ⟨u, hu, _, hrow, ha, hget⟩

theorem PlacedAt.place_eq (hi : PlacedAt table u a i) (hj : PlacedAt table u b j) : i = j :=
  Option.some.inj ((findIdx?_eq hi).symm.trans (findIdx?_eq hj))

/-- The places are in the order of the statements. -/
theorem PlacedAt.le_of_precedes (hu : PlacedAt table u a i) (hv : PlacedAt table v b j)
    (haccount : v.accountId = u.accountId) (h : Precedes u v) : i ≤ j := by
  by_contra hlt
  obtain ⟨hi, hgeta⟩ := List.getElem?_eq_some_iff.mp hu.getElem?
  obtain ⟨hj, hgetb⟩ := List.getElem?_eq_some_iff.mp (haccount ▸ hv.getElem?)
  have hle : a.rank ≤ b.rank := h a b hu.anchor hv.anchor
  have hge := List.pairwise_iff_getElem.mp sorted_anchors j i hj hi (not_le.mp hlt)
  rw [hgeta, hgetb] at hge
  have hid : a.id = b.id := congrArg (fun rank => (ofLex rank).2) (le_antisymm hle hge)
  rw [(anchorOf_eq_some hu.anchor).2, (anchorOf_eq_some hv.anchor).2] at hid
  obtain rfl := table.eq_of_id hu.mem hv.mem hid
  exact hlt (hu.place_eq hv).le

/-- The first statement of an account is at the first place. -/
theorem PlacedAt.eq_zero (h : PlacedAt table u a i)
    (hfirst : ∀ v ∈ anchored table u.accountId, Precedes u v) : i = 0 := by
  have hlt := (List.getElem?_eq_some_iff.mp h.getElem?).1
  obtain ⟨v, hv, b, hplace⟩ := exists_placedAt_of_lt (Nat.zero_lt_of_lt hlt)
  exact Nat.le_zero.mp (h.le_of_precedes hplace (exists_placedAt hv).1 (hfirst v hv))

/-- The last statement of an account is at the last place. -/
theorem PlacedAt.eq_last (h : PlacedAt table u a i)
    (hlast : ∀ v ∈ anchored table u.accountId, Precedes v u) :
    (anchors table.rows u.accountId)[i + 1]? = none := by
  refine List.getElem?_eq_none (not_lt.mp fun hnext => ?_)
  obtain ⟨v, hv, b, hplace⟩ := exists_placedAt_of_lt hnext
  have hle := hplace.le_of_precedes h (exists_placedAt hv).1.symm (hlast v hv)
  omega

/-- **Two windows have no day in common.** -/
theorem eq_of_holds {w w' : CycleWindow} {date : Int} (hu : u ∈ anchored table accountId)
    (hv : v ∈ anchored table accountId) (hw : ccCycleWindow table.rows now u = .ok w)
    (hw' : ccCycleWindow table.rows now v = .ok w') (hdate : w.Holds date)
    (hdate' : w'.Holds date) : u = v := by
  obtain ⟨rfl, a, i, hplace⟩ := exists_placedAt hu
  obtain ⟨haccount, b, j, hplace'⟩ := exists_placedAt hv
  obtain ⟨hpiece, -⟩ := (holds_iff_inPiece hplace hw).mp hdate
  obtain ⟨hpiece', -⟩ := (holds_iff_inPiece hplace' hw').mp hdate'
  have hlength' := hplace'.le_length
  rw [haccount] at hpiece' hlength'
  obtain rfl : i = j := le_antisymm (hpiece'.le (sorted_cutsOf _ _) hpiece hplace.le_length)
    (hpiece.le (sorted_cutsOf _ _) hpiece' hlength')
  exact hplace.eq hplace' haccount.symm

/-- **Every day from the first window on is in one**, if every statement is assigned one. -/
theorem existsUnique_holds {first : StatementUpload} {w : CycleWindow} {date : Int}
    (hassigned : ∀ u ∈ anchored table accountId, ∃ w, ccCycleWindow table.rows now u = .ok w)
    (hmem : first ∈ anchored table accountId)
    (hfirst : ∀ v ∈ anchored table accountId, Precedes first v)
    (hw : ccCycleWindow table.rows now first = .ok w) (hdate : w.start ≤ date) :
    ∃! u, u ∈ anchored table accountId ∧
      ∃ w, ccCycleWindow table.rows now u = .ok w ∧ w.Holds date := by
  obtain ⟨rfl, a, i, hplace⟩ := exists_placedAt hmem
  obtain rfl := hplace.eq_zero hfirst
  have hcreated : createdStart now first ≤ date := (of_ccCycleWindow hplace hw).1 rfl ▸ hdate
  obtain ⟨j, ⟨hj, hpiece⟩, -⟩ := existsUnique_piece
    (sorted_cutsOf table.rows first.accountId) date
  have hlt : j < (anchors table.rows first.accountId).length := by
    have hpos := (List.getElem?_eq_some_iff.mp hplace.getElem?).1
    unfold cutsOf at hj
    rw [List.length_map, List.length_dropLast] at hj
    omega
  obtain ⟨u, hu, b, hplaceu⟩ := exists_placedAt_of_lt hlt
  obtain ⟨haccount, -⟩ := exists_placedAt hu
  obtain ⟨w', hw'⟩ := hassigned u hu
  have hholds : w'.Holds date := by
    refine (holds_iff_inPiece hplaceu hw').mpr ⟨haccount ▸ hpiece, ?_⟩
    rintro rfl
    rwa [hplaceu.eq hplace haccount]
  refine ⟨u, ⟨hu, w', hw', hholds⟩, ?_⟩
  rintro v ⟨hv, w'', hw'', hholdsv⟩
  exact eq_of_holds hv hu hw'' hw' hholdsv hholds

/-- What the windows of an account are to time. -/
structure Partition (table : UploadTable) (now : Int) (accountId : Nat) : Prop where
  /-- A statement is assigned a window unless the calendar ends at an edge. -/
  assigned : (∀ u ∈ anchored table accountId, ∀ due ∈ u.due, IsDate (due + 1)) →
    ∀ u ∈ anchored table accountId, ∃ w, ccCycleWindow table.rows now u = .ok w
  disjoint : ∀ u ∈ anchored table accountId, ∀ v ∈ anchored table accountId, u ≠ v →
    ∀ w w', ccCycleWindow table.rows now u = .ok w → ccCycleWindow table.rows now v = .ok w' →
      ∀ date, ¬ (w.Holds date ∧ w'.Holds date)
  open_ended : ∀ last ∈ anchored table accountId,
    (∀ v ∈ anchored table accountId, Precedes v last) →
      ∀ w, ccCycleWindow table.rows now last = .ok w → w.stop = none
  covers : (∀ u ∈ anchored table accountId, ∃ w, ccCycleWindow table.rows now u = .ok w) →
    ∀ first ∈ anchored table accountId, (∀ v ∈ anchored table accountId, Precedes first v) →
      ∀ w, ccCycleWindow table.rows now first = .ok w → ∀ date, w.start ≤ date →
        ∃! u, u ∈ anchored table accountId ∧
          ∃ w, ccCycleWindow table.rows now u = .ok w ∧ w.Holds date
  /-- A row is counted in the cycle of one statement. -/
  credited : (∀ u ∈ anchored table accountId, ∃ w, ccCycleWindow table.rows now u = .ok w) →
    ∀ first ∈ anchored table accountId, (∀ v ∈ anchored table accountId, Precedes first v) →
      ∀ w, ccCycleWindow table.rows now first = .ok w →
        ∀ row : LedgerRow, ∀ date ∈ row.position, w.start ≤ date →
          ∃! u, u ∈ anchored table accountId ∧ ∃ w, ccCycleWindow table.rows now u = .ok w ∧
            (transactionsInCycle w row).holds = true

/-- **The windows of an account partition time.** -/
theorem cycles_partition (table : UploadTable) (now : Int) (accountId : Nat) :
    Partition table now accountId where
  assigned hdates u hu := by
    obtain ⟨rfl, a, i, hplace⟩ := exists_placedAt hu
    refine exists_ccCycleWindow hplace fun c hc => ?_
    obtain ⟨b, hb, rfl⟩ := List.mem_map.mp hc
    obtain ⟨v, hv, hanchor⟩ := mem_anchors.mp (List.mem_of_mem_dropLast hb)
    exact hdates v hv b.due (anchorOf_eq_some hanchor).1
  disjoint u hu v hv hne w w' hw hw' date h := hne (eq_of_holds hu hv hw hw' h.1 h.2)
  open_ended last hmem hlast w hw := by
    obtain ⟨rfl, a, i, hplace⟩ := exists_placedAt hmem
    rw [(of_ccCycleWindow hplace hw).2.2, getElem?_cutsOf, hplace.eq_last hlast]
    rfl
  covers hassigned first hmem hfirst w hw date hdate :=
    existsUnique_holds hassigned hmem hfirst hw hdate
  credited hassigned first hmem hfirst w hw row date hrow hdate := by
    have hiff : ∀ w : CycleWindow,
        (transactionsInCycle w row).holds = true ↔ w.Holds date := fun w => by
      rw [holds_transactionsInCycle, Option.mem_def.mp hrow]
      simp
    simp only [hiff]
    exact existsUnique_holds hassigned hmem hfirst hw hdate

end

end FinancialDashboard.Payments
