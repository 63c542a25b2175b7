import FinancialDashboard.Payments.Cycle
import FinancialDashboard.Payments.Newest

/-!
# The open window

Whether the statement that `latest_per_account` keeps (`services/reminders.py`) is the one
whose window `cc_cycle_window` leaves open (`services/cc_cycle.py`).

Both go by the due date.  Of those that share the latest one the first keeps the one listed
first; the second leaves open the window of the one with the greatest id.

* `mem_latestPerAccount`: what is kept is the first listed with the latest due date.
* `opened_iff`: a window is open if no statement of the account is sorted after its own.
* `agrees_iff`: the two agree if the first listed has the greatest id.
-/

namespace FinancialDashboard.Payments

open PyText PyTime Statements FinancialDashboard.Core Posting

section

variable [UnicodeTables] [Readers] {rows : List StatementUpload} {table : UploadTable}
  {accountId : Nat} {now : Int} {u v : StatementUpload} {a : Anchor} {i : Nat}

/-- `v` is billed to the account of `u` for the same day. -/
def SameBill (u v : StatementUpload) : Prop := v.accountId = u.accountId ∧ v.due = u.due

/-- `u` is kept of its account: it is the first listed with the latest due date, which those
in `after` may share. -/
structure KeptAt (rows : List StatementUpload) (u : StatementUpload)
    (after : List StatementUpload) : Prop where
  listed : ∃ before, rows = before ++ u :: after ∧ ∀ v ∈ before, ¬ SameBill u v
  newest : IsNewest rows u

/-- The window of a statement has no end. -/
def Opened (table : UploadTable) (now : Int) (u : StatementUpload) : Prop :=
  ∃ w, ccCycleWindow table.rows now u = .ok w ∧ w.stop = none

/-- What is kept of the account has the open window, and it alone is credited with the rows
from there on. -/
structure Agrees (table : UploadTable) (now : Int) (accountId : Nat) : Prop where
  opened : ∀ u ∈ latestPerAccount table.rows, u.accountId = accountId →
    ∀ v ∈ anchored table accountId, Opened table now v ↔ v = u
  credited : ∀ u ∈ latestPerAccount table.rows, u.accountId = accountId →
    ∀ w, ccCycleWindow table.rows now u = .ok w →
      ∀ row : LedgerRow, ∀ date ∈ row.position, w.start ≤ date →
        ∀ v ∈ anchored table accountId, ∀ w', ccCycleWindow table.rows now v = .ok w' →
          ((transactionsInCycle w' row).holds = true ↔ v = u)

/-- What is kept of the account has a greater id than the statements that share its due date,
and if there are any the calendar goes on after that day. -/
def FirstIsLast (rows : List StatementUpload) (accountId : Nat) : Prop :=
  ∀ u after, KeptAt rows u after → u.accountId = accountId →
    ∀ v ∈ after, SameBill u v → v.id < u.id ∧ ∀ due ∈ u.due, IsDate (due + 1)

/-- A date that was read is in the calendar. -/
def InCalendar : Prop := ∀ text day, parseDate text = some day → IsDate day

/-! ### The statement kept -/

theorem mem_latestPerAccount : u ∈ latestPerAccount rows ↔ ∃ after, KeptAt rows u after := by
  constructor
  · intro h
    obtain ⟨⟨due, u⟩, hp, rfl⟩ := List.mem_map.mp h
    obtain ⟨before, after, hsplit, hbefore, -⟩ := Dict.mem_newest_iff.mp hp
    obtain ⟨front, rest, rfl, rfl, hrest⟩ := List.filterMap_eq_append_iff.mp hsplit
    obtain ⟨skipped, x, after', rfl, hskipped, hx, rfl⟩ := List.filterMap_eq_cons_iff.mp hrest
    obtain ⟨due', hdue, heq⟩ := Option.map_eq_some_iff.mp hx
    obtain ⟨rfl, rfl⟩ := Prod.mk.inj heq
    refine ⟨after', ⟨front ++ skipped, by simp, fun v hv hsame => ?_⟩, (latestPerAccount_spec h).2⟩
    rcases List.mem_append.mp hv with hv | hv
    · have hlt := hbefore (due', v) (List.mem_filterMap.mpr ⟨v, hv, by rw [hsame.2, hdue]; rfl⟩)
      exact absurd (hlt hsame.1) (lt_irrefl _)
    · have hnone := hskipped v hv
      rw [hsame.2, hdue] at hnone
      cases hnone
  · rintro ⟨after, ⟨before, hrows, hbefore⟩, due, hdue, hlast⟩
    refine List.mem_map.mpr ⟨(due, u), Dict.mem_newest_iff.mpr ?_, rfl⟩
    refine ⟨before.filterMap fun v => v.due.map (·, v), after.filterMap fun v => v.due.map (·, v),
      by rw [hrows, List.filterMap_append, List.filterMap_cons, hdue]; rfl, ?_, ?_⟩
    · rintro p hp haccount
      obtain ⟨hmem, hdue'⟩ := mem_dated.mp hp
      have hrow : p.2 ∈ rows := hrows ▸ List.mem_append_left _ hmem
      refine lt_of_le_of_ne (hlast _ hrow haccount _ hdue') fun heq => ?_
      exact hbefore _ hmem ⟨haccount, by rw [hdue', hdue]; exact congrArg some heq⟩
    · rintro p hp haccount
      obtain ⟨hmem, hdue'⟩ := mem_dated.mp hp
      have hrow : p.2 ∈ rows := hrows ▸ List.mem_append_right _ (List.mem_cons_of_mem _ hmem)
      exact hlast _ hrow haccount _ hdue'

theorem KeptAt.anchored {after : List StatementUpload} (h : KeptAt table.rows u after) :
    u ∈ anchored table u.accountId := by
  obtain ⟨⟨before, hrows, -⟩, due, hdue, -⟩ := h
  refine mem_anchored.mpr ⟨hrows ▸ by simp, rfl, ⟨due, u.id, u.createdAt⟩, ?_⟩
  rw [anchorOf, hdue]
  rfl

/-! ### The open window -/

theorem isDate_due (hcalendar : InCalendar) {due : Int} (h : u.due = some due) : IsDate due := by
  obtain ⟨text, -, hparse⟩ := Option.bind_eq_some_iff.mp h
  exact hcalendar text due hparse

/-- A window was assigned, so the day after the bill before is in the calendar. -/
theorem isDate_of_ccCycleWindow {w : CycleWindow} {prev : Anchor} (h : PlacedAt table u a (i + 1))
    (hw : ccCycleWindow table.rows now u = .ok w)
    (hprev : (anchors table.rows u.accountId)[i]? = some prev) : IsDate (prev.due + 1) := by
  unfold ccCycleWindow at hw
  rw [(anchorOf_eq_some h.anchor).1] at hw
  dsimp only at hw
  rw [findIdx?_eq h, Option.bind_some, if_neg (Nat.succ_ne_zero i), Nat.add_sub_cancel,
    hprev] at hw
  obtain ⟨start, hstart, -⟩ := bind_eq_ok.mp hw
  rw [Option.map_some, boundary_some] at hstart
  split_ifs at hstart with hdate
  exact hdate

theorem PlacedAt.stop_eq_none_iff {w : CycleWindow} (h : PlacedAt table u a i)
    (hw : ccCycleWindow table.rows now u = .ok w) :
    w.stop = none ↔ i + 1 = (anchors table.rows u.accountId).length := by
  have hlt := (List.getElem?_eq_some_iff.mp h.getElem?).1
  rw [(of_ccCycleWindow h hw).2.2, getElem?_cutsOf, h.getElem?]
  constructor
  · intro hnone
    by_contra hne
    rw [List.getElem?_eq_getElem (show i + 1 < _ by omega)] at hnone
    cases hnone
  · intro hlast
    rw [List.getElem?_eq_none hlast.ge]
    rfl

/-- The other statements of the account are sorted before `u`, and if one is due on the same
day the calendar goes on after it. -/
def SortedLast (table : UploadTable) (u : StatementUpload) : Prop :=
  ∀ v ∈ anchored table u.accountId, v ≠ u →
    Precedes v u ∧ (v.due = u.due → ∀ due ∈ u.due, IsDate (due + 1))

theorem rank_le_of_le {b : Anchor} {j : Nat} (ha : (anchors rows accountId)[i]? = some a)
    (hb : (anchors rows accountId)[j]? = some b) (h : i ≤ j) : a.rank ≤ b.rank := by
  obtain ⟨hi, rfl⟩ := List.getElem?_eq_some_iff.mp ha
  obtain ⟨hj, rfl⟩ := List.getElem?_eq_some_iff.mp hb
  rcases Nat.lt_or_eq_of_le h with hlt | rfl
  · exact List.pairwise_iff_getElem.mp sorted_anchors i j hi hj hlt
  · exact le_refl _

theorem sortedLast_of_opened (hu : u ∈ anchored table u.accountId) (h : Opened table now u) :
    SortedLast table u := by
  obtain ⟨w, hw, hstop⟩ := h
  obtain ⟨-, a, i, hplace⟩ := exists_placedAt hu
  have hlast := (hplace.stop_eq_none_iff hw).mp hstop
  intro v hv hne
  obtain ⟨haccount, b, j, hplace'⟩ := exists_placedAt hv
  have hgetb := hplace'.getElem?
  rw [haccount] at hgetb
  have hlt : j < i := by
    have hj := (List.getElem?_eq_some_iff.mp hgetb).1
    refine lt_of_le_of_ne (by omega) fun heq => ?_
    exact hne (hplace'.eq (heq ▸ hplace) haccount)
  refine ⟨fun b' a' hb' ha' => ?_, fun hsame due hdue => ?_⟩
  · obtain rfl := Option.some.inj (hplace'.anchor.symm.trans hb')
    obtain rfl := Option.some.inj (hplace.anchor.symm.trans ha')
    exact rank_le_of_le hgetb hplace.getElem? hlt.le
  · -- the statement right before `u` is due no earlier than `v`, so on that day too
    obtain ⟨k, rfl⟩ := Nat.exists_eq_succ_of_ne_zero (Nat.ne_of_gt (Nat.zero_lt_of_lt hlt))
    have hk : k < (anchors table.rows u.accountId).length := by omega
    have hprev := List.getElem?_eq_getElem hk
    generalize (anchors table.rows u.accountId)[k] = prev at hprev
    have hduea : u.due = some a.due := (anchorOf_eq_some hplace.anchor).1
    have hdueb : v.due = some b.due := (anchorOf_eq_some hplace'.anchor).1
    have hab : b.due = a.due := Option.some.inj (by rw [← hduea, ← hdueb, hsame])
    have hbefore := due_le_of_rank (rank_le_of_le hgetb hprev (Nat.le_of_lt_succ hlt))
    have hafter := due_le_of_rank (rank_le_of_le hprev hplace.getElem? (Nat.le_succ k))
    have hdate := isDate_of_ccCycleWindow hplace hw hprev
    obtain rfl := Option.some.inj (hduea.symm.trans hdue)
    have heq : prev.due = a.due := by omega
    exact heq ▸ hdate

theorem opened_of_sortedLast (hcalendar : InCalendar) (hu : u ∈ anchored table u.accountId)
    (h : SortedLast table u) : Opened table now u := by
  obtain ⟨-, a, i, hplace⟩ := exists_placedAt hu
  have hlast : ∀ v ∈ anchored table u.accountId, Precedes v u := by
    intro v hv
    by_cases heq : v = u
    · rw [heq]
      intro b c hb hc
      exact (Option.some.inj (hb.symm.trans hc)).symm ▸ le_refl _
    · exact (h v hv heq).1
  have hnext := hplace.eq_last hlast
  have hdates : ∀ c ∈ cutsOf (anchors table.rows u.accountId), IsDate c := by
    intro c hc
    obtain ⟨j, hj⟩ := List.mem_iff_getElem?.mp hc
    rw [getElem?_cutsOf] at hj
    obtain ⟨next, hsome, hj⟩ := Option.bind_eq_some_iff.mp hj
    obtain ⟨b, hb, rfl⟩ := Option.map_eq_some_iff.mp hj
    obtain ⟨v, hv, c, hplace'⟩ := exists_placedAt_of_lt (List.getElem?_eq_some_iff.mp hb).1
    have hne : v ≠ u := by
      rintro rfl
      rw [hplace'.place_eq hplace, hnext] at hsome
      cases hsome
    obtain ⟨haccount, -⟩ := exists_placedAt hv
    have hgetb := hplace'.getElem?
    rw [haccount, hb] at hgetb
    obtain rfl := Option.some.inj hgetb
    have hdueb : v.due = some b.due := (anchorOf_eq_some hplace'.anchor).1
    have hduea : u.due = some a.due := (anchorOf_eq_some hplace.anchor).1
    have hle := due_le_of_rank ((h v hv hne).1 b a hplace'.anchor hplace.anchor)
    rcases lt_or_eq_of_le hle with hlt | heq
    · have hdateb := isDate_due hcalendar hdueb
      have hdatea := isDate_due hcalendar hduea
      unfold IsDate at hdatea hdateb ⊢
      omega
    · rw [heq]
      exact (h v hv hne).2 (by rw [hdueb, hduea, heq]) a.due hduea
  have hwindow : ∃ w, ccCycleWindow table.rows now u = .ok w := exists_ccCycleWindow hplace hdates
  obtain ⟨w, hw⟩ := hwindow
  refine ⟨w, hw, ?_⟩
  rw [(of_ccCycleWindow hplace hw).2.2, getElem?_cutsOf, hnext]
  rfl

/-- **A window is open if its statement is sorted last.** -/
theorem opened_iff (hcalendar : InCalendar) (hu : u ∈ anchored table u.accountId) :
    Opened table now u ↔ SortedLast table u :=
  ⟨sortedLast_of_opened hu, opened_of_sortedLast hcalendar hu⟩

/-! ### Agreement -/

theorem sortedLast_of_firstIsLast {after : List StatementUpload}
    (h : FirstIsLast table.rows u.accountId) (hu : KeptAt table.rows u after) :
    SortedLast table u := by
  obtain ⟨⟨before, hrows, hbefore⟩, due, hdue, hlast⟩ := id hu
  intro v hv hne
  obtain ⟨hrow, haccount, -⟩ := mem_anchored.mp hv
  have hsame : v.due = u.due → v.id < u.id ∧ ∀ due ∈ u.due, IsDate (due + 1) := by
    intro hsame
    rw [hrows] at hrow
    rcases List.mem_append.mp hrow with hmem | hmem
    · exact absurd ⟨haccount, hsame⟩ (hbefore v hmem)
    · exact h u after hu rfl v (List.mem_of_ne_of_mem hne hmem) ⟨haccount, hsame⟩
  refine ⟨fun b a hb ha => ?_, fun heq => (hsame heq).2⟩
  obtain ⟨hdueb, hidb⟩ := anchorOf_eq_some hb
  obtain ⟨hduea, hida⟩ := anchorOf_eq_some ha
  obtain rfl := Option.some.inj (hdue.symm.trans hduea)
  refine Prod.Lex.toLex_le_toLex.mpr ?_
  rcases lt_or_eq_of_le (hlast v hrow haccount b.due hdueb) with hlt | heq
  · exact .inl hlt
  · have hid := (hsame (by rw [hdueb, hduea, heq])).1
    exact .inr ⟨heq, by omega⟩

theorem firstIsLast_of_sortedLast (h : ∀ u after, KeptAt table.rows u after →
    u.accountId = accountId → SortedLast table u) : FirstIsLast table.rows accountId := by
  intro u after hu haccount v hv hsame
  obtain ⟨⟨before, hrows, -⟩, due, hdue, -⟩ := id hu
  have hrow : v ∈ table.rows := hrows ▸ List.mem_append_right _ (List.mem_cons_of_mem _ hv)
  have hanchor : anchorOf v = some ⟨due, v.id, v.createdAt⟩ := by
    rw [anchorOf, hsame.2, hdue]
    rfl
  have hid : v.id ≠ u.id := by
    have hnodup := table.nodup_ids
    rw [hrows, List.map_append, List.map_cons] at hnodup
    have hnot := (List.nodup_cons.mp (List.nodup_append.mp hnodup).2.1).1
    exact fun hid => hnot (hid ▸ List.mem_map_of_mem hv)
  have hmem : v ∈ anchored table u.accountId := mem_anchored.mpr ⟨hrow, hsame.1, _, hanchor⟩
  obtain ⟨hprecedes, hdate⟩ := h u after hu haccount v hmem fun heq => hid (congrArg (·.id) heq)
  refine ⟨lt_of_le_of_ne ?_ hid, hdate hsame.2⟩
  have hrank := hprecedes _ ⟨due, u.id, u.createdAt⟩ hanchor (by rw [anchorOf, hdue]; rfl)
  rcases Prod.Lex.toLex_le_toLex.mp hrank with hlt | ⟨-, hle⟩
  · exact absurd hlt (lt_irrefl _)
  · exact hle

theorem eq_of_opened (hu : u ∈ anchored table u.accountId) (hv : v ∈ anchored table u.accountId)
    (hopen : Opened table now u) (hopen' : Opened table now v) : v = u := by
  by_contra hne
  have haccount := (mem_anchored.mp hv).2.1
  have hv' : v ∈ anchored table v.accountId := haccount.symm ▸ hv
  obtain ⟨a, ha⟩ := (mem_anchored.mp hu).2.2
  obtain ⟨b, hb⟩ := (mem_anchored.mp hv).2.2
  have hle := (sortedLast_of_opened hu hopen v hv hne).1 b a hb ha
  have hge := (sortedLast_of_opened hv' hopen' u (haccount ▸ hu) (Ne.symm hne)).1 a b ha hb
  have hid : b.id = a.id := congrArg (fun rank => (ofLex rank).2) (le_antisymm hle hge)
  rw [(anchorOf_eq_some ha).2, (anchorOf_eq_some hb).2] at hid
  exact hne (table.eq_of_id (mem_anchored.mp hv).1 (mem_anchored.mp hu).1 hid)

/-- **The statement kept of an account is the one with the open window if of those that share
the latest due date the first listed has the greatest id**; unless the calendar ends there. -/
theorem agrees_iff (hcalendar : InCalendar) (table : UploadTable) (now : Int) (accountId : Nat) :
    Agrees table now accountId ↔ FirstIsLast table.rows accountId := by
  constructor
  · intro h
    refine @firstIsLast_of_sortedLast _ _ table accountId fun u after hu haccount => ?_
    have hmem := mem_latestPerAccount.mpr ⟨after, hu⟩
    have hopen := (h.opened u hmem haccount u (haccount ▸ hu.anchored)).mpr rfl
    exact sortedLast_of_opened hu.anchored hopen
  · intro h
    have hopened : ∀ u ∈ latestPerAccount table.rows, u.accountId = accountId →
        u ∈ anchored table u.accountId ∧ Opened table now u := by
      rintro u hu rfl
      obtain ⟨after, hkept⟩ := mem_latestPerAccount.mp hu
      have hlast := sortedLast_of_firstIsLast h hkept
      exact ⟨hkept.anchored, opened_of_sortedLast hcalendar hkept.anchored hlast⟩
    refine ⟨?_, ?_⟩
    · rintro u hu rfl v hv
      obtain ⟨hmem, hopen⟩ := hopened u hu rfl
      exact ⟨eq_of_opened hmem hv hopen, fun heq => heq ▸ hopen⟩
    · rintro u hu rfl w hw row date hrow hdate v hv w' hw'
      obtain ⟨hmem, w₀, hw₀, hstop⟩ := hopened u hu rfl
      obtain rfl := Except.ok.inj (hw₀.symm.trans hw)
      have hholds : w₀.Holds date := ⟨hdate, fun stop h => by rw [hstop] at h; cases h⟩
      rw [holds_transactionsInCycle, Option.mem_def.mp hrow]
      constructor
      · rintro ⟨date', heq, hholds'⟩
        obtain rfl := Option.some.inj heq
        exact eq_of_holds hv hmem hw' hw hholds' hholds
      · rintro rfl
        obtain rfl := Except.ok.inj (hw.symm.trans hw')
        exact ⟨date, rfl, hholds⟩

end

/-! ### A bill sent again -/

/-- The readers of `1234.56` and of the days of the calendar as `DD/MM/YYYY`. -/
@[reducible] def calendarReaders : Readers where
  decimal := plainDecimal
  dateutil text := (plainDate text).filter (IsDate ·)

theorem inCalendar_calendarReaders : @InCalendar asciiTables calendarReaders := by
  intro text day h
  unfold parseDate at h
  split_ifs at h
  have hfilter : (plainDate (@strip asciiTables text)).filter (IsDate ·) = some day := h
  exact of_decide_eq_true (Option.filter_eq_some_iff.mp hfilter).2

/-- The bill of May and the same bill sent again, in the order in which they were stored. -/
def sentTwice : UploadTable where
  rows := [statement 1 1 "20/05/2026" "500" .unpaid, statement 2 1 "20/05/2026" "500" .unpaid]
  nodup_ids := by decide

/-- The statement stored first is kept, but its window ends after the day it is due, and the
one sent again has the open window. -/
theorem kept_not_opened :
    let _ := asciiTables
    let _ := calendarReaders
    (latestPerAccount sentTwice.rows).map (·.id) = [1] ∧
      (sentTwice.rows.map fun u => (ccCycleWindow sentTwice.rows 0 u).toOption.bind (·.stop)) =
        [some 739757, none] ∧
      ¬ Agrees sentTwice 0 1 := by
  intro _ _
  refine ⟨by decide +kernel, by decide +kernel, fun h => ?_⟩
  have hkept : statement 1 1 "20/05/2026" "500" .unpaid ∈ latestPerAccount sentTwice.rows := by
    decide +kernel
  have hmem : statement 1 1 "20/05/2026" "500" .unpaid ∈ anchored sentTwice 1 := by
    decide +kernel
  have hclosed : ∀ w ∈ (ccCycleWindow sentTwice.rows 0
      (statement 1 1 "20/05/2026" "500" .unpaid)).toOption, w.stop ≠ none := by
    decide +kernel
  obtain ⟨w, hw, hstop⟩ := (h.opened _ hkept rfl _ hmem).mpr rfl
  exact hclosed w (by rw [hw]; rfl) hstop

/-- The bills of two months. -/
def consecutive : UploadTable where
  rows := [april, may]
  nodup_ids := by decide

theorem agrees_consecutive :
    let _ := asciiTables
    let _ := calendarReaders
    InCalendar ∧ (Agrees consecutive 0 1 ↔ FirstIsLast consecutive.rows 1) := by
  intro _ _
  exact ⟨inCalendar_calendarReaders, agrees_iff inCalendar_calendarReaders consecutive 0 1⟩

end FinancialDashboard.Payments
