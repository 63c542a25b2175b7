import FinancialDashboard.Core.Accounts
import FinancialDashboard.Lib.Sql
import FinancialDashboard.Payments.Uploads

/-!
# The newest statement of an account

The statements that the reminders, the payment recompute (`services/reminders.py`) and the
disambiguation by amount (`services/cc_disambiguation.py`) act on.

Each first selects by payment status and then keeps the latest per account, so a newest
statement that is not selected gives way to an older one.

* `latestPerAccount_spec`: the latest of what was selected.
* `newest_iff`: it is the newest of the account if the newest is among what was selected.
* `onlyNewest_iff`: when all the callers act on the newest statements only.
-/

namespace FinancialDashboard.Payments

open PyText Statements Sql

/-- `ACTIVE_STATUSES`. -/
def activeStatuses : List PaymentStatus := [.unpaid, .partiallyPaid, .late]

section

variable [UnicodeTables] [Readers]

/-- `latest_per_account`. -/
def latestPerAccount (uploads : List StatementUpload) : List StatementUpload :=
  (Dict.newest (·.2.accountId) (·.1)
    (uploads.filterMap fun upload => upload.due.map (·, upload))).map (·.2)

variable (rows : List StatementUpload)

/-- The statements that `check_and_send_reminders` goes through. -/
def remindedUploads : List StatementUpload :=
  latestPerAccount (select [fun upload => isIn upload.paymentStatus activeStatuses] rows)

/-- `_latest_active_cycle`. -/
def latestActiveCycle (accountId : Nat) (includePaid : Bool) : Option StatementUpload :=
  let statuses := if includePaid then activeStatuses ++ [.paid] else activeStatuses
  (latestPerAccount (select
    [fun upload => some (upload.accountId = accountId),
      fun upload => isIn upload.paymentStatus statuses,
      fun upload => (isNull upload.dueDate).not] rows)).head?

/-- `_load_cc_candidates`. -/
def loadCcCandidates (accounts : List Account) (bank : String) : List Nat :=
  (accounts.filter fun account => account.bank = bank && account.type = "credit_card").map (·.id)

/-- The statements that a payment is compared with. -/
def comparedUploads (candidateIds : List Nat) : List StatementUpload :=
  if candidateIds.length < 2 then []
  else latestPerAccount (select
    [fun upload => some (upload.accountId ∈ candidateIds),
      fun upload => isIn upload.paymentStatus activeStatuses,
      fun upload => (isNull upload.dueDate).not,
      fun upload => (isNull upload.totalAmountDue).not] rows)

/-- `find_cc_account_by_total_due`. -/
def findCcAccountByTotalDue (accounts : List Account) (bank : String) (amount : Rat)
    (candidateIds : Option (List Nat)) : Option Nat :=
  let candidateIds := candidateIds.getD (loadCcCandidates accounts bank)
  let matched := (comparedUploads rows candidateIds).filter fun upload =>
    upload.totalAmountDue.bind parseAmount = some (.finite amount)
  match matched with
  | [upload] => some upload.accountId
  | _ => none

/-! ### The latest of what was selected -/

variable {rows uploads : List StatementUpload} {u v : StatementUpload} {accountId : Nat}

/-- `u` has the greatest due date of all the statements of its account. -/
def IsNewest (rows : List StatementUpload) (u : StatementUpload) : Prop :=
  ∃ due, u.due = some due ∧ ∀ v ∈ rows, v.accountId = u.accountId → ∀ d ∈ v.due, d ≤ due

theorem mem_dated {p : Int × StatementUpload} :
    p ∈ uploads.filterMap (fun upload => upload.due.map (·, upload)) ↔
      p.2 ∈ uploads ∧ p.2.due = some p.1 := by
  obtain ⟨due, upload⟩ := p
  simp only [List.mem_filterMap, Option.map_eq_some_iff, Prod.mk.injEq]
  constructor
  · rintro ⟨u, hu, d, hd, rfl, rfl⟩
    exact ⟨hu, hd⟩
  · rintro ⟨hu, hd⟩
    exact ⟨upload, hu, due, hd, rfl, rfl⟩

theorem latestPerAccount_spec (h : u ∈ latestPerAccount uploads) :
    u ∈ uploads ∧ IsNewest uploads u := by
  obtain ⟨⟨due, u⟩, hp, rfl⟩ := List.mem_map.mp h
  have hlatest := (Dict.newest_spec _ _ _).latest _ hp
  obtain ⟨hu, hdue⟩ := mem_dated.mp hlatest.mem
  refine ⟨hu, due, hdue, fun v hv haccount d hd => ?_⟩
  exact hlatest.last (d, v) (mem_dated.mpr ⟨hv, hd⟩) haccount

theorem exists_latestPerAccount (hu : u ∈ uploads) (hdue : u.due.isSome) :
    ∃ v ∈ latestPerAccount uploads, v.accountId = u.accountId := by
  obtain ⟨due, hdue⟩ := Option.isSome_iff_exists.mp hdue
  obtain ⟨p, hp, haccount⟩ := (Dict.newest_spec (fun p : Int × StatementUpload => p.2.accountId)
    (·.1) _).complete (due, u) (mem_dated.mpr ⟨hu, hdue⟩)
  exact ⟨p.2, List.mem_map_of_mem hp, haccount⟩

theorem nodup_accounts (uploads : List StatementUpload) :
    ((latestPerAccount uploads).map (·.accountId)).Nodup := by
  have hnodup := (Dict.newest_spec (fun p : Int × StatementUpload => p.2.accountId) (·.1)
    (uploads.filterMap fun upload => upload.due.map (·, upload))).nodup
  rw [latestPerAccount, List.map_map]
  exact hnodup

/-- Of each account with a statement of the kind, a newest statement is of the kind. -/
def NewestAmong (rows : List StatementUpload) (kind : StatementUpload → Prop) : Prop :=
  ∀ u ∈ rows, kind u → u.due.isSome → ∃ v ∈ rows, v.accountId = u.accountId ∧ kind v ∧ IsNewest rows v

/-- **The latest of what was selected is the newest if the newest was selected.** -/
theorem newest_iff {clauses : List (StatementUpload → Truth)} :
    (∀ u ∈ latestPerAccount (select clauses rows), IsNewest rows u) ↔
      NewestAmong rows fun u => ∀ clause ∈ clauses, (clause u).holds = true := by
  constructor
  · intro h u hu hkind hdue
    obtain ⟨v, hv, haccount⟩ := exists_latestPerAccount (mem_select.mpr ⟨hu, hkind⟩) hdue
    obtain ⟨hrow, hkind'⟩ := mem_select.mp (latestPerAccount_spec hv).1
    exact ⟨v, hrow, haccount, hkind', h v hv⟩
  · intro h u hu
    obtain ⟨hselected, due, hdue, hlatest⟩ := latestPerAccount_spec hu
    obtain ⟨hrow, hkind⟩ := mem_select.mp hselected
    obtain ⟨v, hv, haccount, hkind', due', hdue', hnewest⟩ := h u hrow hkind (by rw [hdue]; rfl)
    have hle : due' ≤ due := hlatest v (mem_select.mpr ⟨hv, hkind'⟩) haccount due' hdue'
    exact ⟨due, hdue, fun w hw hw' d hd => (hnewest w hw (hw'.trans haccount.symm) d hd).trans hle⟩

/-! ### The callers -/

/-- `u` is in one of the statuses. -/
def InStatus (statuses : List PaymentStatus) (u : StatementUpload) : Prop :=
  ∃ status ∈ statuses, u.paymentStatus = some status

instance (statuses : List PaymentStatus) : DecidablePred (InStatus statuses) :=
  fun u => inferInstanceAs (Decidable (∃ status ∈ statuses, u.paymentStatus = some status))

theorem newestAmong_congr {kind kind' : StatementUpload → Prop}
    (h : ∀ u ∈ rows, u.due.isSome → (kind u ↔ kind' u)) :
    NewestAmong rows kind ↔ NewestAmong rows kind' := by
  have himp : ∀ {kind kind' : StatementUpload → Prop},
      (∀ u ∈ rows, u.due.isSome → (kind u ↔ kind' u)) → NewestAmong rows kind →
        NewestAmong rows kind' := by
    intro kind kind' h hkind u hu hu' hdue
    obtain ⟨v, hv, haccount, hv', hnewest⟩ := hkind u hu ((h u hu hdue).mpr hu') hdue
    obtain ⟨due, hdue', hlast⟩ := hnewest
    exact ⟨v, hv, haccount, (h v hv (by rw [hdue']; rfl)).mp hv', due, hdue', hlast⟩
  exact ⟨himp h, himp fun u hu hdue => (h u hu hdue).symm⟩

theorem dueDate_ne_none (h : u.due.isSome) : u.dueDate ≠ none := by
  intro hnone
  simp [StatementUpload.due, dueOf, hnone] at h

omit [UnicodeTables] [Readers] in
theorem not_isNull {α : Type} {x : Option α} : (isNull x).not.holds = true ↔ x ≠ none := by
  cases x <;> simp [isNull, Truth.not]

theorem reminded_iff : (∀ u ∈ remindedUploads rows, IsNewest rows u) ↔
    NewestAmong rows (InStatus activeStatuses) := by
  refine newest_iff.trans (newestAmong_congr fun u _ _ => ?_)
  rw [List.forall_mem_singleton]
  exact holds_isIn

theorem compared_iff {candidateIds : List Nat} :
    (∀ u ∈ comparedUploads rows candidateIds, IsNewest rows u) ↔
      (2 ≤ candidateIds.length → NewestAmong rows fun u =>
        u.accountId ∈ candidateIds ∧ InStatus activeStatuses u ∧ u.totalAmountDue ≠ none) := by
  unfold comparedUploads
  by_cases hfew : candidateIds.length < 2
  · rw [if_pos hfew]
    exact ⟨fun _ hmany => absurd hmany (not_le.mpr hfew), fun _ u hu => nomatch hu⟩
  · rw [if_neg hfew, newest_iff, forall_prop_of_true (not_lt.mp hfew)]
    refine newestAmong_congr fun u _ hdue => ?_
    simp only [List.forall_mem_cons, List.not_mem_nil, not_isNull, holds_isIn]
    simp [InStatus, dueDate_ne_none hdue]

/-- What the recompute acts on. -/
theorem mem_latestActiveCycle {includePaid : Bool} :
    u ∈ latestActiveCycle rows accountId includePaid ↔
      u ∈ latestPerAccount (select
        [fun upload => some (upload.accountId = accountId),
          fun upload => isIn upload.paymentStatus
            (if includePaid then activeStatuses ++ [.paid] else activeStatuses),
          fun upload => (isNull upload.dueDate).not] rows) := by
  unfold latestActiveCycle
  dsimp only
  generalize hselected : select _ rows = selected
  have haccount : ∀ v ∈ latestPerAccount selected, v.accountId = accountId := by
    intro v hv
    have hmem := (latestPerAccount_spec hv).1
    rw [← hselected, mem_select] at hmem
    simpa using hmem.2 _ List.mem_cons_self
  have hnodup := nodup_accounts selected
  constructor
  · exact List.mem_of_head?
  · intro hmem
    cases hlist : latestPerAccount selected with
    | nil =>
      rw [hlist] at hmem
      cases hmem
    | cons first rest =>
      rw [hlist] at hmem hnodup haccount
      rcases List.mem_cons.mp hmem with rfl | hmem
      · rfl
      · rw [List.map_cons, List.nodup_cons, haccount first List.mem_cons_self] at hnodup
        exact absurd (List.mem_map.mpr ⟨u, hmem, haccount u (List.mem_cons_of_mem _ hmem)⟩) hnodup.1

theorem recompute_iff {includePaid : Bool} :
    (∀ accountId, ∀ u ∈ latestActiveCycle rows accountId includePaid, IsNewest rows u) ↔
      NewestAmong rows
        (InStatus (if includePaid then activeStatuses ++ [.paid] else activeStatuses)) := by
  have hone : ∀ accountId, (∀ u ∈ latestActiveCycle rows accountId includePaid, IsNewest rows u) ↔
      NewestAmong rows fun u => u.accountId = accountId ∧
        InStatus (if includePaid then activeStatuses ++ [.paid] else activeStatuses) u := by
    intro accountId
    simp only [mem_latestActiveCycle]
    refine newest_iff.trans (newestAmong_congr fun u _ hdue => ?_)
    simp only [List.forall_mem_cons, List.not_mem_nil, not_isNull, holds_isIn]
    simp [InStatus, dueDate_ne_none hdue]
  simp only [hone]
  constructor
  · intro h u hu hkind hdue
    obtain ⟨v, hv, haccount, hkind', hnewest⟩ := h u.accountId u hu ⟨rfl, hkind⟩ hdue
    exact ⟨v, hv, haccount, hkind'.2, hnewest⟩
  · intro h accountId u hu hkind hdue
    obtain ⟨v, hv, haccount, hkind', hnewest⟩ := h u hu hkind.2 hdue
    exact ⟨v, hv, haccount, ⟨haccount.trans hkind.1, hkind'⟩, hnewest⟩

/-! ### Only the newest -/

/-- What is acted on is the newest of its account, and nothing older than one that is paid. -/
structure ActsOnNewest (rows acted : List StatementUpload) : Prop where
  newest : ∀ u ∈ acted, IsNewest rows u
  not_older : ∀ u ∈ acted, ∀ v ∈ rows, v.accountId = u.accountId →
    v.paymentStatus = some .paid → ∀ d ∈ u.due, ∀ d' ∈ v.due, ¬ d < d'

theorem actsOnNewest_iff {acted : List StatementUpload} :
    ActsOnNewest rows acted ↔ ∀ u ∈ acted, IsNewest rows u := by
  refine ⟨fun h => h.newest, fun h => ⟨h, fun u hu v hv haccount _ d hd d' hd' => ?_⟩⟩
  obtain ⟨due, hdue, hlast⟩ := h u hu
  obtain rfl := Option.some.inj (hdue.symm.trans hd)
  exact not_lt.mpr (hlast v hv haccount d' hd')

/-- The reminders, the disambiguation and the recompute act on newest statements. -/
structure OnlyNewest (rows : List StatementUpload) (candidateIds : List Nat) : Prop where
  reminders : ActsOnNewest rows (remindedUploads rows)
  disambiguation : ActsOnNewest rows (comparedUploads rows candidateIds)
  recompute : ∀ accountId includePaid,
    ActsOnNewest rows (latestActiveCycle rows accountId includePaid).toList

/-- **The callers act on the newest statements only if these have the status and the total
that each selects by.** -/
theorem onlyNewest_iff (rows : List StatementUpload) (candidateIds : List Nat) :
    OnlyNewest rows candidateIds ↔
      NewestAmong rows (InStatus activeStatuses) ∧
        NewestAmong rows (InStatus (activeStatuses ++ [.paid])) ∧
          (2 ≤ candidateIds.length → NewestAmong rows fun u => u.accountId ∈ candidateIds ∧
            InStatus activeStatuses u ∧ u.totalAmountDue ≠ none) := by
  have hparts : OnlyNewest rows candidateIds ↔
      (∀ u ∈ remindedUploads rows, IsNewest rows u) ∧
        (∀ u ∈ comparedUploads rows candidateIds, IsNewest rows u) ∧
          ∀ includePaid accountId, ∀ u ∈ latestActiveCycle rows accountId includePaid,
            IsNewest rows u := by
    constructor
    · rintro ⟨hreminders, hdisambiguation, hrecompute⟩
      refine ⟨hreminders.newest, hdisambiguation.newest, fun includePaid accountId u hu => ?_⟩
      exact (hrecompute accountId includePaid).newest u (Option.mem_toList.mpr hu)
    · rintro ⟨hreminders, hdisambiguation, hrecompute⟩
      refine ⟨actsOnNewest_iff.mpr hreminders, actsOnNewest_iff.mpr hdisambiguation,
        fun accountId includePaid => actsOnNewest_iff.mpr fun u hu => ?_⟩
      exact hrecompute includePaid accountId u (Option.mem_toList.mp hu)
  rw [hparts, reminded_iff, compared_iff]
  simp only [recompute_iff, Bool.forall_bool]
  constructor
  · rintro ⟨hactive, hcompared, -, htracked⟩
    exact ⟨hactive, htracked, hcompared⟩
  · rintro ⟨hactive, htracked, hcompared⟩
    exact ⟨hactive, hcompared, hactive, htracked⟩

end

/-! ### An older statement acted on -/

def statement (id accountId : Nat) (dueDate total : String) (status : PaymentStatus) :
    StatementUpload where
  id := id
  accountId := accountId
  dueDate := some dueDate
  totalAmountDue := some total
  createdAt := none
  paymentStatus := some status
  paymentSentOffsets := some []
  paymentLastRemindedAt := none
  paymentPaidAt := none
  paymentPaidAmount := some 0

def april : StatementUpload := statement 1 1 "20/04/2026" "133" .unpaid

def may : StatementUpload := statement 2 1 "20/05/2026" "500" .paid

/-- All three act on the bill of April, though that of May is paid. -/
theorem not_onlyNewest :
    let _ := asciiTables
    let _ := plainReaders
    (remindedUploads [april, may]).map (·.id) = [1] ∧
      findCcAccountByTotalDue [april, may] [] "indusind" 133 (some [1, 2]) = some 1 ∧
      (latestActiveCycle [april, may] 1 false).map (·.id) = some 1 ∧
      ¬ OnlyNewest [april, may] [1, 2] := by
  intro _ _
  refine ⟨by decide +kernel, by decide +kernel, by decide +kernel, fun h => ?_⟩
  have hreminded : april ∈ remindedUploads [april, may] := by decide +kernel
  have hapril : april.due = some 739726 := by decide +kernel
  have hmay : may.due = some 739756 := by decide +kernel
  have hmem : may ∈ [april, may] := List.mem_cons_of_mem _ List.mem_cons_self
  have hlt : (739726 : Int) < 739756 := by decide
  exact h.reminders.not_older april hreminded may hmem rfl rfl _ hapril _ hmay hlt

end FinancialDashboard.Payments
