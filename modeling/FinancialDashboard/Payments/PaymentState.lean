import FinancialDashboard.Payments.Tracking

/-!
# The payment state of a statement

What `recompute_cc_payment_state` leaves (`services/reminders.py`): the sum of the cycle, the
status that follows from it and the time of the transition into paid.

Of the old state only the transition enters, and neither the window nor the sum reads
anything that a recompute writes.

* `recompute_of_cycle`: the state by the sum and the total.
* `repaid_of_run`: the statements after any recomputes are those before, paid otherwise.
* `paymentState_follows`: the state follows from the cycle, whatever was recomputed before.
-/

namespace FinancialDashboard.Payments

open PyText PyTime Statements FinancialDashboard.Core Posting Sql Transition

/-- The status of a statement of which `recomputed` was paid. -/
def statusAfter (amountDue : AmountDue) (recomputed : Rat) (unpaidWhenZero : Bool) :
    PaymentStatus :=
  if amountDue.ReachedBy recomputed then .paid
  else if 0 < recomputed ∨ unpaidWhenZero = false then .partiallyPaid
  else .unpaid

/-- The time of payment of a statement in the new status. -/
def paidAtAfter (upload : StatementUpload) (now : Int) (status : PaymentStatus) : Option Int :=
  if status = .paid then
    if upload.paymentStatus ≠ some .paid then some now else upload.paymentPaidAt
  else none

def stateAfter (upload : StatementUpload) (now : Int) (amountDue : AmountDue) (recomputed : Rat)
    (unpaidWhenZero : Bool) : PaymentState where
  status := some (statusAfter amountDue recomputed unpaidWhenZero)
  paidAt := paidAtAfter upload now (statusAfter amountDue recomputed unpaidWhenZero)
  paidAmount := some recomputed

section

variable [UnicodeTables] [Readers]

/-- A recompute of one statement, in the ledger of its time. -/
structure RecomputeEvent where
  ledger : Ledger
  id : Nat
  now : Int
  unpaidWhenZero : Bool

/-- The recomputes as their callers commit them; where one raises nothing is committed. -/
def recomputing : System UploadTable RecomputeEvent where
  step uploads e :=
    match uploads.rows.find? (·.id = e.id) with
    | none => none
    | some upload =>
      match recomputeCcPaymentState e.ledger uploads e.now upload e.unpaidWhenZero with
      | .error _ => some uploads
      | .ok (_, state) => some (uploads.setPayment upload.id state)

/-- The statements are the same but for what was paid of them. -/
def Repaid (uploads later : UploadTable) : Prop :=
  ∃ g : StatementUpload → StatementUpload, KeepsBilling g ∧
    (∀ u, (g u).totalAmountDue = u.totalAmountDue) ∧ later.rows = uploads.rows.map g

/-- The payment state of a statement follows from its cycle. -/
structure StateFollows (ledger : Ledger) (uploads : UploadTable) (now : Int) (u : StatementUpload)
    (unpaidWhenZero : Bool) (amountDue : AmountDue) (window : CycleWindow) (state : PaymentState) :
    Prop where
  returns : recomputeCcPaymentState ledger uploads now u unpaidWhenZero =
    .ok (paymentCredits ledger.rows u.accountId window, state)
  paid_amount : state.paidAmount = some (paymentCredits ledger.rows u.accountId window)
  paid_iff : state.status = some .paid ↔
    amountDue.ReachedBy (paymentCredits ledger.rows u.accountId window)
  stamped : u.paymentStatus ≠ some .paid → state.status = some .paid → state.paidAt = some now
  kept : u.paymentStatus = some .paid → state.status = some .paid →
    state.paidAt = u.paymentPaidAt
  cleared : state.status ≠ some .paid → state.paidAt = none
  /-- Another run leaves all as it is. -/
  again : ∀ now', SameStart u now now' →
    recomputeCcPaymentState ledger (uploads.setPayment u.id state) now' (u.withPayment state)
      unpaidWhenZero = .ok (paymentCredits ledger.rows u.accountId window, state)
  /-- So do the recomputes that came before, of any statements over any ledgers. -/
  independent : ∀ later, recomputing.Run System.always uploads later →
    ∀ u' ∈ later.rows, u'.id = u.id → ∀ now', SameStart u now now' →
      ∃ state', recomputeCcPaymentState ledger later now' u' unpaidWhenZero =
          .ok (paymentCredits ledger.rows u.accountId window, state') ∧
        state'.status = state.status ∧ state'.paidAmount = state.paidAmount

/-! ### One recompute -/

variable {ledger : Ledger} {uploads later : UploadTable} {now now' : Int} {u : StatementUpload}
  {unpaidWhenZero : Bool} {amountDue : AmountDue} {window : CycleWindow} {id : Nat}
  {state : PaymentState}

/-- **The state by the sum of the cycle and the total.** -/
theorem recompute_of_cycle (ledger : Ledger) (unpaidWhenZero : Bool)
    (htotal : u.totalAmountDue.bind parseDue = some amountDue)
    (hwindow : ccCycleWindow uploads.rows now u = .ok window) :
    recomputeCcPaymentState ledger uploads now u unpaidWhenZero =
      .ok (paymentCredits ledger.rows u.accountId window,
        stateAfter u now amountDue (paymentCredits ledger.rows u.accountId window)
          unpaidWhenZero) := by
  obtain ⟨total, hsome, hparse⟩ := Option.bind_eq_some_iff.mp htotal
  unfold recomputeCcPaymentState
  rw [hsome, hwindow]
  simp only [Option.elim_some, bind, Except.bind, hparse, qualifyingPaymentCreditSum_eq]
  unfold stateAfter statusAfter paidAtAfter
  by_cases hreached : amountDue.ReachedBy (paymentCredits ledger.rows u.accountId window)
  · rw [if_pos hreached, if_pos hreached, if_pos rfl]
    rfl
  · rw [if_neg hreached, if_neg hreached]
    split_ifs <;> first | rfl | contradiction

omit [UnicodeTables] [Readers] in
theorem statusAfter_eq_paid {recomputed : Rat} :
    statusAfter amountDue recomputed unpaidWhenZero = .paid ↔ amountDue.ReachedBy recomputed := by
  unfold statusAfter
  split_ifs with hreached hpart <;> simp [hreached]

omit [UnicodeTables] [Readers] in
/-- A state that a recompute left is left by the next. -/
theorem stateAfter_again (u : StatementUpload) (now now' : Int) (amountDue : AmountDue)
    (recomputed : Rat) (unpaidWhenZero : Bool) :
    stateAfter (u.withPayment (stateAfter u now amountDue recomputed unpaidWhenZero)) now' amountDue
      recomputed unpaidWhenZero = stateAfter u now amountDue recomputed unpaidWhenZero := by
  have hpaidAt : ∀ status amount, paidAtAfter
      (u.withPayment ⟨some status, paidAtAfter u now status, amount⟩) now' status =
        paidAtAfter u now status := by
    intro status amount
    by_cases hpaid : status = .paid
    · subst hpaid
      exact (if_pos rfl).trans (if_neg (not_not.mpr rfl))
    · exact (if_neg hpaid).trans (if_neg hpaid).symm
  exact congrArg (PaymentState.mk _ · _) (hpaidAt _ _)

/-! ### Any recomputes -/

omit [UnicodeTables] [Readers] in
theorem Repaid.refl (uploads : UploadTable) : Repaid uploads uploads :=
  ⟨id, fun _ => ⟨rfl, rfl, rfl, rfl⟩, fun _ => rfl, (List.map_id _).symm⟩

omit [UnicodeTables] [Readers] in
theorem Repaid.setPayment (h : Repaid uploads later) (id : Nat) (state : PaymentState) :
    Repaid uploads (later.setPayment id state) := by
  obtain ⟨g, hg, htotal, hrows⟩ := h
  refine ⟨fun u => paid id state (g u), fun u => ?_, fun u => ?_, ?_⟩
  · obtain ⟨hid, haccount, hdue, hcreated⟩ := keepsBilling_paid id state (g u)
    obtain ⟨hid', haccount', hdue', hcreated'⟩ := hg u
    exact ⟨hid.trans hid', haccount.trans haccount', hdue.trans hdue', hcreated.trans hcreated'⟩
  · exact (paid_keeps id state (g u)).2.2.2.2.trans (htotal u)
  · have hset : (later.setPayment id state).rows = later.rows.map (paid id state) := rfl
    rw [hset, hrows, List.map_map]
    rfl

theorem repaid_of_step {e : RecomputeEvent} {next : UploadTable} (h : Repaid uploads later)
    (hstep : recomputing.step later e = some next) : Repaid uploads next := by
  unfold recomputing at hstep
  dsimp only at hstep
  split at hstep
  · cases hstep
  · split at hstep
    · exact Option.some.inj hstep ▸ h
    · exact Option.some.inj hstep ▸ h.setPayment _ _

/-- **Recomputes change nothing of the statements but what was paid.** -/
theorem repaid_of_run (h : recomputing.Run System.always uploads later) : Repaid uploads later :=
  System.Run.invariant (I := Repaid uploads) (fun _ _ _ hi _ hstep => repaid_of_step hi hstep) h
    (.refl uploads)

/-- **A statement paid otherwise has the same cycle and the same total.** -/
theorem Repaid.spec {u' : StatementUpload} (h : Repaid uploads later) (hu : u ∈ uploads.rows)
    (hu' : u' ∈ later.rows) (hid : u'.id = u.id) (hstart : SameStart u now now') :
    ccCycleWindow later.rows now' u' = ccCycleWindow uploads.rows now u ∧
      u'.totalAmountDue = u.totalAmountDue ∧ u'.accountId = u.accountId := by
  obtain ⟨g, hg, htotal, hrows⟩ := h
  rw [hrows] at hu'
  obtain ⟨v, hv, rfl⟩ := List.mem_map.mp hu'
  obtain rfl := uploads.eq_of_id hv hu ((hg v).1.symm.trans hid)
  rw [hrows]
  exact ⟨ccCycleWindow_map hg hstart, htotal v, (hg v).2.1⟩

theorem stateFollows (ledger : Ledger) (unpaidWhenZero : Bool) (hu : u ∈ uploads.rows)
    (htotal : u.totalAmountDue.bind parseDue = some amountDue)
    (hwindow : ccCycleWindow uploads.rows now u = .ok window) :
    ∃ state, StateFollows ledger uploads now u unpaidWhenZero amountDue window state := by
  refine ⟨_, recompute_of_cycle ledger unpaidWhenZero htotal hwindow, rfl, ?_, ?_, ?_, ?_, ?_, ?_⟩
  · exact Option.some_inj.trans statusAfter_eq_paid
  · intro hbefore hpaid
    exact (if_pos (Option.some.inj hpaid)).trans (if_pos hbefore)
  · intro hbefore hpaid
    exact (if_pos (Option.some.inj hpaid)).trans (if_neg (not_not.mpr hbefore))
  · intro hunpaid
    exact if_neg fun hpaid => hunpaid (congrArg some hpaid)
  · intro now' hstart
    generalize hstate : stateAfter u now amountDue _ unpaidWhenZero = state
    have hmem : u.withPayment state ∈ (uploads.setPayment u.id state).rows :=
      List.mem_map.mpr ⟨u, hu, if_pos rfl⟩
    obtain ⟨hsame, -, -⟩ :=
      ((Repaid.refl uploads).setPayment u.id state).spec hu hmem rfl hstart
    have hok := recompute_of_cycle (u := u.withPayment state) ledger unpaidWhenZero htotal
      (hsame.trans hwindow)
    rw [← hstate] at hok ⊢
    exact hok.trans (congrArg (fun state => Except.ok (_, state)) (stateAfter_again u now now' _ _ _))
  · intro later hrun u' hu' hid now' hstart
    obtain ⟨hsame, htotal', haccount⟩ := (repaid_of_run hrun).spec hu hu' hid hstart
    have hok := recompute_of_cycle ledger unpaidWhenZero (htotal'.symm ▸ htotal)
      (hsame.trans hwindow)
    rw [haccount] at hok
    exact ⟨_, hok, rfl, rfl⟩

/-- A bill of the account is due on the last day of the calendar. -/
def DueAtTheEnd (uploads : UploadTable) (accountId : Nat) : Prop :=
  ∃ v ∈ uploads.rows, v.accountId = accountId ∧ ∃ due ∈ v.due, ¬ IsDate (due + 1)

theorem exists_window (hu : u ∈ uploads.rows) (h : ¬ DueAtTheEnd uploads u.accountId) :
    ∃ window, ccCycleWindow uploads.rows now u = .ok window := by
  cases hdue : u.due with
  | none =>
    refine ⟨⟨createdStart now u, (laterCreated uploads.rows u).map dateOf⟩, ?_⟩
    unfold ccCycleWindow
    rw [hdue]
  | some due =>
    have hanchor : anchorOf u = some ⟨due, u.id, u.createdAt⟩ := by
      rw [anchorOf, hdue]
      rfl
    refine (cycles_partition uploads now u.accountId).assigned (fun v hv due hdue => ?_) u
      (mem_anchored.mpr ⟨hu, rfl, _, hanchor⟩)
    obtain ⟨hrow, haccount, -⟩ := mem_anchored.mp hv
    exact not_not.mp fun hend => h ⟨v, hrow, haccount, due, hdue, hend⟩

/-- **The payment state follows from the cycle**, whatever was recomputed before, unless there
is no cycle as the calendar ends with a bill. -/
theorem paymentState_follows (ledger : Ledger) (now : Int) (unpaidWhenZero : Bool)
    (hu : u ∈ uploads.rows) (htotal : u.totalAmountDue.bind parseDue = some amountDue) :
    (∃ window state, ccCycleWindow uploads.rows now u = .ok window ∧
      StateFollows ledger uploads now u unpaidWhenZero amountDue window state) ∨
        DueAtTheEnd uploads u.accountId := by
  by_cases hend : DueAtTheEnd uploads u.accountId
  · exact .inr hend
  · have hexists : ∃ window, ccCycleWindow uploads.rows now u = .ok window := exists_window hu hend
    obtain ⟨window, hwindow⟩ := hexists
    obtain ⟨state, hstate⟩ := stateFollows ledger unpaidWhenZero hu htotal hwindow
    exact .inl ⟨window, state, hwindow, hstate⟩

end

/-- The bill of May and no payment. -/
def mayOnly : UploadTable where
  rows := [may]
  nodup_ids := by decide

theorem paymentState_follows_may :
    let _ := asciiTables
    let _ := plainReaders
    (may ∈ mayOnly.rows ∧ may.totalAmountDue.bind parseDue = some (.finite 500)) ∧
      ((∃ window state, ccCycleWindow mayOnly.rows 0 may = .ok window ∧
        StateFollows ⟨[], List.nodup_nil⟩ mayOnly 0 may false (.finite 500) window state) ∨
          DueAtTheEnd mayOnly may.accountId) := by
  intro _ _
  have hmem : may ∈ mayOnly.rows := List.mem_singleton.mpr rfl
  have htotal : may.totalAmountDue.bind parseDue = some (.finite 500) := by decide +kernel
  exact ⟨⟨hmem, htotal⟩, paymentState_follows ⟨[], List.nodup_nil⟩ 0 false hmem htotal⟩

end FinancialDashboard.Payments
