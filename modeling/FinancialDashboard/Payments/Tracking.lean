import FinancialDashboard.Lib.Transition
import FinancialDashboard.Payments.Recompute

/-!
# Payment tracking over the ledger

The operations on transactions and the recompute each of them triggers:
`relink_transaction` (`services/transactions.py`), the ingest of messages
(`services/emails.py`, `services/sms_pipeline.py`), the confirmed duplicates
(`services/sms_duplicate_resolution.py`), the reparse of an email (`web/emails.py`) and the
choice of a card (`services/telegram.py`).

A row that is new, or that had no account, triggers the recompute of the account it is linked
to.  A row that had one triggers none, so what it counts has to stay as it was.

* `inSync_of_check`: a recompute puts the account in step.
* `step_inSync`, `run_inSync`: an account stays in step while rows that are linked keep what
  they count.

What a message says and where the linker puts a row are given by the operation.
-/

namespace FinancialDashboard.Payments

open PyText Statements FinancialDashboard.Core Posting Sql Transition

/-- The account and the card of a row. -/
structure Link where
  accountId : Option Nat
  cardId : Option Nat
  deriving DecidableEq, Repr

/-- What a message that is parsed again says; `None` of it is not written. -/
structure Message where
  bank : String
  emailType : String
  direction : String
  amount : Rat
  in_cents : ∃ cents : Int, amount = cents / 100
  transactionDate : Option Int

inductive RelinkError
  | cardNotFound | accountNotFound | cardAccountMismatch | bankMismatch
  deriving DecidableEq, Repr

/-! ### What is written -/

/-- `apply_transaction_enrichment` and the linker, which leaves a linked row alone. -/
def enriched (row : LedgerTxn) (date : Option Int) (link : Link) : LedgerTxn :=
  { row with
    transactionDate := date
    accountId := if row.accountId = none then link.accountId else row.accountId
    cardId := if row.accountId = none then link.cardId else row.cardId }

/-- The in-place refresh of a reparse: the account and the card are cleared for the linker. -/
def refreshed (row : LedgerTxn) (message : Message) (link : Link) : LedgerTxn :=
  { row with
    bank := message.bank
    emailType := message.emailType
    direction := message.direction
    amount := message.amount
    in_cents := message.in_cents
    transactionDate := message.transactionDate.or row.transactionDate
    accountId := link.accountId
    cardId := link.cardId }

variable (accounts : List Account) (cards : List Card)

/-- The account of a card that is given. -/
def cardAccount (accountId cardId : Option Nat) : Except RelinkError (Option Nat) :=
  match cardId with
  | none => .ok accountId
  | some cardId =>
    match cards.find? (·.id = cardId) with
    | none => .error .cardNotFound
    | some card =>
      match accountId with
      | none => .ok (some card.accountId)
      | some accountId =>
        if card.accountId ≠ accountId then .error .cardAccountMismatch else .ok (some accountId)

/-- `relink_transaction`, up to its commit. -/
def relinkTransaction (row : LedgerTxn) (accountId cardId : Option Nat) :
    Except RelinkError LedgerTxn := do
  let accountId ← cardAccount cards accountId cardId
  match accountId with
  | none => return { row with accountId := none, cardId := cardId }
  | some accountId =>
    match accounts.find? (·.id = accountId) with
    | none => .error .accountNotFound
    | some account =>
      if account.bank ≠ row.bank then .error .bankMismatch
      else return { row with accountId := some accountId, cardId := cardId }

/-! ### The operations -/

inductive Operation
  /-- A message makes a row, which the linker and the resolver may have linked. -/
  | ingest (row : LedgerTxn)
  /-- A second message is merged into a row. -/
  | enrich (id : Nat) (date : Option Int) (link : Link)
  /-- A duplicate is confirmed, or a reparsed email joins a row of another channel. -/
  | join (id : Nat) (date : Option Int) (link : Link)
  /-- A reparsed email refreshes its own row. -/
  | reparse (id : Nat) (message : Message) (link : Link)
  | relink (id : Nat) (accountId cardId : Option Nat)
  /-- The card is chosen in the chat. -/
  | pick (id accountId : Nat)

namespace Operation

/-- The row it is about. -/
def id : Operation → Nat
  | ingest row => row.id
  | enrich id _ _ | join id _ _ | reparse id _ _ | relink id _ _ | pick id _ => id

def isEnrich : Operation → Bool
  | enrich _ _ _ => true
  | _ => false

/-- The row it leaves; `none` where it is refused. -/
def write : Operation → Option LedgerTxn → Option LedgerTxn
  | ingest row, none => some row
  | enrich _ date link, some row | join _ date link, some row => some (enriched row date link)
  | reparse _ message link, some row => some (refreshed row message link)
  | relink _ accountId cardId, some row =>
    (relinkTransaction accounts cards row accountId cardId).toOption
  | pick _ accountId, some row => some { row with accountId := some accountId }
  | _, _ => none

/-- The account whose recompute it triggers, by the row before and the row after. -/
def checked : Operation → Option LedgerTxn → LedgerTxn → Option Nat
  | ingest _, _, row => if shouldAutoReconcileStatement row then row.accountId else none
  | enrich _ _ _, _, _ => none
  | join _ _ _, old, row | reparse _ _ _, old, row | relink _ _ _, old, row =>
    let wasOrphaned := (old.bind (·.accountId)).isNone
    if wasOrphaned && shouldAutoReconcileStatement row then row.accountId else none
  | pick _ accountId, _, _ => some accountId

end Operation

namespace Ledger

variable (ledger : Ledger) (row : LedgerTxn)

def get (id : Nat) : Option LedgerTxn := ledger.rows.find? (·.id = id)

/-- The row in its place, or a new one. -/
def put : Ledger where
  rows :=
    if row.id ∈ ledger.rows.map (·.id) then
      ledger.rows.map fun old => if old.id = row.id then row else old
    else ledger.rows ++ [row]
  nodup_ids := by
    split_ifs with h
    · have hids : ∀ old : LedgerTxn, (if old.id = row.id then row else old).id = old.id := by
        intro old
        split_ifs with hid
        · exact hid.symm
        · rfl
      rw [List.map_map, Function.comp_def]
      simp only [hids]
      exact ledger.nodup_ids
    · rw [List.map_append, List.map_singleton]
      exact List.nodup_append.mpr ⟨ledger.nodup_ids, List.nodup_singleton _, fun id hid id' hid' =>
        fun heq => h (List.mem_singleton.mp hid' ▸ heq ▸ hid)⟩

end Ledger

structure State where
  ledger : Ledger
  uploads : UploadTable

/-- An operation, and the time of the recompute that follows. -/
structure Event where
  op : Operation
  now : Int

section

variable [UnicodeTables] [Readers]

def tracking : System State Event where
  step s e := do
    let old := s.ledger.get e.op.id
    let row ← e.op.write accounts cards old
    let ledger := s.ledger.put row
    match e.op.checked old row with
    | none => return ⟨ledger, s.uploads⟩
    | some accountId =>
      return ⟨ledger, (checkPaymentReceived accounts ledger s.uploads e.now accountId).2⟩

def newestStatement (rows : List StatementUpload) (accountId : Nat) : Option StatementUpload :=
  (latestPerAccount (rows.filter (·.accountId = accountId))).head?

/-- The account's newest statement, while it is open, has the sum of its cycle as paid. -/
def InSync (s : State) (accountId : Nat) : Prop :=
  ∀ u, newestStatement s.uploads.rows accountId = some u → InStatus activeStatuses u →
    u.createdAt.isSome → (∃ value, u.totalAmountDue.bind parseAmount = some (.finite value)) →
      ∀ now window, ccCycleWindow s.uploads.rows now u = .ok window →
        u.paymentPaidAmount = some (paymentCredits s.ledger.rows accountId window)

end

/-- A row counts in every cycle what it counted before. -/
def SameCredit (old row : LedgerTxn) : Prop :=
  (PaymentCredit old ↔ PaymentCredit row) ∧ (PaymentCredit old →
    row.accountId = old.accountId ∧ row.amount = old.amount ∧
      row.transactionDate = old.transactionDate)

instance (old row : LedgerTxn) : Decidable (SameCredit old row) :=
  inferInstanceAs (Decidable (_ ∧ _))

/-- A row that is linked keeps what it counts, and an enrichment links no payment. -/
def Covered (s : State) (e : Event) : Prop :=
  ∀ old ∈ s.ledger.get e.op.id, ∀ row ∈ e.op.write accounts cards (some old),
    SameCredit old row ∨ old.accountId = none ∧ (row.accountId = none ∨ e.op.isEnrich = false)

instance (s : State) (e : Event) : Decidable (Covered accounts cards s e) :=
  inferInstanceAs (Decidable (∀ old ∈ s.ledger.get e.op.id,
    ∀ row ∈ e.op.write accounts cards (some old), _))

/-! ### What a row counts -/

variable {accounts cards} {ledger : Ledger} {uploads : UploadTable} {s t : State} {e : Event}
  {old row : LedgerTxn} {op : Operation} {accountId : Nat} {window : CycleWindow}
  {u : StatementUpload} {id : Nat} {state : PaymentState} {now : Int}

theorem SameCredit.contribution_eq (h : SameCredit old row)
    (hcreated : row.createdAt = old.createdAt) :
    contribution accountId window row = contribution accountId window old := by
  obtain ⟨hiff, hsame⟩ := h
  have hqualifies : Qualifies accountId window row ↔ Qualifies accountId window old := by
    unfold Qualifies transactionsInCycle
    by_cases hcredit : PaymentCredit old
    · obtain ⟨haccount, -, hdate⟩ := hsame hcredit
      rw [haccount, hdate, hcreated, hiff]
    · simp [hcredit, hiff.not.mp hcredit]
  unfold contribution
  by_cases h : Qualifies accountId window old
  · rw [if_pos h, if_pos (hqualifies.mpr h), (hsame h.2.1).2.1]
  · rw [if_neg h, if_neg (hqualifies.not.mpr h)]

theorem contribution_eq_zero (h : row.accountId ≠ some accountId ∨ ¬ PaymentCredit row) :
    contribution accountId window row = 0 := by
  refine if_neg fun hq => ?_
  rcases h with h | h
  · exact h hq.1
  · exact h hq.2.1

namespace Ledger

theorem get_eq_some (h : ledger.get id = some old) : old ∈ ledger.rows ∧ old.id = id :=
  ⟨List.mem_of_find?_eq_some h, by simpa using List.find?_some h⟩

theorem eq_of_id (hold : old ∈ ledger.rows) (hrow : row ∈ ledger.rows) (hid : old.id = row.id) :
    old = row :=
  List.inj_on_of_nodup_map ledger.nodup_ids hold hrow hid

theorem get_eq_none (h : ledger.get id = none) : id ∉ ledger.rows.map (·.id) := by
  intro hmem
  obtain ⟨row, hrow, rfl⟩ := List.mem_map.mp hmem
  have hne := List.find?_eq_none.mp h row hrow
  simp at hne

/-- **What is counted changes with the row that is written only.** -/
theorem paymentCredits_put
    (hold : ∀ old, ledger.get row.id = some old →
      contribution accountId window row = contribution accountId window old)
    (hnew : ledger.get row.id = none → contribution accountId window row = 0) :
    paymentCredits (ledger.put row).rows accountId window =
      paymentCredits ledger.rows accountId window := by
  rw [paymentCredits_eq, paymentCredits_eq]
  unfold put
  dsimp only
  cases hget : ledger.get row.id with
  | none =>
    rw [if_neg (get_eq_none hget), List.map_append, List.sum_append, List.map_singleton,
      List.sum_singleton, hnew hget, add_zero]
  | some old =>
    obtain ⟨hmem, hid⟩ := get_eq_some hget
    rw [if_pos (hid ▸ List.mem_map_of_mem hmem), List.map_map]
    refine congrArg List.sum (List.map_congr_left fun r hr => ?_)
    rw [Function.comp_apply]
    split_ifs with hr'
    · obtain rfl := eq_of_id hr hmem (hr'.trans hid.symm)
      exact hold r hget
    · rfl

end Ledger

/-! ### The operations, taken apart -/

namespace Operation

theorem relink_eq_ok {accountId cardId : Option Nat}
    (h : relinkTransaction accounts cards old accountId cardId = .ok row) :
    ∃ link : Link, row = { old with accountId := link.accountId, cardId := link.cardId } := by
  obtain ⟨account, haccount, h⟩ := bind_eq_ok.mp h
  cases account with
  | none => exact ⟨⟨none, cardId⟩, (Except.ok.inj h).symm⟩
  | some accountId =>
    dsimp only at h
    cases hfind : accounts.find? (·.id = accountId) with
    | none =>
      rw [hfind] at h
      cases h
    | some account =>
      rw [hfind] at h
      dsimp only at h
      split_ifs at h
      · exact ⟨⟨some accountId, cardId⟩, (Except.ok.inj h).symm⟩

theorem write_relink {accountId cardId : Option Nat}
    (h : (relink id accountId cardId).write accounts cards (some old) = some row) :
    ∃ link : Link, row = { old with accountId := link.accountId, cardId := link.cardId } := by
  cases hrelink : relinkTransaction accounts cards old accountId cardId with
  | error e =>
    simp [write, hrelink, Except.toOption] at h
  | ok row' =>
    simp only [write, hrelink, Except.toOption, Option.some.injEq] at h
    exact h ▸ relink_eq_ok hrelink

/-- The row that is left is the row it is about. -/
theorem write_keeps (h : op.write accounts cards (some old) = some row) :
    row.id = old.id ∧ row.createdAt = old.createdAt := by
  cases op with
  | ingest new => cases h
  | enrich id date link | join id date link =>
    obtain rfl := Option.some.inj h
    exact ⟨rfl, rfl⟩
  | reparse id message link | pick id accountId =>
    obtain rfl := Option.some.inj h
    exact ⟨rfl, rfl⟩
  | relink id accountId cardId =>
    obtain ⟨link, rfl⟩ := write_relink h
    exact ⟨rfl, rfl⟩

theorem write_none (h : op.write accounts cards none = some row) : op = ingest row := by
  cases op with
  | ingest new => rw [Option.some.inj h]
  | enrich _ _ _ | join _ _ _ | reparse _ _ _ | relink _ _ _ | pick _ _ => cases h

/-- **A payment that is linked for the first time is checked**, unless it is enriched. -/
theorem checked_of_orphan {old : Option LedgerTxn} (h : op.write accounts cards old = some row)
    (horphan : old.bind (·.accountId) = none) (hop : op.isEnrich = false)
    (hrow : PaymentCredit row) (haccount : row.accountId = some accountId) :
    op.checked old row = some accountId := by
  have hshould : shouldAutoReconcileStatement row = true :=
    shouldAutoReconcileStatement_iff.mpr ⟨by rw [haccount]; rfl, hrow⟩
  cases op with
  | ingest new => simp [checked, hshould, haccount]
  | enrich id date link => cases hop
  | join id date link => simp [checked, horphan, hshould, haccount]
  | reparse id message link => simp [checked, horphan, hshould, haccount]
  | relink id account card => simp [checked, horphan, hshould, haccount]
  | pick id picked =>
    cases old with
    | none => cases h
    | some old =>
      obtain rfl := Option.some.inj h
      exact haccount

end Operation

/-- An account that is not checked counts what it counted. -/
theorem paymentCredits_unchecked (hwrite : e.op.write accounts cards (s.ledger.get e.op.id) = some row)
    (hcovered : Covered accounts cards s e)
    (hchecked : e.op.checked (s.ledger.get e.op.id) row ≠ some accountId) :
    paymentCredits (s.ledger.put row).rows accountId window =
      paymentCredits s.ledger.rows accountId window := by
  -- a row linked here that was not linked before would have been checked
  have hfresh : (s.ledger.get e.op.id).bind (·.accountId) = none →
      e.op.isEnrich = false → contribution accountId window row = 0 := by
    intro horphan hop
    refine contribution_eq_zero (Classical.or_iff_not_imp_left.mpr fun haccount hrow => ?_)
    exact hchecked (Operation.checked_of_orphan hwrite horphan hop hrow (not_not.mp haccount))
  cases hget : s.ledger.get e.op.id with
  | none =>
    rw [hget] at hwrite
    have hop := Operation.write_none hwrite
    have hid : e.op.id = row.id := by rw [hop, Operation.id]
    rw [hid] at hget
    refine Ledger.paymentCredits_put (fun old hold => ?_) fun _ => hfresh ?_ ?_
    · rw [hget] at hold
      cases hold
    · rw [hid, hget]
      rfl
    · rw [hop]
      rfl
  | some old =>
    have hwrite' := hget ▸ hwrite
    obtain ⟨hid, hcreated⟩ := Operation.write_keeps hwrite'
    have hrow : row.id = e.op.id := hid.trans (Ledger.get_eq_some hget).2
    refine Ledger.paymentCredits_put (fun old' hold => ?_) fun hnone => ?_
    · rw [hrow, hget] at hold
      obtain rfl := Option.some.inj hold
      rcases hcovered old hget row hwrite' with hsame | ⟨horphan, hkind⟩
      · exact hsame.contribution_eq hcreated
      · have hzero : contribution accountId window old = 0 :=
          contribution_eq_zero (Or.inl (by simp [horphan]))
        rw [hzero]
        rcases hkind with hnone | hop
        · exact contribution_eq_zero (Or.inl (by simp [hnone]))
        · exact hfresh (by rw [hget]; exact horphan) hop
    · rw [hrow, hget] at hnone
      cases hnone

/-! ### The statements under a recompute -/

section

variable [UnicodeTables] [Readers] {rows : List StatementUpload}

/-- The row that `setPayment` leaves. -/
def paid (id : Nat) (state : PaymentState) (upload : StatementUpload) : StatementUpload :=
  if upload.id = id then upload.withPayment state else upload

omit [UnicodeTables] [Readers] in
theorem paid_keeps (id : Nat) (state : PaymentState) (u : StatementUpload) :
    (paid id state u).id = u.id ∧
    (paid id state u).accountId = u.accountId ∧ (paid id state u).dueDate = u.dueDate ∧
      (paid id state u).createdAt = u.createdAt ∧
        (paid id state u).totalAmountDue = u.totalAmountDue := by
  unfold paid
  split_ifs <;> exact ⟨rfl, rfl, rfl, rfl, rfl⟩

omit [UnicodeTables] [Readers] in
theorem keepsBilling_paid (id : Nat) (state : PaymentState) : KeepsBilling (paid id state) :=
  fun u =>
    let ⟨hid, haccount, hdue, hcreated, _⟩ := paid_keeps id state u
    ⟨hid, haccount, hdue, hcreated⟩

theorem due_paid (u : StatementUpload) : (paid id state u).due = u.due :=
  congrArg dueOf (paid_keeps id state u).2.2.1

theorem latestPerAccount_map :
    latestPerAccount (rows.map (paid id state)) = (latestPerAccount rows).map (paid id state) := by
  unfold latestPerAccount
  have hdated : (rows.map (paid id state)).filterMap (fun upload => upload.due.map (·, upload)) =
      (rows.filterMap fun upload => upload.due.map (·, upload)).map
        fun p => (p.1, paid id state p.2) := by
    rw [List.filterMap_map, List.map_filterMap]
    refine List.filterMap_congr fun upload _ => ?_
    rw [Function.comp_apply, due_paid, Option.map_map]
    rfl
  rw [hdated, Dict.newest_map (f := fun p : Int × StatementUpload => (p.1, paid id state p.2))
    (fun p => (paid_keeps id state p.2).2.1) (fun _ => rfl), List.map_map, List.map_map]
  rfl

theorem newestStatement_setPayment : newestStatement (uploads.setPayment id state).rows accountId =
    (newestStatement uploads.rows accountId).map (paid id state) := by
  have hrows : (uploads.setPayment id state).rows.filter (·.accountId = accountId) =
      (uploads.rows.filter (·.accountId = accountId)).map (paid id state) :=
    filter_account_map (keepsBilling_paid id state) uploads.rows accountId
  unfold newestStatement
  rw [hrows, latestPerAccount_map, List.head?_map]

/-- **A cycle does not depend on what was paid**, nor on the time if the statement has its own. -/
theorem ccCycleWindow_paid (uploads : UploadTable) (id : Nat) (state : PaymentState)
    (now now' : Int) (hcreated : u.createdAt.isSome) :
    ccCycleWindow (uploads.setPayment id state).rows now' (paid id state u) =
      ccCycleWindow uploads.rows now u :=
  ccCycleWindow_map (keepsBilling_paid id state) (.inl hcreated)

theorem newestStatement_spec (h : newestStatement rows accountId = some u) :
    u ∈ rows ∧ u.accountId = accountId ∧ u.due.isSome := by
  obtain ⟨hmem, due, hdue, -⟩ := latestPerAccount_spec (List.mem_of_head? h)
  obtain ⟨hrow, haccount⟩ := List.mem_filter.mp hmem
  exact ⟨hrow, of_decide_eq_true haccount, by rw [hdue]; rfl⟩

theorem latestPerAccount_filter {p : StatementUpload → Bool} (h : u ∈ latestPerAccount rows)
    (hp : p u = true) : u ∈ latestPerAccount (rows.filter p) := by
  obtain ⟨q, hq, rfl⟩ := List.mem_map.mp h
  refine List.mem_map.mpr ⟨q, ?_, rfl⟩
  have hfilter := Dict.mem_newest_filter (p := fun q => p q.2) hq hp
  rw [List.filter_filterMap] at hfilter
  rw [List.filterMap_filter]
  refine (congrArg (q ∈ Dict.newest _ _ ·) (List.filterMap_congr fun v _ => ?_)).mp hfilter
  cases v.due <;> cases hv : p v <;> simp [hv]

/-- **The newest statement of an account is the one to be recomputed, if it is open.** -/
theorem latestActiveCycle_of_newest (h : newestStatement rows accountId = some u)
    (hactive : InStatus activeStatuses u) : latestActiveCycle rows accountId false = some u := by
  have hdue := (newestStatement_spec h).2.2
  refine mem_latestActiveCycle.mpr ?_
  have hselect : select
      [fun upload => some (upload.accountId = accountId),
        fun upload => isIn upload.paymentStatus
          (if false then activeStatuses ++ [.paid] else activeStatuses),
        fun upload => (isNull upload.dueDate).not] rows =
      (rows.filter (·.accountId = accountId)).filter fun upload =>
        (isIn upload.paymentStatus activeStatuses).holds && (isNull upload.dueDate).not.holds := by
    unfold select
    rw [List.filter_filter]
    refine List.filter_congr fun v _ => ?_
    rw [Bool.eq_iff_iff, holds_all]
    simp [and_comm]
  rw [hselect]
  refine latestPerAccount_filter (List.mem_of_head? h) ?_
  rw [Bool.and_eq_true]
  exact ⟨holds_isIn.mpr hactive, not_isNull.mpr (dueDate_ne_none hdue)⟩

/-! ### In step -/

def CardAccount (accounts : List Account) (accountId : Nat) : Prop :=
  ∃ account, accounts.find? (·.id = accountId) = some account ∧ account.type = "credit_card"

/-- A recompute of a readable total sets the sum of the cycle. -/
theorem recompute_eq (ledger : Ledger)
    (htotal : ∃ value, u.totalAmountDue.bind parseAmount = some (.finite value))
    (hwindow : ccCycleWindow uploads.rows now u = .ok window) :
    ∃ recomputed state, recomputeCcPaymentState ledger uploads now u false = .ok (recomputed, state) ∧
      state.paidAmount = some (paymentCredits ledger.rows u.accountId window) := by
  obtain ⟨value, htotal⟩ := htotal
  obtain ⟨total, hsome, hparse⟩ := Option.bind_eq_some_iff.mp htotal
  rw [← qualifyingPaymentCreditSum_eq]
  unfold recomputeCcPaymentState
  rw [hsome, hwindow]
  simp only [Option.elim_some, bind, Except.bind, parseDue_of_finite hparse]
  split_ifs <;> exact ⟨_, _, rfl, rfl⟩

theorem checkPaymentReceived_eq (hcard : CardAccount accounts accountId) :
    checkPaymentReceived accounts ledger uploads now accountId =
      match latestActiveCycle uploads.rows accountId false with
      | none => (false, uploads)
      | some upload =>
        match recomputeCcPaymentState ledger uploads now upload false with
        | .error _ => (false, uploads)
        | .ok (_, state) => (state.status = some .paid, uploads.setPayment upload.id state) := by
  obtain ⟨account, hfind, htype⟩ := hcard
  unfold checkPaymentReceived
  rw [hfind]
  exact if_neg (not_not.mpr htype)

theorem latestActiveCycle_spec {includePaid : Bool}
    (h : latestActiveCycle rows accountId includePaid = some u) :
    u ∈ rows ∧ u.accountId = accountId := by
  have hmem := (latestPerAccount_spec (mem_latestActiveCycle.mp h)).1
  obtain ⟨hrow, hclauses⟩ := mem_select.mp hmem
  exact ⟨hrow, by simpa using hclauses _ List.mem_cons_self⟩

/-- A recompute leaves the statements of the other accounts. -/
theorem checkPaymentReceived_cases (accounts : List Account) (ledger : Ledger)
    (uploads : UploadTable) (now : Int) (accountId : Nat) :
    (checkPaymentReceived accounts ledger uploads now accountId).2 = uploads ∨
      ∃ upload state, upload ∈ uploads.rows ∧ upload.accountId = accountId ∧
        (checkPaymentReceived accounts ledger uploads now accountId).2 =
          uploads.setPayment upload.id state := by
  unfold checkPaymentReceived
  split
  · exact Or.inl rfl
  · split_ifs with htype
    · exact Or.inl rfl
    · split
      · exact Or.inl rfl
      · rename_i upload hlatest
        obtain ⟨hrow, haccount⟩ := latestActiveCycle_spec hlatest
        split
        · exact Or.inl rfl
        · rename_i recomputed state hrecompute
          exact Or.inr ⟨upload, state, hrow, haccount, rfl⟩

theorem ccCycleWindow_now (now now' : Int) (hcreated : u.createdAt.isSome) :
    ccCycleWindow uploads.rows now u = ccCycleWindow uploads.rows now' u :=
  (ccCycleWindow_paid uploads 0 ⟨none, none, none⟩ now 0 hcreated).symm.trans
    (ccCycleWindow_paid uploads 0 ⟨none, none, none⟩ now' 0 hcreated)

/-- **A recompute puts the account in step.** -/
theorem inSync_of_check (hcard : CardAccount accounts accountId) :
    InSync ⟨ledger, (checkPaymentReceived accounts ledger uploads now accountId).2⟩ accountId := by
  intro u hnewest hactive hcreated htotal now' window hwindow
  dsimp only at hnewest hwindow ⊢
  rw [checkPaymentReceived_eq hcard] at hnewest hwindow
  cases hlatest : latestActiveCycle uploads.rows accountId false with
  | none =>
    rw [hlatest] at hnewest
    rw [latestActiveCycle_of_newest hnewest hactive] at hlatest
    cases hlatest
  | some upload =>
    rw [hlatest] at hnewest hwindow
    dsimp only at hnewest hwindow
    obtain ⟨hupload, -⟩ := latestActiveCycle_spec hlatest
    cases hrecompute : recomputeCcPaymentState ledger uploads now upload false with
    | error e =>
      -- the total can be read and the cycle is there, so this recompute does not fail
      rw [hrecompute] at hnewest hwindow
      obtain rfl := Option.some.inj (hlatest.symm.trans (latestActiveCycle_of_newest hnewest hactive))
      rw [ccCycleWindow_now now' now hcreated] at hwindow
      obtain ⟨recomputed, state, hok, -⟩ := recompute_eq ledger htotal hwindow
      rw [hok] at hrecompute
      cases hrecompute
    | ok result =>
      obtain ⟨recomputed, state⟩ := result
      rw [hrecompute] at hnewest hwindow
      dsimp only at hnewest hwindow
      rw [newestStatement_setPayment] at hnewest
      obtain ⟨v, hv, rfl⟩ := Option.map_eq_some_iff.mp hnewest
      obtain ⟨hrow, haccount, hdue⟩ := newestStatement_spec hv
      obtain ⟨-, -, -, hkeeps, htotal'⟩ := paid_keeps upload.id state v
      rw [hkeeps] at hcreated
      rw [htotal'] at htotal
      rw [ccCycleWindow_paid uploads upload.id state now now' hcreated] at hwindow
      by_cases hid : v.id = upload.id
      · obtain rfl := uploads.eq_of_id hrow hupload hid
        obtain ⟨recomputed', state', hok, hpaid⟩ := recompute_eq ledger htotal hwindow
        obtain ⟨-, rfl⟩ := Prod.mk.inj (Except.ok.inj (hrecompute.symm.trans hok))
        rw [paid, if_pos rfl, ← haccount]
        exact hpaid
      · rw [paid, if_neg hid] at hactive
        obtain rfl := Option.some.inj (hlatest.symm.trans (latestActiveCycle_of_newest hv hactive))
        exact absurd rfl hid

/-- An account that is not recomputed stays in step, while its credits stay. -/
theorem inSync_of_unchecked {ledger' : Ledger} {uploads' : UploadTable}
    (huploads : uploads' = uploads ∨ ∃ upload state, upload ∈ uploads.rows ∧
      upload.accountId ≠ accountId ∧ uploads' = uploads.setPayment upload.id state)
    (hcredits : ∀ window, paymentCredits ledger'.rows accountId window =
      paymentCredits ledger.rows accountId window)
    (h : InSync ⟨ledger, uploads⟩ accountId) : InSync ⟨ledger', uploads'⟩ accountId := by
  intro u hnewest hactive hcreated htotal now' window hwindow
  dsimp only at hnewest hwindow ⊢
  rw [hcredits]
  rcases huploads with rfl | ⟨upload, state, hupload, hother, rfl⟩
  · exact h u hnewest hactive hcreated htotal now' window hwindow
  · rw [newestStatement_setPayment] at hnewest
    obtain ⟨v, hv, rfl⟩ := Option.map_eq_some_iff.mp hnewest
    obtain ⟨hrow, haccount, hdue⟩ := newestStatement_spec hv
    have hid : v.id ≠ upload.id := fun hid =>
      hother (uploads.eq_of_id hrow hupload hid ▸ haccount)
    have hsame : paid upload.id state v = v := if_neg hid
    rw [ccCycleWindow_paid uploads upload.id state now' now' (hsame ▸ hcreated)] at hwindow
    rw [hsame] at hactive hcreated htotal ⊢
    exact h v hv hactive hcreated htotal now' window hwindow

/-- **A step keeps an account in step.** -/
theorem step_inSync (hcard : CardAccount accounts accountId)
    (h : (tracking accounts cards).step s e = some t) (hcovered : Covered accounts cards s e)
    (hs : InSync s accountId) : InSync t accountId := by
  obtain ⟨row, hwrite, h⟩ := Option.bind_eq_some_iff.mp h
  dsimp only at h
  by_cases hchecked : e.op.checked (s.ledger.get e.op.id) row = some accountId
  · rw [hchecked] at h
    obtain rfl := Option.some.inj h
    exact inSync_of_check hcard
  · have hcredits : ∀ window, paymentCredits (s.ledger.put row).rows accountId window =
        paymentCredits s.ledger.rows accountId window :=
      fun window => paymentCredits_unchecked hwrite hcovered hchecked
    cases hother : e.op.checked (s.ledger.get e.op.id) row with
    | none =>
      rw [hother] at h
      obtain rfl := Option.some.inj h
      exact inSync_of_unchecked (Or.inl rfl) hcredits hs
    | some other =>
      rw [hother] at h hchecked
      obtain rfl := Option.some.inj h
      refine inSync_of_unchecked ?_ hcredits hs
      rcases checkPaymentReceived_cases accounts (s.ledger.put row) s.uploads e.now other
        with hsame | hset
      · exact Or.inl hsame
      · obtain ⟨upload, state, hupload, haccount, hset⟩ := hset
        exact Or.inr ⟨upload, state, hupload,
          fun heq => hchecked (congrArg some (haccount ▸ heq)), hset⟩

/-- **An account stays in step over every run in which the rows that are linked keep what they
count.** -/
theorem run_inSync (hcard : CardAccount accounts accountId) (hs : InSync s accountId)
    (hrun : (tracking accounts cards).Run (Covered accounts cards) s t) : InSync t accountId :=
  hrun.invariant (fun _ _ _ h hcovered hstep => step_inSync hcard hstep hcovered h) hs

end

/-! ### Two cards of one bank -/

def twoCards : List Account :=
  [⟨1, "hdfc", "Regalia", "credit_card", some true⟩,
    ⟨2, "hdfc", "Millennia", "credit_card", some true⟩]

/-- A bill of 1000 on the first card, and no transactions. -/
def billed : State where
  ledger := ⟨[], List.nodup_nil⟩
  uploads :=
    { rows := [{ statement 1 1 "20/05/2026" "1000" .unpaid with createdAt := some 0 }]
      nodup_ids := by decide }

/-- A payment of 500 that came before the bill was due. -/
def payment (accountId : Option Nat) : LedgerTxn where
  id := 1
  accountId := accountId
  cardId := none
  bank := "hdfc"
  emailType := "hdfc_cc_payment_alert"
  direction := "credit"
  amount := 500
  in_cents := ⟨50000, by decide +kernel⟩
  transactionDate := some 739740
  createdAt := some 0

def paidIn (accountId : Option Nat) : Event := ⟨.ingest (payment accountId), 0⟩

def relinked (accountId : Option Nat) : Event := ⟨.relink 1 accountId none, 0⟩

section

variable [UnicodeTables] [Readers]

theorem inSync_billed : InSync billed 1 := by
  intro u hnewest _ _ _ now window _
  have hu := (newestStatement_spec hnewest).1
  rw [List.mem_singleton.mp hu]
  rfl

/-- What is stored of the first card's bill, and the credits of its cycle. -/
def stored (s : State) : Option (Option Rat × Rat) := do
  let u ← newestStatement s.uploads.rows 1
  let window ← (ccCycleWindow s.uploads.rows 0 u).toOption
  if InStatus activeStatuses u ∧ u.createdAt.isSome ∧
      u.totalAmountDue.bind parseAmount = some (.finite 1000) then
    return (u.paymentPaidAmount, paymentCredits s.ledger.rows 1 window)
  else none

theorem not_inSync {paid : Option Rat} {credits : Rat} (h : stored s = some (paid, credits))
    (hne : paid ≠ some credits) : ¬ InSync s 1 := by
  intro hs
  obtain ⟨u, hnewest, h⟩ := Option.bind_eq_some_iff.mp h
  obtain ⟨window, hwindow, h⟩ := Option.bind_eq_some_iff.mp h
  split_ifs at h with hopen
  obtain ⟨hactive, hcreated, htotal⟩ := hopen
  obtain ⟨rfl, rfl⟩ := Prod.mk.inj (Option.some.inj h)
  refine hne (hs u hnewest hactive hcreated ⟨1000, htotal⟩ 0 window ?_)
  cases hcycle : ccCycleWindow s.uploads.rows 0 u with
  | error e =>
    rw [hcycle] at hwindow
    cases hwindow
  | ok w =>
    rw [hcycle] at hwindow
    exact congrArg Except.ok (Option.some.inj hwindow)

end

/-- A payment that is moved to another card is still counted on the first. -/
theorem relink_not_inSync :
    let _ := asciiTables
    let _ := plainReaders
    InSync billed 1 ∧ ∃ t, (tracking twoCards []).exec billed [paidIn (some 1), relinked (some 2)] =
      some t ∧ stored t = some (some 500, 0) ∧ ¬ InSync t 1 := by
  intro _ _
  have hview : ((tracking twoCards []).exec billed [paidIn (some 1), relinked (some 2)]).map stored =
      some (some (some 500, 0)) := by decide +kernel
  obtain ⟨t, ht, hstored⟩ := Option.map_eq_some_iff.mp hview
  exact ⟨inSync_billed, t, ht, hstored, not_inSync hstored (by decide)⟩

/-- A payment that is linked later is counted then. -/
theorem run_inSync_orphan :
    let _ := asciiTables
    let _ := plainReaders
    ∃ t, (tracking twoCards []).exec billed [paidIn none, relinked (some 1)] = some t ∧
      stored t = some (some 500, 500) ∧ InSync t 1 := by
  intro _ _
  have hview : ((tracking twoCards []).exec billed [paidIn none, relinked (some 1)]).map stored =
      some (some (some 500, 500)) := by decide +kernel
  have hmeets : (tracking twoCards []).Meets (Covered twoCards []) billed
      [paidIn none, relinked (some 1)] := by decide +kernel
  obtain ⟨t, ht, hrun, hstored⟩ := System.run_of_view hmeets hview
  exact ⟨t, ht, hstored, run_inSync ⟨_, rfl, rfl⟩ inSync_billed hrun⟩

end FinancialDashboard.Payments
